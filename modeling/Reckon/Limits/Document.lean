import Std.Data.TreeMap
import Reckon.Decimal.Integer
import Reckon.Decimal.Numeral
import Reckon.Limits.Basic

/-!
# Limits/Document — limits as the entries of a document

In a document a count is an integer from zero up to `2 ^ 64`, and a bound on operands, which may be of
any size, is a decimal text, or null for no bound.  **A limit that a document does not mention has
its default**, and an entry that is none of these makes the whole document no limits at all.
-/

namespace Reckon

/-- What stands under a key of a document. -/
inductive Entry where
  | integer (n : Int)
  | text (s : String)
  | null
  /-- Anything else. -/
  | other
deriving DecidableEq, Repr

/-- Entries by their keys. -/
abbrev Document := Std.TreeMap String Entry

namespace Limits

/-- The count that an entry stands for. -/
def countOfEntry? : Entry → Option Nat
  | .integer n => if 0 ≤ n ∧ n < 2 ^ 64 then some n.toNat else none
  | _ => none

/-- The bound on operands that an entry stands for. -/
def boundOfEntry? : Entry → Option (Option Int)
  | .text s => (Decimal.integer? s.toList).map some
  | .null => some none
  | _ => none

/-- The entry of a count. -/
def entryOfCount (n : Nat) : Entry := .integer n

/-- The entry of a bound on operands. -/
def entryOfBound : Option Int → Entry
  | some n => .text (Decimal.signedNumeral n)
  | none => .null

/-- What the entry under a key stands for, or else what holds without one. -/
def mentioned? {β : Type} (d : Document) (key : String) (read? : Entry → Option β)
    (otherwise : β) : Option β :=
  match d[key]? with
  | none => some otherwise
  | some entry => read? entry

/-- The limits a document stands for. -/
def ofDocument? (d : Document) : Option Limits := do
  let base : Limits := {}
  let lineLimit ← mentioned? d "line_limit" countOfEntry? base.lineLimit
  let operandLimit ← mentioned? d "operand_limit" boundOfEntry? base.operandLimit
  let powerUnionLimit ← mentioned? d "pow_union_limit" boundOfEntry? base.powerUnionLimit
  let powerEachLimit ← mentioned? d "pow_each_limit" boundOfEntry? base.powerEachLimit
  let factorialLimit ← mentioned? d "factorial_limit" boundOfEntry? base.factorialLimit
  let maxVariables ← mentioned? d "max_vars" countOfEntry? base.maxVariables
  return { lineLimit, operandLimit, powerUnionLimit, powerEachLimit, factorialLimit, maxVariables }

/-- The document of limits, which mentions every limit. -/
def toDocument (limits : Limits) : Document :=
  .ofList
    [("line_limit", entryOfCount limits.lineLimit),
     ("operand_limit", entryOfBound limits.operandLimit),
     ("pow_union_limit", entryOfBound limits.powerUnionLimit),
     ("pow_each_limit", entryOfBound limits.powerEachLimit),
     ("factorial_limit", entryOfBound limits.factorialLimit),
     ("max_vars", entryOfCount limits.maxVariables)]

end Limits

end Reckon

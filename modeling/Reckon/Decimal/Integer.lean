import Reckon.Power

/-!
# Decimal/Integer — integers read from decimal text

An integer of any size is **an optional sign, a digit, then digits and underscores**; the
underscores only group (`integer?`).  A bounded one has digits alone, and `bounded` says why a text
is none: the first character that is not a digit, or that takes the value out of its bounds,
decides.
-/

namespace Reckon.Decimal

/-- The value of a digit followed by digits and underscores. -/
def magnitude? : List Char → Option Nat
  | [] => none
  | c :: cs =>
    if c.isDigit && cs.all (fun d => d.isDigit || d == '_') then
      some (Nat.ofDigitChars 10 ((c :: cs).filter (· != '_')) 0)
    else none

/-- The integer a decimal text stands for, with one sign at most. -/
def integer? : List Char → Option Int
  | '-' :: cs => (magnitude? cs).map fun n => -(n : Int)
  | '+' :: cs => (magnitude? cs).map fun n => (n : Int)
  | cs => (magnitude? cs).map fun n => (n : Int)

/-! ## Integers within bounds -/

/-- Why a text stands for no integer within the bounds. -/
inductive BoundedFault where
  | empty
  | invalidDigit
  | tooLarge
  | tooSmall
deriving DecidableEq, Repr

/-- The wording of a fault. -/
def BoundedFault.message : BoundedFault → String
  | .empty => "cannot parse integer from empty string"
  | .invalidDigit => "invalid digit found in string"
  | .tooLarge => "number too large to fit in target type"
  | .tooSmall => "number too small to fit in target type"

/-- The value of a digit. -/
def digit? (c : Char) : Except BoundedFault Nat :=
  if c.isDigit then .ok (c.toNat - '0'.toNat) else .error .invalidDigit

/-- Appends digits to a value that may grow up to `hi`. -/
def growUpTo (hi : Int) (value : Int) (digits : List Char) : Except BoundedFault Int :=
  digits.foldlM (fun v c => do
    let w := 10 * v + (← digit? c)
    if w ≤ hi then pure w else throw .tooLarge) value

/-- Appends digits to a value that may shrink down to `lo`. -/
def shrinkDownTo (lo : Int) (value : Int) (digits : List Char) : Except BoundedFault Int :=
  digits.foldlM (fun v c => do
    let w := 10 * v - (← digit? c)
    if lo ≤ w then pure w else throw .tooSmall) value

/-- The integer from `lo` to `hi` that a decimal text stands for.  A minus sign is read only where
negative values are within the bounds. -/
def bounded (lo hi : Int) : List Char → Except BoundedFault Int
  | [] => .error .empty
  | ['+'] | ['-'] => .error .invalidDigit
  | '+' :: cs => growUpTo hi 0 cs
  | '-' :: cs => if lo < 0 then shrinkDownTo lo 0 cs else .error .invalidDigit
  | cs => growUpTo hi 0 cs

/-- The natural number below `2 ^ bits` that a decimal text stands for. -/
def unsigned (bits : Nat) (cs : List Char) : Except BoundedFault Nat :=
  (bounded 0 (2 ^ bits - 1) cs).map Int.toNat

/-- The integer of `bits` bits, one of them the sign, that a decimal text stands for. -/
def signed (bits : Nat) (cs : List Char) : Except BoundedFault Int :=
  bounded (-2 ^ (bits - 1)) (2 ^ (bits - 1) - 1) cs

end Reckon.Decimal

import Reckon.Decimal.Integer
import Reckon.Limits.Basic
import Reckon.Text.Blank

/-!
# Limits/Overrides — limits given as texts by name

Each limit has a name under which a text may override it, with white space around it.  A count is a
natural number below `2 ^ 64`; a bound on operands is an integer of any size, or `none` in any letter
case for no bound.  **The first text that cannot be read, in the order of the limits, is the error.**
-/

namespace Reckon

/-- A text that cannot be read as the limit it is given for. -/
structure ConfigError where
  key : String
  value : String
deriving DecidableEq, Repr

/-- The wording of a config error. -/
def ConfigError.message (e : ConfigError) : String := s!"Invalid value '{e.value}' for {e.key}"

namespace Limits

/-- The name of the limit on the length of a line. -/
def lineLimitKey : String := "CALC_LINE_LIMIT"

/-- The name of the limit on operands. -/
def operandLimitKey : String := "CALC_OPERAND_LIMIT"

/-- The name of the limit on all operands of a power together. -/
def powerUnionLimitKey : String := "CALC_POW_UNION_LIMIT"

/-- The name of the limit on each operand of a power. -/
def powerEachLimitKey : String := "CALC_POW_EACH_LIMIT"

/-- The name of the limit on factorials. -/
def factorialLimitKey : String := "CALC_FACTORIAL_LIMIT"

/-- The name of the limit on the variables of a truth table. -/
def maxVariablesKey : String := "MAX_VARS"

/-- The count a text stands for. -/
def readCount? (cs : List Char) : Option Nat := (Decimal.unsigned 64 cs).toOption

/-- The bound on operands a text stands for: an integer, or none. -/
def readBound? (cs : List Char) : Option (Option Int) :=
  if cs.map Char.toLower = "none".toList then some none else (Decimal.integer? cs).map some

/-- What the text given for a key stands for, or else what holds without it. -/
def overridden {β : Type} (given : String → Option String) (key : String)
    (read? : List Char → Option β) (otherwise : β) : Except ConfigError β :=
  match given key with
  | none => .ok otherwise
  | some value =>
    match read? (Text.trimBlank value.toList) with
    | some b => .ok b
    | none => .error ⟨key, value⟩

/-- The limits with those overridden for which a text is given. -/
def withOverrides (limits : Limits) (given : String → Option String) :
    Except ConfigError Limits := do
  let lineLimit ← overridden given lineLimitKey readCount? limits.lineLimit
  let operandLimit ← overridden given operandLimitKey readBound? limits.operandLimit
  let powerUnionLimit ← overridden given powerUnionLimitKey readBound? limits.powerUnionLimit
  let powerEachLimit ← overridden given powerEachLimitKey readBound? limits.powerEachLimit
  let factorialLimit ← overridden given factorialLimitKey readBound? limits.factorialLimit
  let maxVariables ← overridden given maxVariablesKey readCount? limits.maxVariables
  return { lineLimit, operandLimit, powerUnionLimit, powerEachLimit, factorialLimit, maxVariables }

end Limits

end Reckon

import Reckon.Error
import Reckon.Power

/-!
# Limits/Basic — bounds on what one calculation may cost
-/

namespace Reckon

/-- Bounds on what one calculation may cost.  An absent bound on operands refuses nothing. -/
structure Limits where
  /-- A line of this many characters, or more, is refused. -/
  lineLimit : Nat := 1000
  /-- No operand of an operation may have a larger magnitude. -/
  operandLimit : Option Int := some (50 ^ 50)
  /-- A power whose operands all have a larger magnitude is refused. -/
  powerUnionLimit : Option Int := some 1000
  /-- A power with an operand of a larger magnitude is refused. -/
  powerEachLimit : Option Int := some 100000
  /-- The factorial of a number of a larger magnitude is refused. -/
  factorialLimit : Option Int := some 1000
  /-- No truth table may have more variables. -/
  maxVariables : Nat := 7
deriving DecidableEq, Repr, Inhabited

namespace Limits

/-- Refuses a line that is too long. -/
def checkLine (limits : Limits) (line : String) : Except Error Unit :=
  if line.length < limits.lineLimit then .ok ()
  else .error (.calculationLimit (.lineTooLong line.length limits.lineLimit))

end Limits

end Reckon

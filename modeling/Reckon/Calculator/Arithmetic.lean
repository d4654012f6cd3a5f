import Reckon.Expression.Run
import Reckon.Grammar.Declaration
import Reckon.Limits.Basic
import Reckon.Number.Arithmetic
import Reckon.Number.Order
import Reckon.Number.Reading

/-!
# Calculator/Arithmetic — the language of numbers

The operators, from the tightest: `^`, which groups to the right; `-` and `+` before an operand;
`*`, `/`, `:` and `%`; `+` and `-` between operands.  Beside them stand the elementary functions, and
`pi` and `e`.  **No operation gives an infinity or a NaN**: a function of doubles fails where its
value is not finite.
-/

namespace Reckon

namespace Arithmetic

/-! ## Limiters -/

/-- The two-tier policy on magnitudes. -/
def magnitudeLimiter (union each : Option Int) : Limiter Number :=
  .boundsBy (union.map .integer) (each.map .integer) Number.abs

/-! ## Functions of doubles -/

/-- The ratio of a circle's circumference to its diameter. -/
def pi : Float := .ofBits 0x400921FB54442D18

/-- The base of the natural logarithm. -/
def e : Float := .ofBits 0x4005BF0A8B145769

/-- The degrees in a radian: the double nearest to `180 / π`. -/
def degreesPerRadian : Float := .ofBits 0x404CA5DC1A63C1F8

/-- The radians in a degree. -/
def radiansPerDegree : Float := pi / 180.0

/-- A function of a double. -/
def floatFunction (name : String) (f : Float → Float) : Native Number :=
  .unary fun x => Number.ofFloat? name (f x.toFloat)

/-- A function of a double that is defined only where `domain` holds. -/
def partialFunction (name : String) (domain : Float → Bool) (f : Float → Float) : Native Number :=
  .unary fun x =>
    if domain x.toFloat then Number.ofFloat? name (f x.toFloat)
    else .error (.outOfDomain name (Number.textOfFloat x.toFloat))

/-- The double is greater than zero. -/
def isPositive (x : Float) : Bool := decide (0.0 < x)

/-- The double is zero or greater. -/
def isNonnegative (x : Float) : Bool := decide (0.0 ≤ x)

/-- The double lies from minus one to one. -/
def isWithinUnit (x : Float) : Bool := decide (-1.0 ≤ x) && decide (x ≤ 1.0)

/-- The cotangent. -/
def cotangent (x : Number) : Except DomainError Number :=
  let tangent := x.toFloat.tan
  if tangent == 0.0 then .error .divisionByZero else Number.ofFloat? "cot" (1.0 / tangent)

/-- The logarithm of `x` to a base. -/
def logarithm (x base : Number) : Except DomainError Number :=
  let (x, base) := (x.toFloat, base.toFloat)
  if !isPositive x || !isPositive base then .error (.outOfDomain "log" (Number.textOfFloat x))
  else if base == 1.0 then .error .divisionByZero
  else Number.ofFloat? "log" (x.log / base.log)

/-! ## The grammar -/

/-- The value of a numeric lexeme. -/
def convert (lexeme : String) : Except ConversionError Number :=
  (Number.read lexeme).mapError fun e => ⟨e.message⟩

/-- The declarations of the language of numbers. -/
def declarations (limits : Limits) : List (Declaration Number) :=
  let powers := magnitudeLimiter limits.powerUnionLimit limits.powerEachLimit
  [.infixOp '+' .left 1 (fun a b => (a + b).finite? "+") none,
   .infixOp '-' .left 1 (fun a b => (a - b).finite? "-") none,
   .infixOp '*' .left 2 (fun a b => (a * b).finite? "*") none,
   .infixOp '/' .left 2 Number.divide none,
   .infixOp ':' .left 2 Number.floorDivide none,
   .infixOp '%' .left 2 Number.floorModulo none,
   .prefixOp '-' 5 (fun a => .ok (-a)) none,
   .prefixOp '+' 5 .ok none,
   .infixOp '^' .right 10 Number.power (some powers),
   -- general
   .function "abs" (.unary fun x => .ok x.abs) none,
   .function "round" (.unary Number.round) none,
   .function "pow" (.binary Number.power) (some powers),
   .function "sqrt" (partialFunction "sqrt" isNonnegative Float.sqrt) none,
   .function "factorial" (.unary Number.factorial)
     (some (magnitudeLimiter limits.factorialLimit none)),
   -- angles
   .function "deg" (floatFunction "deg" (· * degreesPerRadian)) none,
   .function "rad" (floatFunction "rad" (· * radiansPerDegree)) none,
   -- trigonometry
   .function "sin" (floatFunction "sin" Float.sin) none,
   .function "cos" (floatFunction "cos" Float.cos) none,
   .function "tan" (floatFunction "tan" Float.tan) none,
   .function "tg" (floatFunction "tg" Float.tan) none,
   .function "cot" (.unary cotangent) none,
   .function "ctg" (.unary cotangent) none,
   .function "acos" (partialFunction "acos" isWithinUnit Float.acos) none,
   .function "arccos" (partialFunction "arccos" isWithinUnit Float.acos) none,
   .function "asin" (partialFunction "asin" isWithinUnit Float.asin) none,
   .function "arcsin" (partialFunction "arcsin" isWithinUnit Float.asin) none,
   .function "atan" (floatFunction "atan" Float.atan) none,
   .function "arctg" (floatFunction "arctg" Float.atan) none,
   -- exponents and logarithms
   .function "log" (.binary logarithm) none,
   .function "lg" (partialFunction "lg" isPositive Float.log10) none,
   .function "ln" (partialFunction "ln" isPositive Float.log) none,
   .function "log2" (partialFunction "log2" isPositive Float.log2) none,
   .function "exp" (floatFunction "exp" Float.exp) (some powers),
   .constant "pi" (.float pi),
   .constant "e" (.float e),
   .defaultLimiter (magnitudeLimiter none limits.operandLimit)]

/-- The language of numbers within limits. -/
def grammar (limits : Limits) : Grammar Number := .ofDeclarations convert (declarations limits)

/-- The value of a line of arithmetic. -/
def calculate (limits : Limits) (line : String) : Except Error Number := do
  limits.checkLine line
  (grammar limits).parseAndRun line ∅

end Arithmetic

end Reckon

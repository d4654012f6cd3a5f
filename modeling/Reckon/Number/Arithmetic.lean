import Reckon.Number.Basic

/-!
# Number/Arithmetic — operations on numbers

Integers stay exact wherever the result is an integer; **a quotient and a power with a negative
exponent leave the integers**, each rounded from its exact or its floating value.  An operation that
would give an infinity or a NaN fails instead and names itself.
-/

namespace Reckon.Number

/-! ## Sums, differences and products -/

/-- The sum. -/
def add (a b : Number) : Number :=
  match pair a b with
  | .integers m n => integer (m + n)
  | .floats x y => float (x + y)

/-- The difference. -/
def sub (a b : Number) : Number :=
  match pair a b with
  | .integers m n => integer (m - n)
  | .floats x y => float (x - y)

/-- The product. -/
def mul (a b : Number) : Number :=
  match pair a b with
  | .integers m n => integer (m * n)
  | .floats x y => float (x * y)

instance : Add Number := ⟨add⟩
instance : Sub Number := ⟨sub⟩
instance : Mul Number := ⟨mul⟩

/-! ## Division -/

/-- The quotient, of integers too as a double. -/
def divide (a b : Number) : Except DomainError Number :=
  if b.isZero then .error .divisionByZero
  else
    match pair a b with
    | .integers m n => ofFloat? "/" (Binary64.ofRatio m n)
    | .floats x y => ofFloat? "/" (x / y)

/-- The quotient rounded down. -/
def floorDivide (a b : Number) : Except DomainError Number :=
  if b.isZero then .error .divisionByZero
  else
    match pair a b with
    | .integers m n => .ok (integer (m.fdiv n))
    | .floats x y => ofFloat? ":" (Binary64.floor (x / y))

/-- The remainder of the quotient rounded down; it has the sign of the divisor. -/
def floorModulo (a b : Number) : Except DomainError Number :=
  if b.isZero then .error .divisionByZero
  else
    match pair a b with
    | .integers m n => .ok (integer (m.fmod n))
    | .floats x y => ofFloat? "%" (Binary64.floorRemainder x y)

/-! ## Powers -/

/-- Exponents of exact powers are below this bound. -/
def exponentBound : Int := 2 ^ 32

/-- The power of two integers. -/
def integerPower (base exponent : Int) : Except DomainError Number :=
  if 0 ≤ exponent then
    if exponent < exponentBound then .ok (integer (base ^ exponent.toNat))
    else .error (.overflow "^")
  else if base = 0 then .error .divisionByZero
  else ofFloat? "^" ((Binary64.ofInt base).pow (Binary64.ofInt exponent))

/-- The power of two doubles; a negative base needs an integral exponent. -/
def floatPower (base exponent : Float) : Except DomainError Number :=
  if base == 0.0 && decide (exponent < 0.0) then .error .divisionByZero
  else if decide (base < 0.0) && !Binary64.isIntegral exponent then
    .error (.outOfDomain "^" s!"{(float base).text} ^ {(float exponent).text}")
  else ofFloat? "^" (base.pow exponent)

/-- The power. -/
def power (a b : Number) : Except DomainError Number :=
  match pair a b with
  | .integers base exponent => integerPower base exponent
  | .floats base exponent => floatPower base exponent

/-! ## Rounding and factorials -/

/-- The nearest integer, ties to even. -/
def round : Number → Except DomainError Number
  | integer n => .ok (integer n)
  | float x =>
    match Binary64.value? x with
    | some f => .ok (integer f.roundToEven)
    | none => .error (.overflow "round")

/-- The product of the integers from one to the number. -/
def factorial : Number → Except DomainError Number
  | integer n =>
    if n < 0 then .error (.outOfDomain "factorial" (Decimal.signedNumeral n))
    else .ok (integer ((List.range' 1 n.toNat).foldl (· * ·) 1 : Nat))
  | float x => .error (.nonIntegral "factorial" (textOfFloat x))

end Reckon.Number

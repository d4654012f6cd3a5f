import Reckon.Binary64.Basic

/-!
# Binary64/Integral — integers among and around the doubles

The floor, the nearest integer and the remainder of a division are **exact on binary fractions**, so
they are computed there, on integers, and only the answer becomes a double again.
-/

namespace Reckon.Binary64

namespace Fraction

variable (f : Fraction)

/-- The numerator over `2 ^ scale`. -/
def numerator : Int :=
  let magnitude : Int := f.mantissa * 2 ^ f.exponent.toNat
  if f.negative then -magnitude else magnitude

/-- The power of two below the fraction. -/
def denominator : Nat := 2 ^ (-f.exponent).toNat

/-- The fraction is an integer. -/
def IsIntegral : Prop := f.numerator % f.denominator = 0

instance : Decidable f.IsIntegral := inferInstanceAs (Decidable (_ = _))

/-- The greatest integer at most the fraction. -/
def floor : Int := f.numerator.fdiv f.denominator

/-- The integer nearest to the fraction, ties to even. -/
def roundToEven : Int :=
  let magnitude : Int := divideToEven (f.mantissa * 2 ^ f.exponent.toNat) f.denominator
  if f.negative then -magnitude else magnitude

end Fraction

/-- The double is an integer: neither infinite nor a NaN, and without a fractional part. -/
def isIntegral (x : Float) : Bool :=
  (value? x).any fun f => f.IsIntegral

/-- The greatest integral double at most `x`; an integral `x`, an infinity or a NaN is its own. -/
def floor (x : Float) : Float :=
  match value? x with
  | none => x
  | some f => if f.IsIntegral then x else nearest (decide (f.floor < 0)) f.floor.natAbs 1

/-- What is left of `x` after taking `y` from it as often as its magnitude allows; it has the sign
of `x`. -/
def remainder (x y : Float) : Float :=
  match value? x, value? y with
  | some f, some g =>
    if g.mantissa = 0 then 0.0 / 0.0
    else
      let exponent := min f.exponent g.exponent
      let left := f.mantissa * 2 ^ (f.exponent - exponent).toNat
      let right := g.mantissa * 2 ^ (g.exponent - exponent).toNat
      nearest f.negative (left % right * 2 ^ exponent.toNat) (2 ^ (-exponent).toNat)
  | some _, none => if y.isNaN then y else x
  | none, _ => 0.0 / 0.0

/-- The remainder moved to the sign of `y`: the one that goes with a quotient rounded down. -/
def floorRemainder (x y : Float) : Float :=
  let r := remainder x y
  if r != 0.0 && decide (r < 0.0) != decide (y < 0.0) then r + y else r

end Reckon.Binary64

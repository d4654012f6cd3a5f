import Reckon.Power

/-!
# Binary64/Basic — doubles as exact binary fractions

A finite double is `± mantissa · 2 ^ exponent` (`value?`), and **an exact quotient is rounded once**,
to the nearest double, ties to the even mantissa (`nearest`).
-/

namespace Reckon.Binary64

/-- A number `± mantissa · 2 ^ exponent`. -/
structure Fraction where
  negative : Bool
  mantissa : Nat
  exponent : Int
deriving DecidableEq, Repr

/-- The exact value of a double that is neither infinite nor a NaN. -/
def value? (x : Float) : Option Fraction :=
  let bits := x.toBits.toNat
  let field : Nat := bits / 2 ^ 52 % 2 ^ 11
  let low : Nat := bits % 2 ^ 52
  let negative := decide (2 ^ 63 ≤ bits)
  if field = 2 ^ 11 - 1 then none
  else if field = 0 then some ⟨negative, low, -1074⟩
  else some ⟨negative, 2 ^ 52 + low, (field : Int) - 1075⟩

/-! ## Rounding to the nearest double -/

/-- A quotient rounded to a natural number, ties to even. -/
def divideToEven (num den : Nat) : Nat :=
  let q := num / den
  match compare (2 * (num % den)) den with
  | .lt => q
  | .gt => q + 1
  | .eq => if q % 2 = 0 then q else q + 1

/-- `num / den` in units of `2 ^ exponent`, rounded to a natural number. -/
def inUnits (num den : Nat) (exponent : Int) : Nat :=
  divideToEven (num * 2 ^ (-exponent).toNat) (den * 2 ^ exponent.toNat)

/-- The exponent at which `num / den` has a mantissa of fifty-three bits, or the least exponent of a
double if that is larger. -/
def unitExponent (num den : Nat) : Int :=
  if num = 0 then -1074
  else
    -- the quotient lies between `2 ^ (e - 1)` and `2 ^ (e + 1)`
    let e : Int := num.log2 - den.log2
    let below := num * 2 ^ (-e).toNat < den * 2 ^ e.toNat
    max (-1074) ((if below then e - 1 else e) - 52)

/-- The bits of the double nearest to `num / den`, ties to the even mantissa: a mantissa that rounds
up to `2 ^ 53` carries into the exponent, and what is too large becomes infinite. -/
def nearestBits (num den : Nat) : Nat :=
  let exponent := unitExponent num den
  let mantissa := inUnits num den exponent
  min (2 ^ 52 * (exponent + 1074).toNat + mantissa) (2 ^ 52 * (2 ^ 11 - 1))

/-- The double nearest to `± num / den`. -/
def nearest (negative : Bool) (num den : Nat) : Float :=
  .ofBits (.ofNat ((if negative then 2 ^ 63 else 0) + nearestBits num den))

/-- The double nearest to the quotient of two integers; a zero quotient is positive. -/
def ofRatio (num den : Int) : Float :=
  nearest (decide (num * den < 0)) num.natAbs den.natAbs

end Reckon.Binary64

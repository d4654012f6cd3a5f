import Reckon.Binary64.Basic

/-!
# Binary64/Shortest — the fewest digits that tell a double from its neighbours

The reals that round to a double form an interval, its ends included iff the mantissa is even.  On
the grids of ever more digits the double's two neighbours are tried, and **the first grid with a
neighbour inside the interval wins**; of two inside, the closer one, and of two equally close ones
the larger.  The digits are written out in full, whatever their distance from the point.
-/

namespace Reckon.Binary64

/-- The number `digits · 10 ^ exponent`. -/
structure Decimal where
  digits : Nat
  exponent : Int
deriving DecidableEq, Repr

/-- A positive double and the ends of its interval, as numerators over one denominator. -/
structure Interval where
  value : Nat
  lower : Nat
  upper : Nat
  denominator : Nat
  /-- Whether the ends belong to the interval. -/
  closed : Bool

/-- The reals that round to the fraction.  Below a power of two the doubles are twice as dense, so
there the lower end is nearer. -/
def Fraction.interval (f : Fraction) : Interval :=
  let unit := 2 ^ (f.exponent - 2).toNat
  let narrow := f.mantissa = 2 ^ 52 ∧ -1074 < f.exponent
  { value := 4 * f.mantissa * unit
    lower := (4 * f.mantissa - if narrow then 1 else 2) * unit
    upper := (4 * f.mantissa + 2) * unit
    denominator := 2 ^ (2 - f.exponent).toNat
    closed := f.mantissa % 2 = 0 }

namespace Interval

variable (i : Interval)

/-- Whether `d · 10 ^ exponent` lies in the interval. -/
def contains (d : Nat) (exponent : Int) : Bool :=
  let up := 10 ^ (-exponent).toNat
  let point := d * (i.denominator * 10 ^ exponent.toNat)
  if i.closed then i.lower * up ≤ point && point ≤ i.upper * up
  else i.lower * up < point && point < i.upper * up

/-- The least `k` for which the value is below `10 ^ k`. -/
def scale : Int :=
  if i.denominator ≤ i.value then (Nat.toDigits 10 (i.value / i.denominator)).length
  else 1 - (Nat.toDigits 10 ((i.denominator - 1) / i.value)).length

/-- The neighbour of the value on the grid of `10 ^ exponent` that stands for it, if one does. -/
def onGrid? (exponent : Int) : Option Decimal :=
  let up := 10 ^ (-exponent).toNat
  let cell := i.denominator * 10 ^ exponent.toNat
  let below := i.value * up / cell
  match i.contains below exponent, i.contains (below + 1) exponent with
  | true, true =>
    if 2 * (i.value * up) < (2 * below + 1) * cell then some ⟨below, exponent⟩
    else some ⟨below + 1, exponent⟩
  | true, false => some ⟨below, exponent⟩
  | false, true => some ⟨below + 1, exponent⟩
  | false, false => none

/-- Seventeen digits tell any two doubles apart. -/
def mostDigits : Nat := 17

/-- The first grid that has a stand-in for the value, from one digit to seventeen. -/
def shortest? : Option Decimal :=
  (List.range mostDigits).findSome? fun n : Nat => i.onGrid? (i.scale - (n + 1 : Nat))

end Interval

/-- The exact value of a fraction, as a decimal. -/
def Fraction.toDecimal (f : Fraction) : Decimal :=
  ⟨f.mantissa * 2 ^ f.exponent.toNat * 5 ^ (-f.exponent).toNat, min f.exponent 0⟩

/-- The same number without zeros at the end of its digits. -/
def Decimal.strip (digits : Nat) (exponent : Int) : Decimal :=
  if h : digits ≠ 0 ∧ digits % 10 = 0 then Decimal.strip (digits / 10) (exponent + 1)
  else ⟨digits, exponent⟩
termination_by digits
decreasing_by omega

/-- The fewest digits that round to the magnitude of the fraction. -/
def Fraction.shortest (f : Fraction) : Decimal :=
  if f.mantissa = 0 then ⟨0, 0⟩
  else
    let d := f.interval.shortest?.getD f.toDecimal
    Decimal.strip d.digits d.exponent

/-- A decimal written without an exponent. -/
def Decimal.text (d : Decimal) : String :=
  let digits := Nat.toDigits 10 d.digits
  let places := (-d.exponent).toNat
  let padded := List.replicate (places + 1 - digits.length) '0' ++ digits
  let whole := padded.take (padded.length - places)
  let fractional := padded.drop (padded.length - places)
  String.ofList (whole ++ List.replicate d.exponent.toNat '0') ++
    if places = 0 then "" else "." ++ String.ofList fractional

/-- A double in the fewest digits that read back as it, without an exponent. -/
def text (x : Float) : String :=
  match value? x with
  | some f => (if f.negative then "-" else "") ++ f.shortest.text
  | none => if x.isNaN then "NaN" else if x < 0.0 then "-inf" else "inf"

end Reckon.Binary64

import Reckon.Number.Basic

/-!
# Number/Tolerance — equality up to a bound

Two numbers are taken as doubles and are near each other if their difference is within an absolute
bound, **or within a share of the larger magnitude, or within a count of doubles between them**.
-/

namespace Reckon.Number

/-- The distance from one to the next double. -/
def machineEpsilon : Float := .ofBits 0x3CB0000000000000

/-- How many doubles may lie between two near numbers, if nothing else is said. -/
def defaultUnits : Nat := 4

/-- The difference is within `epsilon`. -/
def withinAbsolute (epsilon : Float) (x y : Float) : Bool := decide ((x - y).abs ≤ epsilon)

/-- The numbers are equal, or finite with a difference within `epsilon` or within the share
`relative` of the larger magnitude. -/
def withinRelative (epsilon relative : Float) (x y : Float) : Bool :=
  if x == y then true
  else if x.isInf || y.isInf then false
  else
    let largest := if x.abs < y.abs then y.abs else x.abs
    withinAbsolute epsilon x y || decide ((x - y).abs ≤ largest * relative)

/-- The sign bit of a double. -/
def signBit (x : Float) : Bool := decide (2 ^ 63 ≤ x.toBits.toNat)

/-- The difference is within `epsilon`, or the signs agree and at most `units` steps lead from one
double to the other. -/
def withinUnits (epsilon : Float) (units : Nat) (x y : Float) : Bool :=
  withinAbsolute epsilon x y ||
    (!x.isNaN && !y.isNaN && signBit x == signBit y &&
      decide ((x.toBits.toNat : Int) - y.toBits.toNat ≤ units) &&
      decide ((y.toBits.toNat : Int) - x.toBits.toNat ≤ units))

/-- The numbers differ by `epsilon` at most. -/
def isNear (epsilon : Float) (a b : Number) : Bool := withinAbsolute epsilon a.toFloat b.toFloat

/-- The numbers differ by `epsilon`, or by the share `relative` of the larger one, at most. -/
def isRelativelyNear (epsilon relative : Float) (a b : Number) : Bool :=
  withinRelative epsilon relative a.toFloat b.toFloat

/-- The numbers differ by `epsilon`, or by `units` steps between doubles, at most. -/
def isNearInUnits (epsilon : Float) (units : Nat) (a b : Number) : Bool :=
  withinUnits epsilon units a.toFloat b.toFloat

end Reckon.Number

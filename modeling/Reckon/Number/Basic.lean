import Reckon.Binary64.Integral
import Reckon.Binary64.Leading
import Reckon.Binary64.Shortest
import Reckon.Decimal.Numeral
import Reckon.Error

/-!
# Number/Basic — exact integers and doubles

A number is an integer of any size or a double.  Two numbers are taken **together as integers if both
are integers, and as doubles otherwise** (`Number.pair`), the integer then becoming a double
(`Binary64.ofInt`).
-/

namespace Reckon

/-- An exact integer, or a double. -/
inductive Number where
  | integer (n : Int)
  | float (x : Float)

namespace Number

/-- The two kinds of number. -/
inductive Kind where
  | integer
  | float
deriving DecidableEq, Ord, Repr

instance : Inhabited Number := ⟨integer 0⟩

/-- The kind of a number. -/
def kind : Number → Kind
  | integer _ => .integer
  | float _ => .float

/-- The exact integer, if the number is one. -/
def integer? : Number → Option Int
  | integer n => some n
  | float _ => none

/-- The number as a double. -/
def toFloat : Number → Float
  | integer n => Binary64.ofInt n
  | float x => x

/-- The number is zero, of either sign. -/
def isZero : Number → Bool
  | integer n => n == 0
  | float x => x == 0.0

/-- The number is less than zero. -/
def isNegative : Number → Bool
  | integer n => decide (n < 0)
  | float x => decide (x < 0.0)

/-- The magnitude of the number. -/
def abs : Number → Number
  | integer n => integer n.natAbs
  | float x => float x.abs

/-- The number with its sign turned. -/
def neg : Number → Number
  | integer n => integer (-n)
  | float x => float (-x)

instance : Neg Number := ⟨neg⟩

/-- Two numbers, taken together. -/
inductive Pair where
  | integers (m n : Int)
  | floats (x y : Float)

/-- Two numbers as integers if both are, and as doubles otherwise. -/
def pair : Number → Number → Pair
  | integer m, integer n => .integers m n
  | a, b => .floats a.toFloat b.toFloat

/-- A double as a number, if it is finite. -/
def ofFloat? (operation : String) (x : Float) : Except DomainError Number :=
  if x.isFinite then .ok (float x) else .error (.overflow operation)

/-- The number itself, unless it is infinite or a NaN. -/
def finite? (operation : String) : Number → Except DomainError Number
  | integer n => .ok (integer n)
  | float x => ofFloat? operation x

/-! ## The text of a number -/

/-- An integral double of magnitude below `2 ^ 64` is written exactly, with one zero after the
point; any other in the fewest digits that read back as it. -/
def textOfFloat (x : Float) : String :=
  match Binary64.value? x with
  | some f =>
    if f.IsIntegral ∧ f.floor.natAbs < 2 ^ 64 then
      (if f.negative then "-" else "") ++ Decimal.numeral f.floor.natAbs ++ ".0"
    else Binary64.text x
  | none => Binary64.text x

/-- The text of a number. -/
def text : Number → String
  | integer n => Decimal.signedNumeral n
  | float x => textOfFloat x

instance : ToString Number := ⟨text⟩

end Number

end Reckon

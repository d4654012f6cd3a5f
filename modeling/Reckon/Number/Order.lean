import Reckon.Number.Basic

/-!
# Number/Order — equality and order by value

Numbers compare as the pair they make: **exactly between integers, as doubles otherwise**.  A NaN is
equal to nothing and in no order with anything.
-/

namespace Reckon.Number

/-- The two numbers have one value. -/
def eqv (a b : Number) : Bool :=
  match pair a b with
  | .integers m n => m == n
  | .floats x y => x == y

instance : BEq Number := ⟨eqv⟩

/-- The two numbers have one value and are of one kind. -/
def strictEqv (a b : Number) : Bool := decide (a.kind = b.kind) && a == b

/-- The first number is less than the second. -/
def lt (a b : Number) : Prop :=
  match pair a b with
  | .integers m n => m < n
  | .floats x y => x < y

instance : LT Number := ⟨lt⟩

instance decidableLt (a b : Number) : Decidable (a < b) :=
  match h : pair a b with
  | .integers m n => decidable_of_iff (m < n) (by simp [LT.lt, lt, h])
  | .floats x y => decidable_of_iff (x < y) (by simp [LT.lt, lt, h])

/-- The order of two numbers, if they are in one. -/
def order? (a b : Number) : Option Ordering :=
  if a < b then some .lt else if b < a then some .gt else if a == b then some .eq else none

end Reckon.Number

import Reckon.Error
import Reckon.Operation.Limiter

/-!
# Operation/Basic — native functions and the limiters that guard them

A native function has **as many operands as its arity, by type**: its body takes a proof that they are
as many.  `Operation.call` checks the number, and `Operation.perform` consults the limiter before it
calls.
-/

namespace Reckon

variable {α : Type}

/-- A function of a fixed number of operands, given from left to right. -/
structure Native (α : Type) where
  arity : Nat
  body : (operands : List α) → operands.length = arity → Except DomainError α

namespace Native

/-- A function of no operand. -/
def nullary (f : Except DomainError α) : Native α := ⟨0, fun _ _ => f⟩

/-- A function of one operand. -/
def unary (f : α → Except DomainError α) : Native α := ⟨1, fun | [x], _ => f x⟩

/-- A function of two operands. -/
def binary (f : α → α → Except DomainError α) : Native α := ⟨2, fun | [x, y], _ => f x y⟩

/-- A function of any fixed number of operands. -/
def nary (arity : Nat) (f : List α → Except DomainError α) : Native α := ⟨arity, fun xs _ => f xs⟩

end Native

/-- A native function together with the limiter that guards it. -/
structure Operation (α : Type) where
  native : Native α
  limiter : Limiter α

namespace Operation

variable (o : Operation α)

/-- How many operands the operation takes. -/
def arity : Nat := o.native.arity

/-- Whether the limiter accepts the operands. -/
def permits (operands : List α) : Bool := o.limiter.permits operands

/-- The result of the native function.  The limiter is not consulted; a number of operands other
than the arity is the caller's mistake. -/
def call (operands : List α) : Except Error α :=
  if h : operands.length = o.arity then (o.native.body operands h).mapError .domain
  else .error (.misuse (.operandCount o.arity operands.length))

/-- The result of the native function, if the limiter accepts the operands. -/
def perform (name : String) (operands : List α) : Except Error α :=
  if o.permits operands then o.call operands
  else .error (.calculationLimit (.operandsRefused name))

/-- **A call with as many operands as the arity is the native function itself.** -/
theorem call_of_length_eq {operands : List α} (h : operands.length = o.arity) :
    o.call operands = (o.native.body operands h).mapError .domain := dif_pos h

end Operation

end Reckon

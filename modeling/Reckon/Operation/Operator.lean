import Reckon.Catalogue
import Reckon.Operation.Basic

/-!
# Operation/Operator — operations written as a single glyph

An operator stands before its one operand or between its two; **its operation has the arity of its
place** (`Operator.arity_eq`).  The same glyph may stand for an operator of each place.
-/

namespace Reckon

/-- Where an operator stands. -/
inductive Fixity where
  /-- Before its single operand. -/
  | prefixOp
  /-- Between two operands. -/
  | infixOp
deriving DecidableEq, Repr

namespace Fixity

/-- The number of operands of an operator in that place. -/
def arity : Fixity → Nat
  | prefixOp => 1
  | infixOp => 2

/-- The word for a place. -/
def name : Fixity → String
  | prefixOp => "prefix"
  | infixOp => "infix"

end Fixity

/-- How a chain of operators of one precedence groups. -/
inductive Associativity where
  | left
  | right
  /-- The grouping does not matter; such a chain is grouped to the left. -/
  | full
deriving DecidableEq, Repr, Inhabited

namespace Associativity

/-- A chain may be grouped to the left. -/
def groupsLeft : Associativity → Bool
  | left | full => true
  | right => false

/-- A chain may be grouped to the right. -/
def groupsRight : Associativity → Bool
  | right | full => true
  | left => false

/-- A chain may be grouped either way. -/
def groupsEitherWay (a : Associativity) : Bool := a.groupsLeft && a.groupsRight

end Associativity

/-- A glyph with a place, a precedence (the higher, the tighter it binds), a grouping, and an
operation of the arity that its place asks for. -/
structure Operator (α : Type) where
  symbol : Char
  fixity : Fixity
  associativity : Associativity
  precedence : Nat
  operation : Operation α
  arity_eq : operation.arity = fixity.arity

namespace Operator

variable {α : Type}

/-- Whether the operator stands before its operand. -/
def isPrefixOp (op : Operator α) : Bool := op.fixity = .prefixOp

/-- The operator with a given operation, if that has the arity its place asks for. -/
def of? (symbol : Char) (fixity : Fixity) (associativity : Associativity) (precedence : Nat)
    (operation : Operation α) : Except Misuse (Operator α) :=
  if h : operation.arity = fixity.arity then
    .ok ⟨symbol, fixity, associativity, precedence, operation, h⟩
  else .error (.operatorArity fixity.arity operation.arity)

/-- An operator before its operand.  No operator directly follows one, so it is grouped to the left
without anything depending on it. -/
def prefixOp? (symbol : Char) (precedence : Nat) (operation : Operation α) :
    Except Misuse (Operator α) :=
  of? symbol .prefixOp .left precedence operation

/-- An operator between its operands. -/
def infixOp? (symbol : Char) (associativity : Associativity) (precedence : Nat)
    (operation : Operation α) : Except Misuse (Operator α) :=
  of? symbol .infixOp associativity precedence operation

/-- The operator with a function of one operand. -/
def prefixOf (symbol : Char) (precedence : Nat) (f : α → Except DomainError α)
    (limiter : Limiter α) : Operator α :=
  ⟨symbol, .prefixOp, .left, precedence, ⟨.unary f, limiter⟩, rfl⟩

/-- The operator with a function of two operands. -/
def infixOf (symbol : Char) (associativity : Associativity) (precedence : Nat)
    (f : α → α → Except DomainError α) (limiter : Limiter α) : Operator α :=
  ⟨symbol, .infixOp, associativity, precedence, ⟨.binary f, limiter⟩, rfl⟩

/-- The glyph as a text. -/
def text (op : Operator α) : String := op.symbol.toString

end Operator

/-- Operators by their glyph. -/
abbrev OperatorTable (α : Type) := Catalogue (Operator.symbol (α := α))

end Reckon

import Reckon.Calculator.Arithmetic
import Reckon.Calculator.Logic
import Reckon.Proofs.Expression.HeldBack
import Reckon.Proofs.Grammar.Marks

/-!
# Proofs/Calculator/Glyphs — what the glyphs of the two languages stand for

Each glyph is found in its grammar with the operator that it was declared with
(`Arithmetic.Sign.known`, `Arithmetic.Connective.known`, `Logic.negation_known`,
`Logic.Connective.known`), and **both grammars tell their marks apart** (`Arithmetic.marksApart`,
`Logic.marksApart`).
-/

namespace Reckon

/-! ## The language of numbers -/

namespace Arithmetic

/-- The limiter of operations without one of their own. -/
def operandLimiter (limits : Limits) : Limiter Number := magnitudeLimiter none limits.operandLimit

/-- The limiter of powers. -/
def powerLimiter (limits : Limits) : Limiter Number :=
  magnitudeLimiter limits.powerUnionLimit limits.powerEachLimit

/-- The operators before an operand. -/
inductive Sign where
  | minus
  | plus
deriving DecidableEq, Repr

namespace Sign

/-- The glyph of a sign. -/
def glyph : Sign → Char
  | minus => '-'
  | plus => '+'

/-- What a sign makes of a number. -/
def onNumber : Sign → Number → Except DomainError Number
  | minus, a => .ok (-a)
  | plus, a => .ok a

/-- The operator of a sign. -/
def operator (limits : Limits) (s : Sign) : Operator Number :=
  .prefixOf s.glyph 5 s.onNumber (operandLimiter limits)

theorem known (limits : Limits) (s : Sign) :
    (grammar limits).prefixOperators.get? s.glyph = some (s.operator limits) := by
  rw [grammar, Grammar.prefixOperators_ofDeclarations]
  cases s <;> rfl

end Sign

/-- The operators between operands that do not leave the integers, apart from some powers. -/
inductive Connective where
  | sum
  | difference
  | product
  | floorQuotient
  | remainder
  | power
deriving DecidableEq, Repr

namespace Connective

/-- The glyph of a connective. -/
def glyph : Connective → Char
  | sum => '+'
  | difference => '-'
  | product => '*'
  | floorQuotient => ':'
  | remainder => '%'
  | power => '^'

/-- How a chain of a connective groups. -/
def associativity : Connective → Associativity
  | sum | difference | product | floorQuotient | remainder => .left
  | power => .right

/-- How tightly a connective binds. -/
def precedence : Connective → Nat
  | sum | difference => 1
  | product | floorQuotient | remainder => 2
  | power => 10

/-- What a connective makes of two numbers. -/
def onNumbers : Connective → Number → Number → Except DomainError Number
  | sum, a, b => (a + b).finite? "+"
  | difference, a, b => (a - b).finite? "-"
  | product, a, b => (a * b).finite? "*"
  | floorQuotient, a, b => a.floorDivide b
  | remainder, a, b => a.floorModulo b
  | power, a, b => a.power b

/-- The limiter of a connective. -/
def limiter (limits : Limits) : Connective → Limiter Number
  | power => powerLimiter limits
  | _ => operandLimiter limits

/-- The operator of a connective. -/
def operator (limits : Limits) (k : Connective) : Operator Number :=
  .infixOf k.glyph k.associativity k.precedence k.onNumbers (k.limiter limits)

theorem known (limits : Limits) (k : Connective) :
    (grammar limits).infixOperators.get? k.glyph = some (k.operator limits) := by
  rw [grammar, Grammar.infixOperators_ofDeclarations]
  cases k <;> rfl

end Connective

variable (limits : Limits)

theorem isWhitespace_iff {c : Char} :
    (grammar limits).isWhitespace c = true ↔ c = ' ' ∨ c = '\t' ∨ c = '\n' := by
  have hspace : (grammar limits).whitespace = [' ', '\t', '\n'] := rfl
  simp [Grammar.isWhitespace, hspace]

/-- **The marks of the language of numbers are told apart.** -/
theorem marksApart : (grammar limits).MarksApart :=
  .of_lists ['+', '-', '*', '/', ':', '%', '-', '+', '^'] (fun _ hc => Grammar.mem_glyphs hc)
    rfl rfl rfl rfl

end Arithmetic

/-! ## The language of propositions -/

namespace Logic

/-- The operator `~`. -/
def negation : Operator Bool := .prefixOf '~' 20 (fun a => .ok !a) .unbounded

/-- The operators between operands. -/
inductive Connective where
  | and
  | or
  | xor
  | implies
  | iff
deriving DecidableEq, Repr

namespace Connective

/-- The glyph of a connective. -/
def glyph : Connective → Char
  | and => '&'
  | or => '|'
  | xor => '^'
  | implies => '>'
  | iff => '='

/-- How tightly a connective binds. -/
def precedence : Connective → Nat
  | and => 10
  | or | xor => 5
  | implies => 2
  | iff => 1

/-- The truth function of a connective. -/
def holds : Connective → Bool → Bool → Bool
  | and, a, b => a && b
  | or, a, b => a || b
  | xor, a, b => a != b
  | implies, a, b => !a || b
  | iff, a, b => a == b

/-- The operator of a connective. -/
def operator (k : Connective) : Operator Bool :=
  .infixOf k.glyph .left k.precedence (fun a b => .ok (k.holds a b)) .unbounded

theorem known (k : Connective) : grammar.infixOperators.get? k.glyph = some k.operator := by
  rw [grammar, Grammar.infixOperators_ofDeclarations]
  cases k <;> rfl

end Connective

theorem negation_known : grammar.prefixOperators.get? '~' = some negation := by
  rw [grammar, Grammar.prefixOperators_ofDeclarations]
  rfl

theorem isWhitespace_iff {c : Char} :
    grammar.isWhitespace c = true ↔ c = ' ' ∨ c = '\t' ∨ c = '\n' := by
  have hspace : grammar.whitespace = [' ', '\t', '\n'] := rfl
  simp [Grammar.isWhitespace, hspace]

/-- **The marks of the language of propositions are told apart.** -/
theorem marksApart : grammar.MarksApart :=
  .of_lists ['~', '&', '|', '^', '>', '='] (fun _ hc => Grammar.mem_glyphs hc) rfl rfl rfl rfl

end Logic

end Reckon

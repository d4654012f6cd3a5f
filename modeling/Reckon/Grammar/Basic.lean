import Reckon.Operation.Named
import Reckon.Operation.Operator

/-!
# Grammar/Basic — one expression language

A grammar says which glyphs are operators and which names are functions, which names have values from
the start, which characters separate and group, and what value a numeric lexeme stands for.
**Each of the two operator tables holds operators of one place alone** (`Grammar.prefix_fixity`,
`Grammar.infix_fixity`); one glyph may stand in both.
-/

namespace Reckon

/-- The description of an expression language over values of type `α`. -/
structure Grammar (α : Type) where
  prefixOperators : OperatorTable α
  infixOperators : OperatorTable α
  functions : FunctionTable α
  /-- Whether names without a default value may stand for values given later. -/
  freeVariables : Bool
  /-- The values that names have unless they are given others. -/
  defaults : Bindings α
  whitespace : List Char
  separator : Char
  openBrace : Char
  closeBrace : Char
  /-- The value of a numeric lexeme. -/
  convert : String → Except ConversionError α
  prefix_fixity : ∀ c op, prefixOperators.get? c = some op → op.fixity = .prefixOp
  infix_fixity : ∀ c op, infixOperators.get? c = some op → op.fixity = .infixOp

namespace Grammar

variable {α : Type} (g : Grammar α)

/-- Whether the character separates tokens and is none. -/
def isWhitespace (c : Char) : Bool := g.whitespace.contains c

/-- Whether a name that is no function may be a variable. -/
def admitsVariable (name : String) : Bool := g.freeVariables || g.defaults.contains name

/-- The grammar in which nothing is declared: blanks, tabs and newlines are white space, a comma
separates, parentheses group, and no variable is free. -/
def blank (convert : String → Except ConversionError α) : Grammar α where
  prefixOperators := .empty
  infixOperators := .empty
  functions := .empty
  freeVariables := false
  defaults := ∅
  whitespace := [' ', '\t', '\n']
  separator := ','
  openBrace := '('
  closeBrace := ')'
  convert := convert
  prefix_fixity := by simp
  infix_fixity := by simp

end Grammar

end Reckon

import Reckon.Operation.Named
import Reckon.Operation.Operator
import Reckon.Token.Span

/-!
# Token/Basic — the words of an expression
-/

namespace Reckon

namespace Token

/-- What a token stands for. -/
inductive Content (α : Type) where
  | number (value : α)
  | variable (name : String)
  | operator (op : Operator α)
  | function (f : NamedFunction α)
  | openBrace (c : Char)
  | closeBrace (c : Char)
  | separator (c : Char)

/-- What a token stands for, as a text. -/
def Content.text {α : Type} [ToString α] : Content α → String
  | .number value => toString value
  | .variable name => name
  | .operator op => op.text
  | .function f => f.name
  | .openBrace c | .closeBrace c | .separator c => c.toString

end Token

/-- What stands in a stretch of text. -/
structure Token (α : Type) where
  content : Token.Content α
  span : Span

end Reckon

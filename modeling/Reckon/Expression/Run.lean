import Reckon.Expression.Lexing
import Reckon.Expression.Postorder
import Reckon.Expression.Value

/-!
# Expression/Run — from a text to its value
-/

namespace Reckon.Grammar

variable {α : Type} (g : Grammar α)

/-- The expression that a text is, with operators and functions behind their operands. -/
def parse (text : String) : Except Error (Expression g) := g.tokenize text >>= Expression.shunt

/-- The value of a text in which the variables have the given values. -/
def parseAndRun (text : String) (bindings : Bindings α) : Except Error α :=
  g.parse text >>= (·.evaluate bindings)

end Reckon.Grammar

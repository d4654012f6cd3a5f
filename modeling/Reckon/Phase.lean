/-!
# Phase — the order an expression's tokens stand in
-/

namespace Reckon

/-- The order an expression's tokens stand in. -/
inductive Phase where
  /-- The order they were written in, operators between their operands. -/
  | written
  /-- Operators and functions after their operands. -/
  | operandsFirst
deriving DecidableEq, Repr

/-- The word for a phase. -/
def Phase.name : Phase → String
  | .written => "parsed"
  | .operandsFirst => "postfix"

end Reckon

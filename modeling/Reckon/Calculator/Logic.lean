import Reckon.Calculator.TruthTable
import Reckon.Decimal.Integer
import Reckon.Grammar.Declaration
import Reckon.Limits.Basic

/-!
# Calculator/Logic — the language of propositions

The connectives, from the tightest: `~` (not) before an operand; `&` (and); `|` (or) and `^` (either
or) alike; `>` (implies); `=` (equivalent).  All group to the left.  Every name is a variable, and a
constant is an integer that is zero or one.
-/

namespace Reckon

namespace Logic

/-- The truth value of a numeric lexeme. -/
def convert (lexeme : String) : Except ConversionError Bool :=
  match Decimal.unsigned 32 lexeme.toList with
  | .ok 0 => .ok false
  | .ok 1 => .ok true
  | _ => .error ⟨"Constant must be a logic value: 1 (true) or 0 (false)"⟩

/-- The declarations of the language of propositions. -/
def declarations : List (Declaration Bool) :=
  [.prefixOp '~' 20 (fun a => .ok !a) none,
   .infixOp '&' .left 10 (fun a b => .ok (a && b)) none,
   .infixOp '|' .left 5 (fun a b => .ok (a || b)) none,
   .infixOp '^' .left 5 (fun a b => .ok (a != b)) none,
   .infixOp '>' .left 2 (fun a b => .ok (!a || b)) none,
   .infixOp '=' .left 1 (fun a b => .ok (a == b)) none,
   .freeVariables true]

/-- The language of propositions. -/
def grammar : Grammar Bool := .ofDeclarations convert declarations

/-- The truth table of a line. -/
def tabulate (limits : Limits) (line : String) : Except Error TruthTable := do
  limits.checkLine line
  TruthTable.ofText grammar limits.maxVariables line

end Logic

end Reckon

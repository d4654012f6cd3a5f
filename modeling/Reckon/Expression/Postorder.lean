import Reckon.Error
import Reckon.Expression.Basic

/-!
# Expression/Postorder — operators and functions moved behind their operands

The tokens are read once, from left to right.  Operands are given out at once; operators, functions
and open braces are held back on a stack, **an operator until one that binds no tighter follows, a
function until any operator follows**, and both until the end of their group.  What comes out is the
order of the tokens by their index, without braces and separators (`postorder`).
-/

namespace Reckon

variable {α : Type}

/-- Whether an operator that is held back is given out before `next` is held back on top of it: the
one that binds tighter goes first, though nothing goes before an operator that has its operand still
to come, and of two that bind alike the first one goes first where chains group to the left. -/
def Operator.goesBefore (held next : Operator α) : Bool :=
  (decide (next.precedence < held.precedence) && !next.isPrefixOp) ||
    (held.precedence == next.precedence && next.associativity.groupsLeft)

/-- A token that is held back. -/
inductive Held (α : Type) where
  | operator (index : Nat) (op : Operator α)
  | function (index : Nat)
  /-- A brace that starts at the given place of the text. -/
  | openBrace (start : Nat)

namespace Held

/-- Whether the token is not a brace. -/
def isCall : Held α → Bool
  | operator .. | function _ => true
  | openBrace _ => false

/-- Whether the token is given out before `next` is held back on top of it. -/
def goesBefore (next : Operator α) : Held α → Bool
  | operator _ held => held.goesBefore next
  | function _ => true
  | openBrace _ => false

/-- The index of an operator or function. -/
def index? : Held α → Option Nat
  | operator i _ | function i => some i
  | openBrace _ => none

/-- The tokens held back within the innermost open group, and the stack from its brace on, if there
is an open group. -/
def closeGroup? (stack : List (Held α)) : Option (List (Held α) × List (Held α)) :=
  match stack.dropWhile isCall with
  | [] => none
  | brace :: rest => some (stack.takeWhile isCall, brace :: rest)

/-- All that is held back at the end, unless a group is still open. -/
def giveOutAll : List (Held α) → Except Error (List Nat)
  | [] => .ok []
  | operator i _ :: rest | function i :: rest => (giveOutAll rest).map (i :: ·)
  | openBrace start :: _ => .error (.invalidSyntax .missingCloseBrace (some start))

end Held

/-- The order of the tokens that are still to be read, each with its index, when those on the stack
are held back. -/
def postorderFrom (stack : List (Held α)) : List (Token α × Nat) → Except Error (List Nat)
  | [] => Held.giveOutAll stack
  | (t, index) :: ts =>
    match t.content with
    | .number _ | .variable _ => (postorderFrom stack ts).map (index :: ·)
    | .function _ => postorderFrom (.function index :: stack) ts
    | .openBrace _ => postorderFrom (.openBrace t.span.start :: stack) ts
    | .operator op =>
      let given := stack.takeWhile (·.goesBefore op)
      let kept := stack.dropWhile (·.goesBefore op)
      (postorderFrom (.operator index op :: kept) ts).map (given.filterMap Held.index? ++ ·)
    | .separator _ =>
      match Held.closeGroup? stack with
      | none => .error (.invalidSyntax .missingOpenBraceOrSeparator (some t.span.start))
      | some (given, kept) => (postorderFrom kept ts).map (given.filterMap Held.index? ++ ·)
    | .closeBrace _ =>
      match Held.closeGroup? stack with
      | none => .error (.invalidSyntax .missingOpenBrace (some t.span.start))
      | some (given, kept) => (postorderFrom kept.tail ts).map (given.filterMap Held.index? ++ ·)

/-- The indices of the tokens with operators and functions behind their operands. -/
def postorder (ts : List (Token α)) : Except Error (List Nat) := postorderFrom [] ts.zipIdx

/-- The tokens at the given indices. -/
def Token.select (ts : List (Token α)) (order : List Nat) : List (Token α) :=
  let slots := ts.toArray
  order.filterMap (slots[·]?)

namespace Expression

variable {g : Grammar α}

/-- The expression with operators and functions behind their operands; one in that order already is
refused. -/
def shunt (e : Expression g) : Except Error (Expression g) :=
  match e.phase with
  | .operandsFirst => .error (.phase .written .operandsFirst)
  | .written =>
    (postorder e.tokens).map fun order =>
      { e with tokens := Token.select e.tokens order, phase := .operandsFirst }

end Expression

end Reckon

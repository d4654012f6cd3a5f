import Reckon.Error
import Reckon.Expression.Basic

/-!
# Expression/Value — the value of an expression

An expression with operators behind their operands is run on a stack of values: an operand is put on
it, and **an operation replaces as many values as its arity by its result**.  One value must be left.
A variable has the value it is given, or else the one it has by default.
-/

namespace Reckon

variable {α : Type}

/-- The stack, its top first, after an operation has been performed on the values on top of it. -/
def Operation.performOn (o : Operation α) (name : String) (stack : List α) :
    Except Error (List α) :=
  if stack.length < o.arity then .error (.invalidArguments name o.arity stack.length)
  else (o.perform name (stack.take o.arity).reverse).map (· :: stack.drop o.arity)

/-- The stack after one token. -/
def Token.runOn (value? : String → Option α) (stack : List α) (t : Token α) :
    Except Error (List α) :=
  match t.content with
  | .number value => .ok (value :: stack)
  | .variable name =>
    match value? name with
    | some value => .ok (value :: stack)
    | none => .error (.invalidName name (some t.span.start))
  | .operator op => op.operation.performOn op.text stack
  | .function f => f.operation.performOn f.name stack
  | .openBrace c | .closeBrace c | .separator c =>
    .error (.invalidSyntax (.unexpectedInPostfix c) (some t.span.start))

/-- The stack after a list of tokens. -/
def runOn (value? : String → Option α) (stack : List α) (ts : List (Token α)) :
    Except Error (List α) :=
  ts.foldlM (Token.runOn value?) stack

/-- The value that is alone on a stack. -/
def onlyValue : List α → Except Error α
  | [value] => .ok value
  | _ => .error (.invalidSyntax .valuesLeftOver none)

/-- The value of a name: the one it is given, or else the one it has by default. -/
def Grammar.valueOf? (g : Grammar α) (bindings : Bindings α) (name : String) : Option α :=
  bindings[name]? <|> g.defaults[name]?

namespace Expression

variable {g : Grammar α}

/-- The value of an expression in which the variables have the given values. -/
def evaluate (e : Expression g) (bindings : Bindings α) : Except Error α :=
  match e.phase with
  | .written => .error (.phase .operandsFirst .written)
  | .operandsFirst => runOn (g.valueOf? bindings) [] e.tokens >>= onlyValue

end Expression

end Reckon

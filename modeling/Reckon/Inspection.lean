import Reckon.Expression.Basic
import Reckon.Text.Quoted

/-!
# Inspection — values written out with their structure

For whoever looks into the library: a record is its name and its fields, with two points where some
are left out; characters and texts stand between quotes, and a function is only said to be there.
-/

namespace Reckon.Inspection

variable {α : Type}

/-! ## The form -/

/-- A text between braces. -/
def braced (inner : String) : String := "\x7b" ++ inner ++ "\x7d"

/-- Texts with a comma between each two. -/
def listed (items : List String) : String := ", ".intercalate items

/-- A set of texts. -/
def set (items : List String) : String := braced (listed items)

/-- The fields of a record, each a name and a value. -/
def fields (items : List (String × String)) : List String := items.map fun (k, v) => s!"{k}: {v}"

/-- A record of which all fields are shown. -/
def closed (name : String) (items : List (String × String)) : String :=
  name ++ " " ++ braced (" " ++ listed (fields items) ++ " ")

/-- A record of which some fields are left out. -/
def opened (name : String) (items : List (String × String)) : String :=
  name ++ " " ++ braced (" " ++ listed (fields items ++ [".."]) ++ " ")

/-- A value under a name. -/
def labelled (name value : String) : String := s!"{name}({value})"

/-- Stands for a function. -/
def hidden : String := "..."

/-! ## Operations -/

/-- A limiter. -/
def limiter (_ : Limiter α) : String := "Limiter " ++ braced " ... "

/-- A native function. -/
def native (n : Native α) : String := closed "Native" [("arity", toString n.arity), ("body", hidden)]

/-- An operation. -/
def operation (o : Operation α) : String :=
  closed "Operation"
    [("arity", toString o.arity), ("limiter", limiter o.limiter), ("body", hidden)]

/-- The place of an operator. -/
def fixity : Fixity → String
  | .prefixOp => "Prefix"
  | .infixOp => "Infix"

/-- The grouping of an operator. -/
def associativity (a : Associativity) : String :=
  closed "Associativity"
    [("left_assoc", toString a.groupsLeft), ("right_assoc", toString a.groupsRight)]

/-- An operator. -/
def operator (op : Operator α) : String :=
  opened "Operator"
    [("symbol", Text.quoteChar op.symbol), ("fixity", fixity op.fixity),
     ("assoc", associativity op.associativity),
     ("prec", labelled "Precedence" (toString op.precedence))]

/-- A named function. -/
def function (f : NamedFunction α) : String :=
  closed "Function"
    [("name", Text.quoteText f.name), ("arity", toString f.arity), ("body", hidden)]

/-! ## Grammars -/

/-- The glyphs of a table of operators. -/
def operatorTable (t : OperatorTable α) : String := set (t.keys.map Text.quoteChar)

/-- The names of a table of functions. -/
def functionTable (t : FunctionTable α) : String := set (t.keys.map Text.quoteText)

/-- A grammar. -/
def grammar (g : Grammar α) : String :=
  opened "Grammar"
    [("unary_operators", operatorTable g.prefixOperators),
     ("binary_operators", operatorTable g.infixOperators),
     ("functions", functionTable g.functions),
     ("allow_free_variables", toString g.freeVariables),
     ("default_variables", "[" ++ listed (g.defaults.keys.map Text.quoteText) ++ "]"),
     ("arg_separator", Text.quoteChar g.separator),
     ("braces", s!"({Text.quoteChar g.openBrace}, {Text.quoteChar g.closeBrace})")]

/-! ## Expressions -/

/-- A place in a text. -/
def place (n : Nat) : String := labelled "SourceOffset" (toString n)

/-- A span. -/
def span (s : Span) : String := closed "Span" [("start", place s.start), ("end", place s.stop)]

variable [ToString α]

/-- What a token stands for. -/
def content : Token.Content α → String
  | .number value => labelled "Number" (toString value)
  | .variable name => labelled "Variable" (Text.quoteText name)
  | .operator op => labelled "Operator" (operator op)
  | .function f => labelled "Function" (function f)
  | .openBrace c => labelled "OpenBrace" (Text.quoteChar c)
  | .closeBrace c => labelled "CloseBrace" (Text.quoteChar c)
  | .separator c => labelled "ArgSeparator" (Text.quoteChar c)

/-- A token. -/
def token (t : Token α) : String := closed "Token" [("data", content t.content), ("span", span t.span)]

/-- The phase of an expression. -/
def phase : Phase → String
  | .written => "Parsed"
  | .operandsFirst => "Postfix"

/-- An expression. -/
def expression {g : Grammar α} (e : Expression g) : String :=
  opened "Expression"
    [("tokens", "[" ++ listed (e.tokens.map token) ++ "]"), ("phase", phase e.phase),
     ("variables", set (e.variableNames.map Text.quoteText))]

end Reckon.Inspection

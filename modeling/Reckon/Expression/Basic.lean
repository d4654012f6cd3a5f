import Std.Data.TreeSet
import Reckon.Grammar.Basic
import Reckon.Phase
import Reckon.Token.Basic

/-!
# Expression/Basic — the tokens of one text

An expression of a grammar holds tokens in the order of its phase, and **the names of the variables
among them**, which are noted once, when the text has been read.
-/

namespace Reckon

variable {α : Type}

/-- The name of the variable that a token stands for, if it is one. -/
def Token.variableName? (t : Token α) : Option String :=
  match t.content with
  | .variable name => some name
  | _ => none

/-- Tokens read by a grammar, with the names of the variables among them. -/
structure Expression (g : Grammar α) where
  tokens : List (Token α)
  phase : Phase
  /-- The names of the variables among the tokens. -/
  names : Std.TreeSet String

namespace Expression

variable {g : Grammar α}

/-- The expression of tokens in the order they were written in. -/
def ofTokens (ts : List (Token α)) : Expression g where
  tokens := ts
  phase := .written
  names := .ofList (ts.filterMap (·.variableName?))

/-- The names of the variables in ascending order. -/
def variableNames (e : Expression g) : List String := e.names.toList

/-- The number of tokens. -/
def size (e : Expression g) : Nat := e.tokens.length

/-- Whether there is no token. -/
def isEmpty (e : Expression g) : Bool := e.tokens.isEmpty

/-- The tokens in their order, with a space between each two. -/
def text [ToString α] (e : Expression g) : String :=
  " ".intercalate (e.tokens.map (·.content.text))

end Expression

end Reckon

import Reckon.Expression.Basic
import Reckon.Token.Cursor

/-!
# Expression/Lexing — the tokens that a text is made of

A text is read from left to right, one token after another, with white space between them.  What a
glyph stands for depends on **the token before it alone** (`Expectation.after`): where an operand may
start it is an operator before its operand, right after an operand it is one between two operands,
and right after an operator before its operand it is none.
-/

namespace Reckon

variable {α : Type}

/-- What may stand at some place of a text. -/
inductive Expectation where
  /-- An operand, or an operator before one. -/
  | operand
  /-- An operator after the operand that has just ended. -/
  | operator
  /-- An operand alone, since an operator before it has just been read. -/
  | bareOperand
deriving DecidableEq, Repr

/-- What may stand after a token. -/
def Expectation.after : Token.Content α → Expectation
  | .number _ | .variable _ | .closeBrace _ => .operator
  | .operator op =>
    match op.fixity with
    | .prefixOp => .bareOperand
    | .infixOp => .operand
  | .function _ | .openBrace _ | .separator _ => .operand

namespace Grammar

variable (g : Grammar α)

/-- The operator that a glyph stands for. -/
def operatorAt? (expected : Expectation) (c : Char) : Option (Operator α) :=
  match expected with
  | .operand => g.prefixOperators.get? c
  | .operator => g.infixOperators.get? c
  | .bareOperand => none

/-- What a name at a place of the text stands for: a function before all else. -/
def contentOfName (offset : Nat) (name : String) : Except Error (Token.Content α) :=
  match g.functions.get? name with
  | some f => .ok (.function f)
  | none =>
    if g.admitsVariable name then .ok (.variable name) else .error (.invalidName name (some offset))

/-- What a numeral at a place of the text stands for. -/
def contentOfNumeral (offset : Nat) (numeral : String) : Except Error (Token.Content α) :=
  match g.convert numeral with
  | .ok value => .ok (.number value)
  | .error cause => .error (.conversion numeral offset cause)

/-- What a character stands for that is no operator and begins neither a name nor a numeral. -/
def contentOfMark (offset : Nat) (c : Char) : Except Error (Token.Content α) :=
  if c = g.separator then .ok (.separator c)
  else if c = g.openBrace then .ok (.openBrace c)
  else if c = g.closeBrace then .ok (.closeBrace c)
  else .error (.invalidSyntax (.invalidCharacter c) (some offset))

/-- What the token stands for that begins with `c`, and how many characters of `cs` belong to it. -/
def contentAt (expected : Expectation) (offset : Nat) (c : Char) (cs : List Char) :
    Except Error (Token.Content α × Nat) :=
  match g.operatorAt? expected c with
  | some op => .ok (.operator op, 0)
  | none =>
    if Token.isNameStart c then
      let more := cs.takeWhile Token.isNamePart
      (g.contentOfName offset (String.ofList (c :: more))).map (·, more.length)
    else if Token.isNumeralStart c then
      let more := cs.takeWhile Token.isNumeralPart
      (g.contentOfNumeral offset (String.ofList (c :: more))).map (·, more.length)
    else (g.contentOfMark offset c).map (·, 0)

/-- The tokens from the cursor to the end of the text, or the first fault there. -/
def tokensFrom (expected : Expectation) : Cursor → Except Error (List (Token α))
  | ⟨[], _⟩ => .ok []
  | ⟨c :: cs, offset⟩ =>
    if g.isWhitespace c then tokensFrom expected ⟨cs, offset + 1⟩
    else
      match g.contentAt expected offset c cs with
      | .error e => .error e
      | .ok (content, more) =>
        (tokensFrom (.after content) (Cursor.take ⟨c :: cs, offset⟩ (more + 1)).2).map
          (⟨content, (Cursor.take ⟨c :: cs, offset⟩ (more + 1)).1.span⟩ :: ·)
termination_by k => k.rest.length
decreasing_by all_goals (simp only [Cursor.take, List.length_drop, List.length_cons]; omega)

/-- The tokens of a text, which must not be empty. -/
def tokens (text : String) : Except Error (List (Token α)) :=
  if text.isEmpty then .error (.invalidSyntax .emptyText none)
  else g.tokensFrom .operand (.ofText text)

/-- The expression that a text is, in the order it is written in. -/
def tokenize (text : String) : Except Error (Expression g) :=
  (g.tokens text).map .ofTokens

end Grammar

end Reckon

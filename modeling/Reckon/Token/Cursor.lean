import Reckon.Error
import Reckon.Token.Lexeme
import Reckon.Token.Span

/-!
# Token/Cursor — a place in a text that moves forward

A cursor holds what is still to be read and how many characters have been.  It reads one character,
or what a pattern finds; **what it reads begins where the cursor stands**, and a read that fails
leaves it there.
-/

namespace Reckon

/-- A place in a text. -/
structure Cursor where
  /-- What is still to be read. -/
  rest : List Char
  /-- How many characters have been read. -/
  offset : Nat
deriving DecidableEq, Repr

/-- Where in a text a pattern has been found. -/
structure Found where
  /-- The characters before it. -/
  skipped : Nat
  /-- The characters of it. -/
  length : Nat
deriving DecidableEq, Repr

/-- What finds its first occurrence in a text. -/
abbrev Pattern := List Char → Option Found

namespace Pattern

/-- What a reader takes from the start of a text. -/
def ofReader (reader : List Char → Option (List Char)) : Pattern := fun cs =>
  (reader cs).map fun taken => ⟨0, taken.length⟩

/-- A name at the start of a text. -/
def name : Pattern := ofReader Token.name?

/-- A numeral at the start of a text. -/
def numeral : Pattern := ofReader Token.numeral?

/-- Nothing, at the start of a text. -/
def nothing : Pattern := fun _ => some ⟨0, 0⟩

/-- All of a text that is not empty. -/
def everything : Pattern := fun cs => if cs.isEmpty then none else some ⟨0, cs.length⟩

/-- The first occurrence of a character, anywhere in a text. -/
def anywhere (c : Char) : Pattern := fun cs => (cs.idxOf? c).map fun skipped => ⟨skipped, 1⟩

end Pattern

/-- A part of a text and where it stands. -/
structure Excerpt where
  text : List Char
  span : Span
deriving DecidableEq, Repr

namespace Cursor

/-- The cursor at the start of a text. -/
def ofText (text : String) : Cursor := ⟨text.toList, 0⟩

variable (k : Cursor)

/-- Whether everything has been read. -/
def atEnd : Bool := k.rest.isEmpty

/-- The next character, which stays to be read. -/
def peek? : Option Char := k.rest.head?

/-- The next `n` characters, or all if there are fewer, and the cursor behind them. -/
def take (n : Nat) : Excerpt × Cursor :=
  let text := k.rest.take n
  let stop := k.offset + text.length
  (⟨text, ⟨k.offset, stop⟩⟩, ⟨k.rest.drop n, stop⟩)

/-- The next character with its span, and the cursor behind it. -/
def readChar? : Option ((Char × Span) × Cursor) :=
  k.peek?.map fun c =>
    let (excerpt, next) := k.take 1
    ((c, excerpt.span), next)

/-- What the pattern finds at the cursor, and the cursor behind it.  The pattern must not look for
anything further on: a match that begins beyond the cursor is the caller's mistake. -/
def read (pattern : Pattern) : Except Misuse (Option (Excerpt × Cursor)) :=
  match pattern k.rest with
  | none => .ok none
  | some found =>
    if found.skipped = 0 then .ok (some (k.take found.length))
    else .error (.matchBeyondCursor found.skipped)

end Cursor

end Reckon

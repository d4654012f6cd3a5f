import Reckon.Binary64.Reading
import Reckon.Decimal.Integer
import Reckon.Number.Basic
import Reckon.Text.Padding

/-!
# Number/Reading — numbers read from text

**A point makes a double**, which must be finite; without one the text is an exact integer.
-/

namespace Reckon.Number

/-- A text that stands for no number. -/
structure ReadError where
  text : String
deriving DecidableEq, Repr

/-- The wording of a read error. -/
def ReadError.message (e : ReadError) : String := s!"Failed to parse number '{e.text}'"

/-- The number a text stands for. -/
def read? (cs : List Char) : Option Number :=
  if '.' ∈ cs then
    (Binary64.read? cs).bind fun x => if x.isFinite then some (float x) else none
  else (Decimal.integer? cs).map integer

/-- The number a text stands for, or the text that stands for none. -/
def read (text : String) : Except ReadError Number :=
  match read? text.toList with
  | some n => .ok n
  | none => .error ⟨text⟩

/-- An integer written into a field; a double has the width that its text has. -/
def padded (p : Text.Padding) : Number → String
  | integer n => p.numeral n
  | float x => textOfFloat x

end Reckon.Number

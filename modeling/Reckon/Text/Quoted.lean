import Reckon.Text.Combining
import Reckon.Text.Invisible

/-!
# Text/Quoted — characters and texts between quotes, with nothing hidden

Inside quotes a character stands for itself unless it would be **mistaken or missed**: the quote and
the backslash, the four controls that have a letter, and every character that is invisible or is
drawn onto the one before it, which is written by its code point.
-/

namespace Reckon.Text

/-- The code point of `c` in hexadecimal, between braces. -/
def codePointEscape (c : Char) : List Char :=
  "\\u\x7b".toList ++ Nat.toDigits 16 c.toNat ++ ['\x7d']

/-- How `c` is written between two marks `quote`. -/
def escape (quote c : Char) : List Char :=
  if c = '\x00' then ['\\', '0']
  else if c = '\t' then ['\\', 't']
  else if c = '\r' then ['\\', 'r']
  else if c = '\n' then ['\\', 'n']
  else if c = '\\' ∨ c = quote then ['\\', c]
  else if isCombining c ∨ isInvisible c then codePointEscape c
  else [c]

/-- A character between single quotes. -/
def quoteChar (c : Char) : String :=
  String.ofList ('\x27' :: escape '\x27' c ++ ['\x27'])

/-- A text between double quotes. -/
def quoteText (s : String) : String :=
  String.ofList ('\x22' :: s.toList.flatMap (escape '\x22') ++ ['\x22'])

end Reckon.Text

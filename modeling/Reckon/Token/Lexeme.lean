import Reckon.Text.Alphabetic
import Reckon.Text.Numeric

/-!
# Token/Lexeme — names and numerals at the start of a text

A name is a letter, then letters and numeric characters of any script; a numeral is an ASCII digit,
then digits and points.  Each is **the longest one the text begins with**.
-/

namespace Reckon.Token

/-- A character a name begins with. -/
def isNameStart (c : Char) : Bool := Text.isAlphabetic c

/-- A character a name goes on with. -/
def isNamePart (c : Char) : Bool := Text.isAlphabetic c || Text.isNumeric c

/-- A character a numeral begins with. -/
def isNumeralStart (c : Char) : Bool := c.isDigit

/-- A character a numeral goes on with. -/
def isNumeralPart (c : Char) : Bool := c.isDigit || c == '.'

/-- The longest lexeme at the start of a text whose first character satisfies `start` and whose
others satisfy `part`. -/
def lexeme? (start part : Char → Bool) : List Char → Option (List Char)
  | [] => none
  | c :: cs => if start c then some (c :: cs.takeWhile part) else none

/-- The longest name a text begins with. -/
def name? : List Char → Option (List Char) := lexeme? isNameStart isNamePart

/-- The longest numeral a text begins with. -/
def numeral? : List Char → Option (List Char) := lexeme? isNumeralStart isNumeralPart

end Reckon.Token

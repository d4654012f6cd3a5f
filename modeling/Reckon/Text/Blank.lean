import Reckon.Text.Ranges

/-!
# Text/Blank — white space, and text without it at its ends

The property White_Space of the Unicode character database: twenty-five characters, among them the
no-break space and the line separators.
-/

namespace Reckon.Text

/-- The code points with the property White_Space. -/
def blankRanges : Ranges :=
  [(0x9, 0xD), (0x20, 0x20), (0x85, 0x85), (0xA0, 0xA0), (0x1680, 0x1680), (0x2000, 0x200A),
   (0x2028, 0x2029), (0x202F, 0x202F), (0x205F, 0x205F), (0x3000, 0x3000)]

/-- The character is white space. -/
def isBlank (c : Char) : Bool := blankRanges.covers c.toNat

theorem blankRanges_ascend : blankRanges.AscendsFrom 0 := by decide

/-- The characters between the first and the last that is not blank. -/
def trimBlank (cs : List Char) : List Char :=
  ((cs.dropWhile isBlank).reverse.dropWhile isBlank).reverse

/-- The characters before the first blank and those after it, if there is one. -/
def splitAtBlank? (cs : List Char) : Option (List Char × List Char) :=
  match cs.dropWhile (!isBlank ·) with
  | [] => none
  | _ :: rest => some (cs.takeWhile (!isBlank ·), rest)

end Reckon.Text

import Reckon.Decimal.Numeral

/-!
# Text/Padding — a numeral within a field of some width

A numeral has a sign and digits. A field may ask for a plus sign, for a least width, and for what
fills the rest: a character on the **left, the right or both sides** (the odd one on the right), or
zeros **between the sign and the digits**.
-/

namespace Reckon.Text

/-- Where a numeral stands within its field. -/
inductive Alignment where
  | left
  | right
  | centre
deriving DecidableEq, Repr

/-- What a field asks of the numeral in it. -/
structure Padding where
  /-- The character that fills the field. -/
  fill : Char := ' '
  /-- Where the numeral stands. -/
  alignment : Alignment := .right
  /-- Whether a numeral that is not negative gets a plus sign. -/
  plus : Bool := false
  /-- Whether zeros after the sign fill the field. -/
  zeros : Bool := false
  /-- The least width. -/
  width : Nat := 0
deriving DecidableEq, Repr

/-- The integer, written into a field. -/
def Padding.numeral (p : Padding) (n : Int) : String :=
  let sign := if n < 0 then "-" else if p.plus then "+" else ""
  let digits := Decimal.numeral n.natAbs
  let missing := p.width - (sign.length + digits.length)
  let filler (k : Nat) (c : Char) : String := String.ofList (List.replicate k c)
  if p.zeros then sign ++ filler missing '0' ++ digits
  else
    match p.alignment with
    | .left => sign ++ digits ++ filler missing p.fill
    | .right => filler missing p.fill ++ sign ++ digits
    | .centre =>
      filler (missing / 2) p.fill ++ sign ++ digits ++ filler (missing - missing / 2) p.fill

end Reckon.Text

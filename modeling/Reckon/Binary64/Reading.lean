import Reckon.Binary64.Basic

/-!
# Binary64/Reading — doubles read from decimal text

A decimal text is **an optional sign, digits with at most one point among or beside them, and an
optional exponent**; at least one digit is not in the exponent.  It is read as the double nearest to
the number it writes.  Besides, `inf`, `infinity` and `nan` are read in any letter case.
-/

namespace Reckon.Binary64

/-- The digits at the start of a text, and the rest. -/
def spanDigits (cs : List Char) : List Char × List Char := cs.span Char.isDigit

/-- The exponent a text begins with its mark, or zero for no text at all. -/
def exponent? : List Char → Option Int
  | [] => some 0
  | mark :: cs =>
    if mark == 'e' || mark == 'E' then
      match cs with
      | '-' :: ds => (natural? ds).map fun n => -(n : Int)
      | '+' :: ds => (natural? ds).map fun n => (n : Int)
      | ds => (natural? ds).map fun n => (n : Int)
    else none
where
  /-- The value of a text of digits alone. -/
  natural? (ds : List Char) : Option Nat :=
    if !ds.isEmpty && ds.all Char.isDigit then some (Nat.ofDigitChars 10 ds 0) else none

/-- Beyond this exponent every power of ten is infinite as a double, and its inverse is zero. -/
def exponentReach : Nat := 400

/-- The double nearest to `digits · 10 ^ exponent`.  An exponent out of all reach, for so many digits,
is as good as the last one within reach. -/
def ofDecimal (digits : List Char) (exponent : Int) : Float :=
  let shift : Int := max (-(exponentReach + digits.length : Nat)) (min exponent exponentReach)
  nearest false (Nat.ofDigitChars 10 digits 0 * 10 ^ shift.toNat) (10 ^ (-shift).toNat)

/-- The double nearest to a decimal text without a sign. -/
def magnitude? (cs : List Char) : Option Float :=
  let (whole, rest) := spanDigits cs
  let (fractional, rest) :=
    match rest with
    | '.' :: cs => spanDigits cs
    | _ => ([], rest)
  if whole.isEmpty && fractional.isEmpty then none
  else (exponent? rest).map fun e => ofDecimal (whole ++ fractional) (e - fractional.length)

/-- The double a text without a sign stands for. -/
def unsigned? (cs : List Char) : Option Float :=
  let word := cs.map Char.toLower
  if word = "inf".toList ∨ word = "infinity".toList then some (1.0 / 0.0)
  else if word = "nan".toList then some (0.0 / 0.0)
  else magnitude? cs

/-- The double a text stands for. -/
def read? : List Char → Option Float
  | '-' :: cs => (unsigned? cs).map fun x => -x
  | '+' :: cs => unsigned? cs
  | cs => unsigned? cs

end Reckon.Binary64

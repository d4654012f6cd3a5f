import Reckon.Binary64.Reading
import Reckon.Proofs.Binary64.Rounding
import Reckon.Proofs.Decimal.Written

/-!
# Proofs/Binary64/Reading — digits and a point read as a double

Digits with one point among or behind them are read as **the double nearest to the number that they
write** (`Binary64.read?_point`), the quotient of all the digits and a power of ten; with a second
point they are no text of a double (`Binary64.read?_points`).
-/

namespace Reckon.Binary64

/-- The text is made of digits. -/
def Digits (cs : List Char) : Prop := ∀ c ∈ cs, c.isDigit = true

/-- The number that is written by digits before and behind a point. -/
def decimal (whole fractional : List Char) : ℚ :=
  Nat.ofDigitChars 10 (whole ++ fractional) 0 / (10 ^ fractional.length : Nat)

/-- The double nearest to it. -/
def nearestDecimal (whole fractional : List Char) : Float :=
  nearest false (Nat.ofDigitChars 10 (whole ++ fractional) 0) (10 ^ fractional.length)

variable {whole fractional rest : List Char}

/-! ## The digits at the start -/

theorem spanDigits_digits (h : Digits whole) : spanDigits whole = (whole, []) := by
  rw [spanDigits, List.span_eq_takeWhile_dropWhile, List.takeWhile_eq_self_iff.2 h,
    List.dropWhile_eq_nil_iff.2 h]

theorem spanDigits_point (h : Digits whole) :
    spanDigits (whole ++ '.' :: rest) = (whole, '.' :: rest) := by
  have hpoint : Char.isDigit '.' = false := rfl
  rw [spanDigits, List.span_eq_takeWhile_dropWhile, List.takeWhile_append_of_pos h,
    List.dropWhile_append_of_pos h, List.takeWhile_cons_of_neg (by simp [hpoint]),
    List.dropWhile_cons_of_neg (by simp [hpoint]), List.append_nil]

/-- Places behind the point divide by so many tens. -/
theorem ofDecimal_places {digits : List Char} {places : Nat} (h : places ≤ digits.length) :
    ofDecimal digits (-places) =
      nearest false (Nat.ofDigitChars 10 digits 0) (10 ^ places) := by
  have hshift : max (-((exponentReach + digits.length : Nat) : Int)) (min (-places) exponentReach) =
      -places := by
    omega
  rw [ofDecimal, hshift]
  simp

theorem magnitude?_point (hwhole : Digits whole) (hne : whole ≠ []) (hfractional : Digits fractional) :
    magnitude? (whole ++ '.' :: fractional) = some (nearestDecimal whole fractional) := by
  have hempty : whole.isEmpty = false := List.isEmpty_eq_false_iff.2 hne
  have hplaces : fractional.length ≤ (whole ++ fractional).length := by simp
  simp only [magnitude?, spanDigits_point hwhole, spanDigits_digits hfractional, hempty,
    Bool.false_and, Bool.false_eq_true, if_false, exponent?, Option.map_some, zero_sub]
  rw [ofDecimal_places hplaces, nearestDecimal]

theorem magnitude?_points (hwhole : Digits whole) (hfractional : Digits fractional) :
    magnitude? (whole ++ '.' :: (fractional ++ '.' :: rest)) = none := by
  have hexponent : exponent? ('.' :: rest) = none := rfl
  simp only [magnitude?, spanDigits_point hwhole, spanDigits_point hfractional, hexponent,
    Option.map_none, ite_self]

theorem isFinite_nearestDecimal_iff (whole fractional : List Char) :
    (nearestDecimal whole fractional).isFinite = true ↔ decimal whole fractional < overflow :=
  isFinite_nearest_iff false (Nat.pow_pos (by decide))

/-! ## A digit in front -/

/-- Behind a digit there is neither a sign nor a word. -/
theorem read?_of_isDigit {c : Char} {cs : List Char} (h : c.isDigit = true) :
    read? (c :: cs) = magnitude? (c :: cs) := by
  obtain ⟨hplus, hminus⟩ := Decimal.ne_sign_of_isDigit h
  have hlower : c.toLower = c := by
    rw [Char.isDigit, Bool.and_eq_true, decide_eq_true_iff, decide_eq_true_iff] at h
    refine dif_neg fun hupper => ?_
    exact absurd (UInt32.le_trans hupper.1 h.2) (by decide)
  have hletter (d : Char) (hd : d.isDigit = false) : c ≠ d := by
    rintro rfl
    exact Bool.false_ne_true (hd.symm.trans h)
  have hword : unsigned? (c :: cs) = magnitude? (c :: cs) := by
    simp [unsigned?, hlower, hletter 'i' rfl, hletter 'n' rfl]
  rw [← hword, read?] <;> simp [hplus, hminus]

/-- **Digits with one point are read as the double nearest to what they write.** -/
theorem read?_point (hwhole : Digits whole) (hne : whole ≠ []) (hfractional : Digits fractional) :
    read? (whole ++ '.' :: fractional) = some (nearestDecimal whole fractional) := by
  obtain ⟨c, cs, rfl⟩ := List.exists_cons_of_ne_nil hne
  rw [← magnitude?_point hwhole hne hfractional]
  exact read?_of_isDigit (hwhole c List.mem_cons_self)

/-- **With a second point, digits are no text of a double.** -/
theorem read?_points (hwhole : Digits whole) (hne : whole ≠ []) (hfractional : Digits fractional) :
    read? (whole ++ '.' :: (fractional ++ '.' :: rest)) = none := by
  obtain ⟨c, cs, rfl⟩ := List.exists_cons_of_ne_nil hne
  rw [← magnitude?_points hwhole hfractional]
  exact read?_of_isDigit (hwhole c List.mem_cons_self)

end Reckon.Binary64

import Reckon.Calculator.Arithmetic
import Reckon.Calculator.Logic
import Reckon.Proofs.Binary64.Reading
import Reckon.Proofs.Grammar.Marks

/-!
# Proofs/Calculator/Numerals — what each language makes of a numeral

A numeral is a digit, then digits and points.  **Without a point it is an exact integer; with one a
double, unless that would be infinite; with more it is nothing** (`Reckon.convert_numeral`).  As a
truth value it is one of two integers, however many zeros it begins with and however long it is.
-/

namespace Reckon

open Binary64 (Digits decimal nearestDecimal)

/-! ## Points in numerals -/

namespace Token

variable {text cs : List Char} {lexeme : String}

theorem isNumeral_of_numeral? (h : numeral? text = some lexeme.toList) : IsNumeral lexeme := by
  rcases text with _ | ⟨c, ds⟩
  · nomatch h
  simp only [numeral?, lexeme?, Option.ite_none_right_eq_some, Option.some.injEq] at h
  obtain ⟨hdigit, hlexeme⟩ := h
  exact ⟨c, _, hlexeme.symm, hdigit, List.all_eq_true.1 List.all_takeWhile⟩

theorem not_mem_of_digits (h : Digits cs) : '.' ∉ cs := fun hpoint => nomatch h '.' hpoint

/-- Characters of a numeral that are no points are digits. -/
theorem digits_of_not_mem (h : ∀ c ∈ cs, isNumeralPart c = true) (hpoint : '.' ∉ cs) :
    Digits cs := by
  intro c hc
  have hpart := h c hc
  rw [isNumeralPart, Bool.or_eq_true, beq_iff_eq] at hpart
  refine hpart.resolve_right ?_
  rintro rfl
  exact hpoint hc

/-- Before the first point there are digits. -/
theorem exists_first_point (h : ∀ c ∈ cs, isNumeralPart c = true) (hpoint : '.' ∈ cs) :
    ∃ whole rest, cs = whole ++ '.' :: rest ∧ Digits whole ∧
      (∀ c ∈ rest, isNumeralPart c = true) ∧ cs.count '.' = rest.count '.' + 1 := by
  obtain ⟨whole, rest, rfl, hwhole⟩ := List.eq_append_cons_of_mem hpoint
  refine ⟨whole, rest, rfl, digits_of_not_mem (fun c hc => h c (by simp [hc])) hwhole,
    fun c hc => h c (by simp [hc]), ?_⟩
  rw [List.count_append, List.count_eq_zero.2 hwhole, List.count_cons_self, Nat.zero_add]

namespace IsNumeral

variable (h : IsNumeral lexeme)

include h

theorem parts : ∀ c ∈ lexeme.toList, isNumeralPart c = true := by
  obtain ⟨c, ds, hlexeme, hdigit, hparts⟩ := h
  rw [hlexeme]
  refine List.forall_mem_cons.2 ⟨?_, hparts⟩
  rw [isNumeralPart, Bool.or_eq_true]
  exact .inl hdigit

/-- A numeral does not begin with a point. -/
theorem ne_nil {whole rest : List Char} (heq : lexeme.toList = whole ++ '.' :: rest) :
    whole ≠ [] := by
  rintro rfl
  obtain ⟨c, ds, hlexeme, hdigit, -⟩ := h
  obtain ⟨rfl, -⟩ := List.cons.inj (hlexeme.symm.trans heq)
  nomatch hdigit

/-- A numeral with one point is digits, the point, and digits or none. -/
theorem exists_of_one (hone : lexeme.toList.count '.' = 1) :
    ∃ whole fractional, lexeme.toList = whole ++ '.' :: fractional ∧ Digits whole ∧ whole ≠ [] ∧
      Digits fractional := by
  have hpoint : '.' ∈ lexeme.toList := List.count_pos_iff.1 (by omega)
  obtain ⟨whole, fractional, heq, hwhole, hparts, hcount⟩ := exists_first_point h.parts hpoint
  have hnone : '.' ∉ fractional := List.count_eq_zero.1 (by omega)
  exact ⟨whole, fractional, heq, hwhole, h.ne_nil heq, digits_of_not_mem hparts hnone⟩

/-- In a numeral with more points there are digits or none between the first two. -/
theorem exists_of_more (hmore : 2 ≤ lexeme.toList.count '.') :
    ∃ whole fractional rest, lexeme.toList = whole ++ '.' :: (fractional ++ '.' :: rest) ∧
      Digits whole ∧ whole ≠ [] ∧ Digits fractional := by
  have hpoint : '.' ∈ lexeme.toList := List.count_pos_iff.1 (by omega)
  obtain ⟨whole, behind, heq, hwhole, hparts, hcount⟩ := exists_first_point h.parts hpoint
  have hpoint : '.' ∈ behind := List.count_pos_iff.1 (by omega)
  obtain ⟨fractional, rest, rfl, hfractional, -⟩ := exists_first_point hparts hpoint
  exact ⟨whole, fractional, rest, heq, hwhole, h.ne_nil heq, hfractional⟩

/-- A numeral without a point writes the integer that its digits write. -/
theorem writesMagnitude (hpoint : '.' ∉ lexeme.toList) :
    Decimal.WritesMagnitude (Nat.ofDigitChars 10 lexeme.toList 0) lexeme.toList := by
  have hdigits := digits_of_not_mem h.parts hpoint
  obtain ⟨c, ds, hlexeme, hdigit, -⟩ := h
  refine ⟨c, ds, hlexeme, hdigit, fun d hd => .inl (hdigits d ?_), ?_⟩
  · rw [hlexeme]
    exact List.mem_cons_of_mem c hd
  · rw [Decimal.filter_digits hdigits]

/-- It is the only number that a numeral may write, and it writes none with a point. -/
theorem writesNatural_iff {n : Nat} : Decimal.WritesNatural n lexeme.toList ↔
    '.' ∉ lexeme.toList ∧ Nat.ofDigitChars 10 lexeme.toList 0 = n := by
  have hparts := h.parts
  obtain ⟨c, ds, hlexeme, hdigit, -⟩ := h
  constructor
  · rintro ⟨plus, digits, heq, rfl | rfl, -, hdigits, rfl⟩
    · rw [heq]
      exact ⟨not_mem_of_digits hdigits, rfl⟩
    · obtain ⟨rfl, -⟩ := List.cons.inj (hlexeme.symm.trans heq)
      nomatch hdigit
  · rintro ⟨hpoint, rfl⟩
    exact ⟨[], lexeme.toList, rfl, .inl rfl, by simp [hlexeme], digits_of_not_mem hparts hpoint, rfl⟩

end IsNumeral

end Token

/-! ## Numbers -/

namespace Number

variable {lexeme : String}

theorem read_digits (h : Token.IsNumeral lexeme) (hpoint : '.' ∉ lexeme.toList) :
    read lexeme = .ok (integer (Nat.ofDigitChars 10 lexeme.toList 0)) := by
  have hdigits := Token.digits_of_not_mem h.parts hpoint
  have hinteger : Decimal.integer? lexeme.toList =
      some (Nat.ofDigitChars 10 lexeme.toList 0 : Nat) :=
    Decimal.integer?_eq_some_iff.2 ⟨[], _, _, rfl, h.writesMagnitude hpoint, .inl ⟨.inl rfl, rfl⟩⟩
  rw [read, read?, if_neg hpoint, hinteger]
  rfl

/-- Of one point, a finite double is made. -/
theorem read_point {whole fractional : List Char}
    (hlexeme : lexeme.toList = whole ++ '.' :: fractional) (hwhole : Digits whole) (hne : whole ≠ [])
    (hfractional : Digits fractional) :
    read lexeme = if decimal whole fractional < Binary64.overflow
      then .ok (float (nearestDecimal whole fractional)) else .error ⟨lexeme⟩ := by
  have hpoint : '.' ∈ lexeme.toList := by simp [hlexeme]
  rw [read, read?, if_pos hpoint, hlexeme, Binary64.read?_point hwhole hne hfractional,
    Option.bind_some]
  simp only [Binary64.isFinite_nearestDecimal_iff]
  split_ifs <;> rfl

theorem read_points {whole fractional rest : List Char}
    (hlexeme : lexeme.toList = whole ++ '.' :: (fractional ++ '.' :: rest))
    (hwhole : Digits whole) (hne : whole ≠ []) (hfractional : Digits fractional) :
    read lexeme = .error ⟨lexeme⟩ := by
  have hpoint : '.' ∈ lexeme.toList := by simp [hlexeme]
  rw [read, read?, if_pos hpoint, hlexeme, Binary64.read?_points hwhole hne hfractional]
  rfl

end Number

/-! ## Truth values -/

namespace Logic

variable {lexeme : String}

theorem convert_eq_ok_iff_unsigned {b : Bool} :
    convert lexeme = .ok b ↔ Decimal.unsigned 32 lexeme.toList = .ok b.toNat := by
  rw [convert]
  rcases Decimal.unsigned 32 lexeme.toList with e | _ | _ | n <;> cases b <;> simp

/-- What is no truth value is refused in one way. -/
theorem convert_eq_error (h : ∀ b, convert lexeme ≠ .ok b) :
    convert lexeme = .error ⟨"Constant must be a logic value: 1 (true) or 0 (false)"⟩ := by
  have hcases : convert lexeme = .ok false ∨ convert lexeme = .ok true ∨
      convert lexeme =
        .error ⟨"Constant must be a logic value: 1 (true) or 0 (false)"⟩ := by
    rw [convert]
    split
    · exact .inl rfl
    · exact .inr (.inl rfl)
    · exact .inr (.inr rfl)
  exact (hcases.resolve_left (h false)).resolve_left (h true)

end Logic

/-- **Numerals are converted exactly.**  Without a point, a numeral is the exact integer that its
digits write; with one it is the double nearest to what is written, unless that is infinite; with more
it is refused.  It is a truth value iff there is no point and its digits write zero or one. -/
theorem convert_numeral {text : List Char} {lexeme : String}
    (h : Token.numeral? text = some lexeme.toList) :
    ('.' ∉ lexeme.toList →
      Arithmetic.convert lexeme = .ok (.integer (Nat.ofDigitChars 10 lexeme.toList 0))) ∧
    (lexeme.toList.count '.' = 1 → ∃ whole fractional,
      lexeme.toList = whole ++ '.' :: fractional ∧ Digits whole ∧ Digits fractional ∧
      ((nearestDecimal whole fractional).isFinite = true ↔
        decimal whole fractional < Binary64.overflow) ∧
      Arithmetic.convert lexeme =
        if decimal whole fractional < Binary64.overflow
        then .ok (.float (nearestDecimal whole fractional))
        else .error ⟨(Number.ReadError.mk lexeme).message⟩) ∧
    (2 ≤ lexeme.toList.count '.' →
      Arithmetic.convert lexeme = .error ⟨(Number.ReadError.mk lexeme).message⟩) ∧
    (∀ b, Logic.convert lexeme = .ok b ↔
      '.' ∉ lexeme.toList ∧ Nat.ofDigitChars 10 lexeme.toList 0 = b.toNat) ∧
    ((∀ b, Logic.convert lexeme ≠ .ok b) → Logic.convert lexeme =
      .error ⟨"Constant must be a logic value: 1 (true) or 0 (false)"⟩) := by
  have hnumeral := Token.isNumeral_of_numeral? h
  refine ⟨fun hnone => ?_, fun hone => ?_, fun hmore => ?_, fun b => ?_, Logic.convert_eq_error⟩
  · rw [Arithmetic.convert, Number.read_digits hnumeral hnone, mapError_ok]
  · obtain ⟨whole, fractional, heq, hwhole, hne, hfractional⟩ := hnumeral.exists_of_one hone
    refine ⟨whole, fractional, heq, hwhole, hfractional, Binary64.isFinite_nearestDecimal_iff .., ?_⟩
    rw [Arithmetic.convert, Number.read_point heq hwhole hne hfractional]
    split_ifs
    · rw [mapError_ok]
    · rw [mapError_error]
  · obtain ⟨whole, fractional, rest, heq, hwhole, hne, hfractional⟩ :=
      hnumeral.exists_of_more hmore
    rw [Arithmetic.convert, Number.read_points heq hwhole hne hfractional, mapError_error]
  · -- The digits are read as 32 bits, which refuses numbers but none that is a truth value.
    have hfits : b.toNat < 2 ^ 32 := b.toNat_lt.trans (by decide)
    rw [Logic.convert_eq_ok_iff_unsigned, Decimal.unsigned_eq_ok_iff, and_iff_left hfits,
      hnumeral.writesNatural_iff]

theorem convert_numeral_zeros :
    Arithmetic.convert "007" = .ok (.integer 7) ∧ Logic.convert "0001" = .ok true ∧
    Logic.convert "4294967297" =
      .error ⟨"Constant must be a logic value: 1 (true) or 0 (false)"⟩ ∧
    (∃ whole fractional, "0.50".toList = whole ++ '.' :: fractional ∧
      Arithmetic.convert "0.50" =
        if decimal whole fractional < Binary64.overflow
        then .ok (.float (nearestDecimal whole fractional))
        else .error ⟨"Failed to parse number '0.50'"⟩) ∧
    Arithmetic.convert "1..2" = .error ⟨"Failed to parse number '1..2'"⟩ := by
  have hseven : Token.numeral? "007+x".toList = some "007".toList := by decide
  have hone : Token.numeral? "0001".toList = some "0001".toList := by decide
  have hlarge : Token.numeral? "4294967297".toList = some "4294967297".toList := by decide
  have hhalf : Token.numeral? "0.50)".toList = some "0.50".toList := by decide
  have hdots : Token.numeral? "1..2".toList = some "1..2".toList := by decide
  obtain ⟨-, -, -, htruth, hrefused⟩ := convert_numeral hlarge
  obtain ⟨-, hdecimal, -⟩ := convert_numeral hhalf
  obtain ⟨whole, fractional, heq, -, -, -, hconvert⟩ := hdecimal (by decide)
  refine ⟨(convert_numeral hseven).1 (by decide),
    ((convert_numeral hone).2.2.2.1 true).2 ⟨by decide, by decide⟩, hrefused fun b hb => ?_,
    ⟨whole, fractional, heq, hconvert⟩, (convert_numeral hdots).2.2.1 (by decide)⟩
  have hvalue := ((htruth b).1 hb).2
  revert hvalue
  cases b <;> decide

end Reckon

import Reckon.Number.Order
import Reckon.Number.Reading
import Reckon.Proofs.Decimal.Written

/-!
# Proofs/Number/Reading — digits are read as the number they are the digits of

**The digits of a natural number, without a point or a sign, are read as the exact integer**
(`Number.read_repr`), and so is the text of any integer, a minus sign before it or not
(`Number.read_text_integer`).
-/

namespace Reckon

namespace Decimal

theorem isDigit_of_mem_toDigits {n : Nat} {c : Char} (h : c ∈ Nat.toDigits 10 n) :
    c.isDigit = true :=
  Nat.isDigit_of_mem_toDigits (by decide) (by decide) h

/-- A number has a first digit. -/
theorem exists_toDigits_eq_cons (n : Nat) :
    ∃ c cs, Nat.toDigits 10 n = c :: cs ∧ c.isDigit = true ∧ ∀ d ∈ cs, d.isDigit = true := by
  obtain ⟨c, cs, hcs⟩ := List.exists_cons_of_ne_nil (Nat.toDigits_ne_nil (n := n) (b := 10))
  have hdigits : ∀ d ∈ c :: cs, d.isDigit = true := by
    intro d hd
    rw [← hcs] at hd
    exact isDigit_of_mem_toDigits hd
  exact ⟨c, cs, hcs, hdigits c (by simp), fun d hd => hdigits d (by simp [hd])⟩

theorem writesMagnitude_toDigits (n : Nat) : WritesMagnitude n (Nat.toDigits 10 n) := by
  obtain ⟨c, cs, hcs, hdigit, hdigits⟩ := exists_toDigits_eq_cons n
  refine ⟨c, cs, hcs, hdigit, fun d hd => .inl (hdigits d hd), ?_⟩
  rw [filter_digits fun _ => isDigit_of_mem_toDigits, Nat.ofDigitChars_ten_toDigits]

theorem integer?_toDigits (n : Nat) : integer? (Nat.toDigits 10 n) = some (n : Int) :=
  integer?_eq_some_iff.2 ⟨[], _, n, rfl, writesMagnitude_toDigits n, .inl ⟨.inl rfl, rfl⟩⟩

/-! ## Numerals of integers -/

@[simp] theorem toList_numeral (n : Nat) : (numeral n).toList = Nat.toDigits 10 n := by
  rw [numeral, String.toList_ofList, digits_eq_toDigits]

theorem toList_signedNumeral_natCast (n : Nat) :
    (signedNumeral n).toList = Nat.toDigits 10 n := by
  rw [signedNumeral, if_neg (Int.not_lt.2 (Int.natCast_nonneg n)), Int.natAbs_natCast,
    toList_numeral]

theorem toList_signedNumeral_negSucc (n : Nat) :
    (signedNumeral (.negSucc n)).toList = '-' :: Nat.toDigits 10 (n + 1) := by
  simp [signedNumeral, Int.negSucc_lt_zero]

/-- A numeral is made of digits and perhaps a minus sign. -/
theorem isDigit_of_mem_signedNumeral {n : Int} {c : Char} (h : c ∈ (signedNumeral n).toList) :
    c = '-' ∨ c.isDigit = true := by
  cases n with
  | ofNat n =>
    rw [Int.ofNat_eq_natCast, toList_signedNumeral_natCast] at h
    exact .inr (isDigit_of_mem_toDigits h)
  | negSucc n =>
    rw [toList_signedNumeral_negSucc, List.mem_cons] at h
    exact h.imp_right isDigit_of_mem_toDigits

/-- **The numeral of an integer is read as that integer.** -/
theorem integer?_signedNumeral (n : Int) : integer? (signedNumeral n).toList = some n := by
  cases n with
  | ofNat n => rw [Int.ofNat_eq_natCast, toList_signedNumeral_natCast, integer?_toDigits]
  | negSucc n =>
    rw [toList_signedNumeral_negSucc, integer?_eq_some_iff]
    exact ⟨['-'], _, n + 1, rfl, writesMagnitude_toDigits (n + 1), .inr ⟨rfl, rfl⟩⟩

end Decimal

namespace Number

/-- **The digits of a number are read as that number.** -/
theorem read_repr (n : Nat) : read n.repr = .ok (integer n) := by
  have hpoint : '.' ∉ Nat.toDigits 10 n := by
    intro h
    simpa using Decimal.isDigit_of_mem_toDigits h
  simp [read, read?, Nat.toList_repr, hpoint, Decimal.integer?_toDigits]

/-- **The text of an integer is read as that integer.** -/
theorem read_text_integer (n : Int) : read (integer n).text = .ok (integer n) := by
  have hpoint : '.' ∉ (Decimal.signedNumeral n).toList := by
    intro h
    simpa using Decimal.isDigit_of_mem_signedNumeral h
  simp [read, read?, text, hpoint, Decimal.integer?_signedNumeral]

/-- Of an integer's value and kind there is that integer only. -/
theorem strictEqv_integer_iff {x : Number} {n : Int} :
    x.strictEqv (integer n) = true ↔ x = integer n := by
  cases x with
  | integer m => simp [strictEqv, kind, BEq.beq, eqv, pair]
  | float y => simp [strictEqv, kind]

end Number

end Reckon

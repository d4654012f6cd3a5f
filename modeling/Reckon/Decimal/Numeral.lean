import Reckon.Power

/-!
# Decimal/Numeral — the decimal digits of a number of any size

A number is written by halves: the digits of its quotient by a power of ten, then those of the
remainder, each half to its full width, and the leading zeros dropped at the end.  **This gives the
digits that dividing by ten again and again gives** (`digits_eq_toDigits`), in far fewer divisions of
long numbers.
-/

namespace Reckon.Decimal

/-- The lowest `2 ^ k` digits, with leading zeros. -/
def lowDigits : Nat → Nat → List Char
  | 0, n => [Nat.digitChar (n % 10)]
  | k + 1, n =>
    let half := 10 ^ 2 ^ k
    lowDigits k (n / half) ++ lowDigits k (n % half)

/-- A `k` for which `2 ^ k` digits are enough. -/
def width (n : Nat) : Nat := (n.log2 / 3 + 1).log2 + 1

/-- The digits of a number, without leading zeros. -/
def digits (n : Nat) : List Char :=
  match (lowDigits (width n) n).dropWhile (· == '0') with
  | [] => ['0']
  | ds => ds

/-- The numeral of a natural number. -/
def numeral (n : Nat) : String := String.ofList (digits n)

/-- The numeral of an integer, a minus sign before it if it is negative. -/
def signedNumeral (n : Int) : String := if n < 0 then "-" ++ numeral n.natAbs else numeral n.natAbs

/-! ## The digits are those of repeated division -/

theorem ofDigitChars_eq_pow_mul_add (ds : List Char) (n : Nat) :
    Nat.ofDigitChars 10 ds n = 10 ^ ds.length * n + Nat.ofDigitChars 10 ds 0 := by
  induction ds generalizing n with
  | nil => simp
  | cons c ds ih =>
    rw [Nat.ofDigitChars_cons, Nat.ofDigitChars_cons, ih, ih (10 * 0 + _), List.length_cons,
      Nat.pow_succ]
    simp only [Nat.mul_add, Nat.mul_zero, Nat.zero_add, Nat.mul_assoc, Nat.add_assoc]

@[simp] theorem length_lowDigits (k n : Nat) : (lowDigits k n).length = 2 ^ k := by
  induction k generalizing n with
  | zero => rfl
  | succ k ih => simp only [lowDigits, List.length_append, ih, Nat.pow_succ]; omega

theorem isDigit_of_mem_lowDigits {k n : Nat} {c : Char} (h : c ∈ lowDigits k n) :
    c.isDigit = true := by
  induction k generalizing n with
  | zero =>
    rw [List.mem_singleton.1 h]
    simp [Nat.isDigit_digitChar, Nat.mod_lt]
  | succ k ih => exact (List.mem_append.1 h).elim ih ih

/-- The lowest digits have the value of the number, up to the power of ten beyond them. -/
theorem ofDigitChars_lowDigits (k n : Nat) :
    Nat.ofDigitChars 10 (lowDigits k n) 0 = n % 10 ^ 2 ^ k := by
  induction k generalizing n with
  | zero => simp [lowDigits, Nat.ofDigitChars_cons, Nat.toNat_digitChar_of_lt_ten, Nat.mod_lt]
  | succ k ih =>
    have hpow : (10 : Nat) ^ 2 ^ (k + 1) = 10 ^ 2 ^ k * 10 ^ 2 ^ k := by
      rw [Nat.pow_succ, Nat.mul_two, Nat.pow_add]
    rw [lowDigits, Nat.ofDigitChars_append, ofDigitChars_eq_pow_mul_add, ih, ih, length_lowDigits,
      Nat.mod_mod, hpow, Nat.mod_mul, Nat.add_comm]

/-- A digit is the one of its value. -/
theorem digitChar_toNat_sub {c : Char} (h : c.isDigit = true) :
    Nat.digitChar (c.toNat - '0'.toNat) = c ∧ c.toNat - '0'.toNat < 10 := by
  obtain ⟨hlo, hhi⟩ : 48 ≤ c.toNat ∧ c.toNat ≤ 57 := by
    rw [Char.isDigit, Bool.and_eq_true, decide_eq_true_iff, decide_eq_true_iff] at h
    exact ⟨UInt32.le_iff_toNat_le.1 h.1, UInt32.le_iff_toNat_le.1 h.2⟩
  have hlt : c.toNat - '0'.toNat < 10 := by
    change c.toNat - 48 < 10
    omega
  refine ⟨Char.toNat_inj.1 ?_, hlt⟩
  rw [Nat.toNat_digitChar_of_lt_ten hlt]
  change 48 + (c.toNat - 48) = c.toNat
  omega

/-- **Digits without a leading zero are the digits of their value**; read from the last one. -/
theorem toDigits_ofDigitChars_reverse : ∀ (ds : List Char), (∀ c ∈ ds, c.isDigit = true) →
    ds ≠ [] → ds.getLast? ≠ some '0' →
    Nat.toDigits 10 (Nat.ofDigitChars 10 ds.reverse 0) = ds.reverse
  | [], _, hne, _ => absurd rfl hne
  | [c], hdigit, _, _ => by
    obtain ⟨hc, hlt⟩ := digitChar_toNat_sub (hdigit c (by simp))
    rw [List.reverse_singleton, Nat.ofDigitChars_cons, Nat.ofDigitChars_nil, Nat.mul_zero,
      Nat.zero_add, Nat.toDigits_of_lt_base hlt, hc]
  | c :: d :: ds, hdigit, _, hlast => by
    have ih := toDigits_ofDigitChars_reverse (d :: ds) (fun x hx => hdigit x (by simp [hx]))
      (by simp) (by simpa using hlast)
    obtain ⟨hc, hlt⟩ := digitChar_toNat_sub (hdigit c (by simp))
    rw [List.reverse_cons, Nat.ofDigitChars_append, Nat.ofDigitChars_cons, Nat.ofDigitChars_nil]
    generalize hv : Nat.ofDigitChars 10 (d :: ds).reverse 0 = v at ih
    have hpos : v ≠ 0 := by
      rintro rfl
      have : d :: ds = ['0'] := by
        rw [← List.reverse_reverse (d :: ds), ← ih]
        rfl
      simp [this] at hlast
    rw [Nat.toDigits_of_base_le (by decide) (by omega)]
    have hdiv : (10 * v + (c.toNat - '0'.toNat)) / 10 = v := by omega
    have hmod : (10 * v + (c.toNat - '0'.toNat)) % 10 = c.toNat - '0'.toNat := by omega
    rw [hdiv, hmod, ih, hc]

theorem lt_pow_width (n : Nat) : n < 10 ^ 2 ^ width n := by
  have hdigits : n.log2 / 3 + 1 ≤ 2 ^ width n := Nat.le_of_lt Nat.lt_log2_self
  calc n < 2 ^ (n.log2 + 1) := Nat.lt_log2_self
    _ ≤ 2 ^ (3 * (n.log2 / 3 + 1)) := Nat.pow_le_pow_right (by decide) (by omega)
    _ = 8 ^ (n.log2 / 3 + 1) := by rw [Nat.pow_mul]
    _ ≤ 10 ^ (n.log2 / 3 + 1) := Nat.pow_le_pow_left (by decide) _
    _ ≤ 10 ^ 2 ^ width n := Nat.pow_le_pow_right (by decide) hdigits

/-- Leading zeros add nothing to the value. -/
theorem ofDigitChars_dropWhile_zero (ds : List Char) :
    Nat.ofDigitChars 10 (ds.dropWhile (· == '0')) 0 = Nat.ofDigitChars 10 ds 0 := by
  induction ds with
  | nil => rfl
  | cons c ds ih =>
    by_cases hc : c = '0'
    · subst hc
      simpa [Nat.ofDigitChars_cons] using ih
    · simp [hc]

/-- **The digits are those that repeated division gives.** -/
theorem digits_eq_toDigits (n : Nat) : digits n = Nat.toDigits 10 n := by
  have hvalue : Nat.ofDigitChars 10 ((lowDigits (width n) n).dropWhile (· == '0')) 0 = n := by
    rw [ofDigitChars_dropWhile_zero, ofDigitChars_lowDigits, Nat.mod_eq_of_lt (lt_pow_width n)]
  have hdigit : ∀ c ∈ (lowDigits (width n) n).dropWhile (· == '0'), c.isDigit = true :=
    fun c hc => isDigit_of_mem_lowDigits ((List.dropWhile_sublist _).subset hc)
  have hhead := List.head?_dropWhile_not (· == '0') (lowDigits (width n) n)
  unfold digits
  split
  · next h =>
    rw [h] at hvalue
    rw [← hvalue]
    rfl
  · next hne =>
    generalize hds : (lowDigits (width n) n).dropWhile (· == '0') = ds at hvalue hdigit hhead hne
    have := toDigits_ofDigitChars_reverse ds.reverse (by simpa using hdigit) (by simpa using hne)
      (by
        intro h
        rw [List.getLast?_reverse] at h
        simp [h] at hhead)
    rw [List.reverse_reverse, hvalue] at this
    exact this.symm

end Reckon.Decimal

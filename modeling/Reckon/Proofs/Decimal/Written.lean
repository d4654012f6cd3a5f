import Reckon.Decimal.Integer
import Reckon.Decimal.Numeral
import Reckon.Proofs.Result

/-!
# Proofs/Decimal/Written — which texts stand for which numbers

A natural number is written as a plus sign or none and then its digits, with zeros before them or
not; an integer as a sign or none, a digit, and then digits and underscores.  **What is read as a
number is exactly what is written so** (`Decimal.unsigned_eq_ok_iff`,
`Decimal.integer?_eq_some_iff`).
-/

namespace Reckon.Decimal

/-- A plus sign or none, then the digits of the number, at least one. -/
def WritesNatural (n : Nat) (cs : List Char) : Prop :=
  ∃ plus digits, cs = plus ++ digits ∧ (plus = [] ∨ plus = ['+']) ∧ digits ≠ [] ∧
    (∀ d ∈ digits, d.isDigit = true) ∧ n = Nat.ofDigitChars 10 digits 0

/-- A digit, then digits and underscores, which stand for the number without the underscores. -/
def WritesMagnitude (n : Nat) (cs : List Char) : Prop :=
  ∃ c ds, cs = c :: ds ∧ c.isDigit = true ∧ (∀ d ∈ ds, d.isDigit = true ∨ d = '_') ∧
    n = Nat.ofDigitChars 10 (cs.filter (· != '_')) 0

/-- A sign or none, then the magnitude of the integer. -/
def WritesInteger (n : Int) (cs : List Char) : Prop :=
  ∃ sign ds m, cs = sign ++ ds ∧ WritesMagnitude m ds ∧
    ((sign = [] ∨ sign = ['+']) ∧ n = m ∨ sign = ['-'] ∧ n = -m)

theorem ne_sign_of_isDigit {c : Char} (h : c.isDigit = true) : c ≠ '+' ∧ c ≠ '-' := by
  constructor
  · rintro rfl
    simp at h
  · rintro rfl
    simp at h

/-- Digits hold no underscore that would be left out. -/
theorem filter_digits {cs : List Char} (h : ∀ d ∈ cs, d.isDigit = true) :
    cs.filter (· != '_') = cs := by
  refine List.filter_eq_self.2 ?_
  intro c hc
  have hdigit := h c hc
  rw [bne_iff_ne]
  rintro rfl
  simp at hdigit

/-! ## Integers of any size -/

theorem magnitude?_eq_some_iff {n : Nat} {cs : List Char} :
    magnitude? cs = some n ↔ WritesMagnitude n cs := by
  cases cs with
  | nil => simp [magnitude?, WritesMagnitude]
  | cons c ds =>
    simp only [magnitude?, Option.ite_none_right_eq_some, Bool.and_eq_true, List.all_eq_true,
      Bool.or_eq_true, beq_iff_eq, Option.some.injEq]
    constructor
    · rintro ⟨⟨hc, hds⟩, hvalue⟩
      exact ⟨c, ds, rfl, hc, hds, hvalue.symm⟩
    · rintro ⟨_, _, hcons, hc, hds, hvalue⟩
      obtain ⟨rfl, rfl⟩ := List.cons.inj hcons
      exact ⟨⟨hc, hds⟩, hvalue.symm⟩

theorem map_natCast_eq_some_iff {m? : Option Nat} {f : Int → Int} {n : Int} :
    (do let m ← m?; pure (m : Int) : Option Int).map f = some n ↔
      ∃ m : Nat, m? = some m ∧ n = f m := by
  cases m? <;> simp [eq_comm]

/-- **The texts of integers are those that are written so.** -/
theorem integer?_eq_some_iff {n : Int} {cs : List Char} :
    integer? cs = some n ↔ WritesInteger n cs := by
  constructor
  · intro h
    unfold integer? at h
    split at h
    all_goals
      obtain ⟨m, hm, rfl⟩ := map_natCast_eq_some_iff.1 h
    · exact ⟨['-'], _, m, rfl, magnitude?_eq_some_iff.1 hm, .inr ⟨rfl, rfl⟩⟩
    · exact ⟨['+'], _, m, rfl, magnitude?_eq_some_iff.1 hm, .inl ⟨.inr rfl, rfl⟩⟩
    · exact ⟨[], _, m, rfl, magnitude?_eq_some_iff.1 hm, .inl ⟨.inl rfl, rfl⟩⟩
  · rintro ⟨sign, ds, m, rfl, hm, hsign⟩
    have hmagnitude := magnitude?_eq_some_iff.2 hm
    rcases hsign with ⟨rfl | rfl, rfl⟩ | ⟨rfl, rfl⟩
    · obtain ⟨c, ds, rfl, hc, -⟩ := hm
      obtain ⟨hplus, hminus⟩ := ne_sign_of_isDigit hc
      rw [List.nil_append, integer?, hmagnitude] <;> simp [hplus, hminus]
    · rw [List.singleton_append, integer?, hmagnitude]
      rfl
    · rw [List.singleton_append, integer?, hmagnitude]
      rfl

/-! ## Natural numbers within bounds -/

theorem le_ofDigitChars (digits : List Char) (n : Nat) : n ≤ Nat.ofDigitChars 10 digits n := by
  rw [ofDigitChars_eq_pow_mul_add]
  exact Nat.le_trans (Nat.le_mul_of_pos_left n (Nat.pow_pos (by decide))) (Nat.le_add_right _ _)

/-- A value grows to that of the digits behind it, if that is within the bound. -/
theorem growUpTo_eq_ok_iff {hi w : Int} {digits : List Char} {v : Nat} (hv : (v : Int) ≤ hi) :
    growUpTo hi v digits = .ok w ↔
      (∀ d ∈ digits, d.isDigit = true) ∧ w = Nat.ofDigitChars 10 digits v ∧ w ≤ hi := by
  induction digits generalizing v with
  | nil =>
    simp only [growUpTo, List.foldlM_nil, List.not_mem_nil, Nat.ofDigitChars_nil]
    constructor
    · rintro ⟨⟩
      exact ⟨nofun, rfl, hv⟩
    · rintro ⟨-, rfl, -⟩
      rfl
  | cons c ds ih =>
    have hstep : growUpTo hi v (c :: ds) =
        digit? c >>= fun d => if 10 * (v : Int) + d ≤ hi then growUpTo hi (10 * v + d) ds
          else .error .tooLarge := by
      rw [growUpTo, List.foldlM_cons]
      cases digit? c with
      | error e => rfl
      | ok d =>
        simp only [ok_bind]
        split <;> rfl
    rw [hstep, Nat.ofDigitChars_cons, digit?]
    by_cases hc : c.isDigit = true
    · rw [if_pos hc, ok_bind, List.forall_mem_cons]
      generalize c.toNat - '0'.toNat = d
      split
      · next hle =>
        have hcast : 10 * (v : Int) + d = (10 * v + d : Nat) := by push_cast; rfl
        rw [hcast] at hle ⊢
        rw [ih hle, and_iff_right hc]
      · next hgt =>
        simp only [reduceCtorEq, false_iff]
        rintro ⟨-, rfl, hle⟩
        have := le_ofDigitChars ds (10 * v + d)
        omega
    · rw [if_neg hc]
      simp [hc]

theorem bounded_eq_ok_iff {hi : Nat} {w : Int} {cs : List Char} :
    bounded 0 hi cs = .ok w ↔ ∃ n : Nat, w = n ∧ WritesNatural n cs ∧ n ≤ hi := by
  have hgrow : ∀ digits, growUpTo hi 0 digits = .ok w ↔
      (∀ d ∈ digits, d.isDigit = true) ∧ w = Nat.ofDigitChars 10 digits 0 ∧ w ≤ hi :=
    fun digits => growUpTo_eq_ok_iff (v := 0) (Int.natCast_nonneg hi)
  constructor
  · intro h
    unfold bounded at h
    split at h
    · cases h
    · cases h
    · cases h
    · next ds hne =>
      obtain ⟨hdigits, rfl, hle⟩ := (hgrow _).1 h
      exact ⟨_, rfl, ⟨['+'], ds, rfl, .inr rfl, hne, hdigits, rfl⟩, Int.ofNat_le.1 hle⟩
    · cases h
    · next hne _ _ _ _ =>
      obtain ⟨hdigits, rfl, hle⟩ := (hgrow _).1 h
      exact ⟨_, rfl, ⟨[], cs, rfl, .inl rfl, hne, hdigits, rfl⟩, Int.ofNat_le.1 hle⟩
  · rintro ⟨n, rfl, ⟨plus, digits, rfl, hplus, hne, hdigits, rfl⟩, hle⟩
    have hvalue := (hgrow digits).2 ⟨hdigits, rfl, Int.ofNat_le.2 hle⟩
    obtain ⟨c, ds, rfl⟩ := List.exists_cons_of_ne_nil hne
    rcases hplus with rfl | rfl
    · obtain ⟨hplus, hminus⟩ := ne_sign_of_isDigit (hdigits c (by simp))
      rw [List.nil_append, bounded, hvalue] <;> simp [hplus, hminus]
    · rw [List.singleton_append, bounded, hvalue]
      nofun

/-- **The texts of natural numbers within the bound are those that are written so.** -/
theorem unsigned_eq_ok_iff {bits n : Nat} {cs : List Char} :
    unsigned bits cs = .ok n ↔ WritesNatural n cs ∧ n < 2 ^ bits := by
  have hbound : (2 ^ bits - 1 : Int) = (2 ^ bits - 1 : Nat) := by
    rw [Int.natCast_sub Nat.one_le_two_pow, Int.natCast_pow]
    rfl
  rw [unsigned, hbound, map_eq_ok_iff]
  simp only [bounded_eq_ok_iff]
  have := Nat.two_pow_pos bits
  constructor
  · rintro ⟨_, ⟨m, rfl, hm, hle⟩, rfl⟩
    exact ⟨hm, Nat.lt_of_le_pred this hle⟩
  · rintro ⟨hn, hlt⟩
    exact ⟨n, ⟨n, rfl, hn, Nat.le_pred_of_lt hlt⟩, rfl⟩

end Reckon.Decimal

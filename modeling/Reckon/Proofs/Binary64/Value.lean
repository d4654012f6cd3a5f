import Mathlib
import Reckon.Binary64.Integral
import Reckon.Proofs.Number.Order

/-!
# Proofs/Binary64/Value — doubles as rational numbers

The bits of a double say what it is, sign, mantissa and exponent, in the same words as the double that
is taken apart (`Binary64.value?_eq_fraction?`).  A finite one **is a rational number**
(`Binary64.toRat`), and **finite doubles compare as rational numbers do**
(`Binary64.compare_eq_compare_toRat`), the two zeros as one.
-/

namespace Reckon.Binary64

open Float.Model (Format UnpackedFloat)
open Float.Model.UnpackedFloat

/-! ## The fields of a double -/

section Fields

variable (b : BitVec Format.binary64.numBits)

theorem toNat_unpackExponent : (unpackExponent b).toNat = b.toNat / 2 ^ 52 % 2 ^ 11 := by
  simp [unpackExponent, Nat.shiftRight_eq_div_pow]

theorem toNat_unpackMantissa : (unpackMantissa b).toNat = b.toNat % 2 ^ 52 := by
  simp [unpackMantissa]

theorem toNat_unpackSign : (unpackSign b).toNat = b.toNat / 2 ^ 63 := by
  have hb : b.toNat < 2 ^ 64 := b.isLt
  simp only [unpackSign, BitVec.toNat_cast, BitVec.extractLsb, BitVec.extractLsb'_toNat,
    Nat.shiftRight_eq_div_pow]
  exact Nat.mod_eq_of_lt (by omega)

theorem ofBitVec_unpackSign :
    Sign.ofBitVec (unpackSign b) = if 2 ^ 63 ≤ b.toNat then .negative else .positive := by
  have hb : b.toNat < 2 ^ 64 := b.isLt
  have hzero : unpackSign b = 0#1 ↔ ¬ 2 ^ 63 ≤ b.toNat := by
    rw [← BitVec.toNat_inj, toNat_unpackSign, BitVec.toNat_ofNat]
    omega
  simp only [Sign.ofBitVec, hzero, ite_not]

/-- The leading bit of the mantissa is not written down. -/
theorem toNat_one_append : (1#1 ++ unpackMantissa b).toNat = 2 ^ 52 + b.toNat % 2 ^ 52 := by
  have hlt : (unpackMantissa b).toNat < 2 ^ 52 := (unpackMantissa b).isLt
  rw [BitVec.toNat_append, ← Nat.shiftLeft_add_eq_or_of_lt hlt, toNat_unpackMantissa]
  rfl

/-- The fields of a double, put together again. -/
theorem packComponents_fields :
    packComponents Format.binary64 (Sign.ofBitVec (unpackSign b)) (unpackExponent b)
      (unpackMantissa b) = b := by
  have hsign : (Sign.ofBitVec (unpackSign b)).toBitVec = unpackSign b := by
    rcases BitVec.eq_zero_or_eq_one (unpackSign b) with h | h <;> rw [h] <;> rfl
  rw [packComponents, hsign]
  simp only [unpackSign, unpackExponent, unpackMantissa, BitVec.extractLsb]
  ext i hi
  grind

end Fields

/-- **A finite double that is taken apart and put together again is as before.** -/
theorem pack_unpack {b : BitVec Format.binary64.numBits} (h : unpackExponent b ≠ -1#_) :
    pack Format.binary64 (unpack Format.binary64 b) = b := by
  have hfields := packComponents_fields b
  have hlow : (unpackMantissa b).toNat < 2 ^ 52 := (unpackMantissa b).isLt
  have hfield : (unpackExponent b).toNat < 2 ^ 11 := (unpackExponent b).isLt
  have hne : (unpackExponent b).toNat ≠ 2047 := fun heq => h (BitVec.eq_of_toNat_eq heq)
  rw [unpack, if_neg h]
  split_ifs with hzero hnone
  · rw [hzero, hnone] at hfields
    exact hfields
  -- the mantissa of a small double is too short for the leading bit to be implied
  · have hpos : (unpackMantissa b).toNat ≠ 0 := fun heq => hnone (BitVec.eq_of_toNat_eq heq)
    have hlog : (unpackMantissa b).toNat.log2 < 52 := (Nat.log2_lt hpos).2 hlow
    have hbits : (unpackMantissa b).toNat.log2 + 1 ≠ Format.binary64.mantissaBits := by
      change _ ≠ 1 + 52
      omega
    rw [pack]
    simp only [if_neg hbits]
    rw [if_neg (by rw [hzero]; decide), BitVec.ofNat_toNat, BitVec.setWidth_eq, ← hzero]
    exact hfields
  · have happ := toNat_one_append b
    have hlog : (1#1 ++ unpackMantissa b).toNat.log2 = 52 :=
      (Nat.log2_eq_iff (by omega)).2 (by omega)
    have hbiased : (((unpackExponent b).toNat : Int) - (Format.binary64.exponentBias +
        Format.binary64.mantissaBitsWithoutImplicit) + Format.binary64.exponentBias +
        Format.binary64.mantissaBitsWithoutImplicit).toNat = (unpackExponent b).toNat := by
      omega
    have hmantissa : BitVec.ofNat 52 (1#1 ++ unpackMantissa b).toNat = unpackMantissa b := by
      refine BitVec.eq_of_toNat_eq ?_
      rw [BitVec.toNat_ofNat, happ, toNat_unpackMantissa]
      omega
    rw [pack]
    simp only [hbiased, hlog]
    rw [if_neg (by omega), if_pos (by rfl : 52 + 1 = Format.binary64.mantissaBits),
      BitVec.ofNat_toNat, BitVec.setWidth_eq, hmantissa]
    exact hfields

/-- The double of some bits has those bits, if they are not those of a NaN or an infinity. -/
theorem toBits_ofBits {w : UInt64} (h : w.toNat / 2 ^ 52 % 2 ^ 11 ≠ 2 ^ 11 - 1) :
    (Float.ofBits w).toBits = w := by
  have hexponent : @unpackExponent Format.binary64 w.toBitVec ≠ -1#_ := by
    intro heq
    have hones := congrArg BitVec.toNat heq
    rw [toNat_unpackExponent] at hones
    exact h hones
  change UInt64.ofBitVec (pack Format.binary64 (unpack Format.binary64 w.toBitVec)) = w
  rw [pack_unpack hexponent]

/-- The fraction of a double that has been taken apart. -/
def fraction? : UnpackedFloat → Option Fraction
  | .finite s m e _ => some ⟨s == .negative, m, e⟩
  | .zero s => some ⟨s == .negative, 0, -1074⟩
  | .infinity _ | .notANumber => none

/-- **The bits of a double say what the double is**, sign, mantissa and exponent. -/
theorem value?_eq_fraction? (x : Float) : value? x = fraction? x.toModel.unpack := by
  let b : BitVec Format.binary64.numBits := x.toModel.toBits.toBitVec
  change value? x = fraction? (UnpackedFloat.unpack Format.binary64 b)
  have hbits : x.toBits.toNat = b.toNat := rfl
  have hfield := toNat_unpackExponent b
  have hlow := toNat_unpackMantissa b
  have hones : unpackExponent b = -1#_ ↔ b.toNat / 2 ^ 52 % 2 ^ 11 = 2 ^ 11 - 1 := by
    rw [← hfield, ← BitVec.toNat_inj]
    rfl
  have hzero : unpackExponent b = 0#_ ↔ b.toNat / 2 ^ 52 % 2 ^ 11 = 0 := by
    rw [← hfield, ← BitVec.toNat_inj]
    rfl
  have hnone : unpackMantissa b = 0#_ ↔ b.toNat % 2 ^ 52 = 0 := by
    rw [← hlow, ← BitVec.toNat_inj]
    rfl
  have hsign : (Sign.ofBitVec (unpackSign b) == .negative) = decide (2 ^ 63 ≤ b.toNat) := by
    rw [ofBitVec_unpackSign]
    split_ifs with h
    · rw [decide_eq_true h]
      rfl
    · rw [decide_eq_false h]
      rfl
  rw [value?, hbits, UnpackedFloat.unpack]
  simp only [hones, hzero, hnone]
  split_ifs with hall hinf h0 h00
  · rfl
  · rfl
  · simp only [fraction?, hsign, h00]
  · simp only [fraction?, hsign, hlow, hfield, h0]
    rfl
  · rw [fraction?, hsign, hfield]
    exact congrArg (fun m => some (Fraction.mk _ m _)) (toNat_one_append b).symm

theorem isFinite_iff {x : Float} : x.isFinite = true ↔ ∃ f, value? x = some f := by
  change x.toModel.unpack.isFinite = true ↔ _
  rw [value?_eq_fraction?]
  cases x.toModel.unpack <;> simp [UnpackedFloat.isFinite, fraction?]

/-! ## The rational number that a double is -/

/-- The fraction as a rational number. -/
def Fraction.toRat (f : Fraction) : ℚ := f.numerator / f.denominator

/-- The rational number that a finite double is; zero for any other. -/
def toRat (x : Float) : ℚ := ((value? x).map Fraction.toRat).getD 0

theorem two_zpow (e : ℤ) : (2 : ℚ) ^ e = 2 ^ e.toNat / 2 ^ (-e).toNat := by
  cases e with
  | ofNat n => simp
  | negSucc n =>
    rw [zpow_negSucc, Int.toNat_negSucc, Int.neg_negSucc, Int.toNat_natCast, pow_zero, one_div]

theorem Fraction.toRat_eq (f : Fraction) :
    f.toRat = (if f.negative then -1 else 1) * f.mantissa * 2 ^ f.exponent := by
  rw [toRat, numerator, denominator, two_zpow]
  split <;> push_cast <;> ring

/-- The mantissa of a double has fifty-three bits, or fewer at the least exponent. -/
structure Canonical (m : Nat) (e : Int) : Prop where
  lt : m < 2 ^ 53
  least : -1074 ≤ e
  normal : 2 ^ 52 ≤ m ∨ e = -1074

theorem canonical_of_value? {x : Float} {f : Fraction} (h : value? x = some f) :
    Canonical f.mantissa f.exponent := by
  simp only [value?] at h
  split_ifs at h with hall hzero
  all_goals
    obtain rfl := Option.some.inj h
    constructor <;> dsimp only <;> omega

/-- Canonical pairs ascend, the exponent first, as the numbers that they stand for. -/
theorem Canonical.mul_zpow_lt {m n : Nat} {e f : Int} (h : Canonical m e) (h' : Canonical n f)
    (hlt : e < f ∨ e = f ∧ m < n) : (m : ℚ) * 2 ^ e < n * 2 ^ f := by
  rcases hlt with hlt | ⟨rfl, hlt⟩
  · have hn : 2 ^ 52 ≤ n := h'.normal.resolve_right (by have := h.least; omega)
    calc (m : ℚ) * 2 ^ e < 2 ^ 53 * 2 ^ e :=
          mul_lt_mul_of_pos_right (by exact_mod_cast h.lt) (by positivity)
      _ = 2 ^ 52 * 2 ^ (e + 1) := by rw [zpow_add_one₀ (by norm_num)]; ring
      _ ≤ 2 ^ 52 * 2 ^ f :=
          mul_le_mul_of_nonneg_left (zpow_le_zpow_right₀ (by norm_num) hlt) (by positivity)
      _ ≤ n * 2 ^ f := mul_le_mul_of_nonneg_right (by exact_mod_cast hn) (by positivity)
  · exact mul_lt_mul_of_pos_right (by exact_mod_cast hlt) (by positivity)

/-! ## The order of doubles is that of rational numbers -/

/-- The place of a finite double among the others, and the number that stands there. -/
inductive Places : Int ×ₗ Int ×ₗ Int → ℚ → Prop where
  | negative {m : Nat} {e : Int} (hm : 0 < m) (h : Canonical m e) :
      Places (toLex (-1, toLex (-e, -m))) (-(m * 2 ^ e))
  | zero : Places (toLex (0, toLex (0, 0))) 0
  | positive {m : Nat} {e : Int} (hm : 0 < m) (h : Canonical m e) :
      Places (toLex (1, toLex (e, m))) (m * 2 ^ e)

theorem exists_places {x : Float} (h : x.isFinite = true) :
    ∃ a, rank x.toModel.unpack = some a ∧ Places a (toRat x) := by
  have hvalue := value?_eq_fraction? x
  have h : x.toModel.unpack.isFinite = true := h
  rw [toRat]
  cases hx : x.toModel.unpack with
  | infinity s => simp [hx, UnpackedFloat.isFinite] at h
  | notANumber => simp [hx, UnpackedFloat.isFinite] at h
  | zero s =>
    rw [hx] at hvalue
    refine ⟨_, rfl, ?_⟩
    rw [hvalue]
    simpa [fraction?, Fraction.toRat_eq] using Places.zero
  | finite s m e hm =>
    rw [hx] at hvalue
    have hcanonical := canonical_of_value? hvalue
    rw [hvalue]
    cases s with
    | negative =>
      have hsign : (Sign.negative == Sign.negative) = true := rfl
      refine ⟨_, rfl, ?_⟩
      simpa [fraction?, Fraction.toRat_eq, hsign] using Places.negative hm hcanonical
    | positive =>
      have hsign : (Sign.positive == Sign.negative) = false := rfl
      refine ⟨_, rfl, ?_⟩
      simpa [fraction?, Fraction.toRat_eq, hsign] using Places.positive hm hcanonical

namespace Places

variable {a b : Int ×ₗ Int ×ₗ Int} {p q : ℚ}

theorem congr (ha : Places a p) (hb : Places b q) (hab : a = b) : p = q := by
  cases ha <;> cases hb <;> simp_all

/-- **At a later place stands a greater number.** -/
theorem lt (ha : Places a p) (hb : Places b q) (hlt : a < b) : p < q := by
  cases ha with
  | negative hm h =>
    cases hb with
    | negative hn h' =>
      refine neg_lt_neg (h'.mul_zpow_lt h ?_)
      simpa [Prod.Lex.lt_iff, eq_comm] using hlt
    | zero => exact neg_neg_of_pos (by positivity)
    | positive hn h' => exact (neg_neg_of_pos (by positivity)).trans (by positivity)
  | zero =>
    cases hb with
    | negative hn h' => simp [Prod.Lex.lt_iff] at hlt
    | zero => exact absurd hlt (lt_irrefl _)
    | positive hn h' => positivity
  | positive hm h =>
    cases hb with
    | negative hn h' => simp [Prod.Lex.lt_iff] at hlt
    | zero => simp [Prod.Lex.lt_iff] at hlt
    | positive hn h' =>
      refine h.mul_zpow_lt h' ?_
      simpa [Prod.Lex.lt_iff] using hlt

theorem compare_eq (ha : Places a p) (hb : Places b q) : compare a b = compare p q := by
  rcases lt_trichotomy a b with hlt | heq | hgt
  · rw [compare_lt_iff_lt.2 hlt, compare_lt_iff_lt.2 (ha.lt hb hlt)]
  · rw [compare_eq_iff_eq.2 heq, compare_eq_iff_eq.2 (ha.congr hb heq)]
  · rw [compare_gt_iff_gt.2 hgt, compare_gt_iff_gt.2 (hb.lt ha hgt)]

end Places

/-- **Finite doubles compare as rational numbers.** -/
theorem compare_eq_compare_toRat {x y : Float} (hx : x.isFinite = true) (hy : y.isFinite = true) :
    x.toModel.unpack.compare y.toModel.unpack = some (compare (toRat x) (toRat y)) := by
  obtain ⟨a, ha, hax⟩ := exists_places hx
  obtain ⟨b, hb, hby⟩ := exists_places hy
  rw [compare_eq_compare_rank, ha, hb, ← hax.compare_eq hby]
  rfl

end Reckon.Binary64

import Reckon.Proofs.Binary64.Value

/-!
# Proofs/Binary64/Rounding — when a quotient becomes a finite double

A quotient is counted in units that leave its mantissa fifty-three bits (`Binary64.UnitsOf`).  **It
becomes the double of so many units** (`Binary64.exists_value?_nearest`), and **a finite one iff it is
below halfway from the greatest double to `2 ^ 1024`** (`Binary64.isFinite_nearest_iff`): the units
that round up to the next power of two carry, and from there on what carries is infinite.
-/

namespace Reckon.Binary64

/-! ## Rounding to a natural number -/

variable {num den k : Nat}

theorem divideToEven_cases (num den : Nat) :
    (divideToEven num den = num / den ∧ 2 * (num % den) ≤ den) ∨
      (divideToEven num den = num / den + 1 ∧ den ≤ 2 * (num % den)) := by
  rw [divideToEven]
  split
  · next h => exact .inl ⟨rfl, (Nat.compare_eq_lt.1 h).le⟩
  · next h => exact .inr ⟨rfl, (Nat.compare_eq_gt.1 h).le⟩
  · next h =>
    have heq := Nat.compare_eq_eq.1 h
    split
    · exact .inl ⟨rfl, heq.le⟩
    · exact .inr ⟨rfl, heq.ge⟩

/-- Above an odd number, halfway is far enough for the next one. -/
theorem divideToEven_of_odd (hodd : num / den % 2 = 1) (hhalf : den ≤ 2 * (num % den)) :
    divideToEven num den = num / den + 1 := by
  rw [divideToEven]
  split
  · next h =>
    have := Nat.compare_eq_lt.1 h
    omega
  · rfl
  · rw [if_neg (by omega)]

theorem le_divideToEven (hden : 0 < den) (h : k * den ≤ num) : k ≤ divideToEven num den := by
  have hk : k ≤ num / den := (Nat.le_div_iff_mul_le hden).2 h
  rcases divideToEven_cases num den with ⟨hr, -⟩ | ⟨hr, -⟩ <;> omega

theorem divideToEven_le (hden : 0 < den) (h : num ≤ k * den) : divideToEven num den ≤ k := by
  have hmod := Nat.div_add_mod' num den
  rcases divideToEven_cases num den with ⟨hr, -⟩ | ⟨hr, hrest⟩
  · rw [hr]
    exact Nat.div_le_of_le_mul (by rwa [Nat.mul_comm])
  · have hlt : num / den * den < k * den := by omega
    rw [hr]
    exact Nat.lt_of_mul_lt_mul_right hlt

/-- **An even number is reached from halfway below it on**, as ties go to it. -/
theorem lt_divideToEven_iff_of_odd (hden : 0 < den) (hodd : k % 2 = 1) :
    k < divideToEven num den ↔ (2 * k + 1) * den ≤ 2 * num := by
  have hmod := Nat.div_add_mod' num den
  have hrest := Nat.mod_lt num hden
  have hhalf : (2 * k + 1) * den = 2 * (k * den) + den := by ring
  rcases lt_trichotomy (num / den) k with hlt | heq | hgt
  · have hle : (num / den + 1) * den ≤ k * den := Nat.mul_le_mul_right den hlt
    have hnum : num ≤ k * den := by
      rw [Nat.succ_mul] at hle
      omega
    have := divideToEven_le hden hnum
    omega
  · rw [heq] at hmod
    constructor
    · intro h
      rcases divideToEven_cases num den with ⟨hr, -⟩ | ⟨hr, hle⟩ <;> omega
    · intro h
      rw [divideToEven_of_odd (by omega) (by omega)]
      omega
  · have hle : (k + 1) * den ≤ num := (Nat.mul_le_mul_right den hgt).trans (Nat.div_mul_le_self ..)
    have hlt := le_divideToEven hden hle
    rw [Nat.succ_mul] at hle
    omega

/-! ## The exponent of a quotient -/

theorem quotient_inUnits (num den : Nat) (e : Int) :
    ((num * 2 ^ (-e).toNat : Nat) : ℚ) / (den * 2 ^ e.toNat : Nat) = num / den / 2 ^ e := by
  rw [two_zpow]
  push_cast
  field_simp

/-- A quotient is less than a power of two if it is less than one in units of it. -/
theorem lt_zpow_iff (hden : 0 < den) (e : Int) :
    (num : ℚ) / den < 2 ^ e ↔ num * 2 ^ (-e).toNat < den * 2 ^ e.toNat := by
  have hpos : (0 : ℚ) < (den * 2 ^ e.toNat : Nat) := by positivity
  rw [← div_lt_one (by positivity : (0 : ℚ) < 2 ^ e), ← quotient_inUnits, div_lt_one hpos,
    Nat.cast_lt]

/-- The lengths of numerator and denominator tell the quotient but for a factor of two. -/
theorem zpow_log2_le (hnum : num ≠ 0) (hden : 0 < den) :
    (2 : ℚ) ^ ((num.log2 : Int) - den.log2 - 1) ≤ num / den ∧
      (num : ℚ) / den < 2 ^ ((num.log2 : Int) - den.log2 + 1) := by
  have hlow : (2 : ℚ) ^ num.log2 ≤ num := by exact_mod_cast Nat.log2_self_le hnum
  have hhigh : (num : ℚ) < 2 ^ (num.log2 + 1) := by exact_mod_cast Nat.lt_log2_self
  have hlow' : (2 : ℚ) ^ den.log2 ≤ den := by exact_mod_cast Nat.log2_self_le hden.ne'
  have hhigh' : (den : ℚ) < 2 ^ (den.log2 + 1) := by exact_mod_cast Nat.lt_log2_self
  have hpos : (0 : ℚ) < den := by exact_mod_cast hden
  constructor
  · calc (2 : ℚ) ^ ((num.log2 : Int) - den.log2 - 1)
        = 2 ^ num.log2 / 2 ^ (den.log2 + 1) := by
          rw [sub_sub, zpow_sub₀ (by norm_num), zpow_natCast, ← Nat.cast_succ, zpow_natCast]
      _ ≤ num / den := div_le_div₀ (by positivity) hlow hpos hhigh'.le
  · calc (num : ℚ) / den < 2 ^ (num.log2 + 1) / 2 ^ den.log2 :=
          div_lt_div₀ hhigh hlow' (by positivity) (by positivity)
      _ = 2 ^ ((num.log2 : Int) - den.log2 + 1) := by
          rw [sub_add_eq_add_sub, zpow_sub₀ (by norm_num), zpow_natCast, ← Nat.cast_succ,
            zpow_natCast]

/-- The quotient has fifty-three bits in units of `2 ^ e`, or fewer at the least exponent. -/
structure UnitsOf (num den : Nat) (e : Int) : Prop where
  least : -1074 ≤ e
  lt : (num : ℚ) / den < 2 ^ (e + 53)
  normal : (2 : ℚ) ^ (e + 52) ≤ num / den ∨ e = -1074

theorem unitsOf_max {e : Int} (hlow : (2 : ℚ) ^ e ≤ num / den)
    (hhigh : (num : ℚ) / den < 2 ^ (e + 1)) : UnitsOf num den (max (-1074) (e - 52)) := by
  refine ⟨le_max_left .., hhigh.trans_le (zpow_le_zpow_right₀ (by norm_num) (by omega)), ?_⟩
  rcases le_total (e - 52) (-1074) with h | h
  · exact .inr (max_eq_left h)
  · rw [max_eq_right h, sub_add_cancel]
    exact .inl hlow

theorem unitsOf_unitExponent (hden : 0 < den) : UnitsOf num den (unitExponent num den) := by
  rw [unitExponent]
  split
  · next h =>
    subst h
    exact ⟨le_rfl, by simp only [Nat.cast_zero, zero_div]; positivity, .inr rfl⟩
  · next hnum =>
    obtain ⟨hlow, hhigh⟩ := zpow_log2_le hnum hden
    dsimp only
    split
    · next h => exact unitsOf_max hlow (by rwa [sub_add_cancel, lt_zpow_iff hden])
    · next h => exact unitsOf_max (le_of_not_gt fun hlt => h ((lt_zpow_iff hden _).1 hlt)) hhigh

/-! ## The nearest double -/

theorem le_inUnits (hden : 0 < den) {e : Int} (h : (k : ℚ) * 2 ^ e ≤ num / den) :
    k ≤ inUnits num den e := by
  have hpos : (0 : ℚ) < (den * 2 ^ e.toNat : Nat) := by positivity
  rw [← le_div_iff₀ (by positivity), ← quotient_inUnits, le_div_iff₀ hpos] at h
  exact le_divideToEven (by positivity) (by exact_mod_cast h)

theorem inUnits_le (hden : 0 < den) {e : Int} (h : (num : ℚ) / den ≤ k * 2 ^ e) :
    inUnits num den e ≤ k := by
  have hpos : (0 : ℚ) < (den * 2 ^ e.toNat : Nat) := by positivity
  rw [← div_le_iff₀ (by positivity), ← quotient_inUnits, div_le_iff₀ hpos] at h
  exact divideToEven_le (by positivity) (by exact_mod_cast h)

theorem lt_inUnits_iff_of_odd (hden : 0 < den) {e : Int} (hodd : k % 2 = 1) :
    k < inUnits num den e ↔ (2 * k + 1) * (2 : ℚ) ^ e ≤ 2 * (num / den) := by
  have hpos : (0 : ℚ) < (den * 2 ^ e.toNat : Nat) := by positivity
  rw [← le_div_iff₀ (by positivity), mul_div_assoc, ← quotient_inUnits, ← mul_div_assoc,
    le_div_iff₀ hpos]
  exact (lt_divideToEven_iff_of_odd (by positivity) hodd).trans (by exact_mod_cast Iff.rfl)

namespace UnitsOf

variable {e : Int}

theorem inUnits_le (h : UnitsOf num den e) (hden : 0 < den) : inUnits num den e ≤ 2 ^ 53 := by
  refine Binary64.inUnits_le hden ?_
  have hlt := h.lt
  rw [zpow_add₀ (by norm_num), mul_comm] at hlt
  exact_mod_cast hlt.le

theorem le_inUnits (h : UnitsOf num den e) (hden : 0 < den) :
    2 ^ 52 ≤ inUnits num den e ∨ e = -1074 := by
  refine h.normal.imp_left fun hle => Binary64.le_inUnits hden ?_
  rw [zpow_add₀ (by norm_num), mul_comm] at hle
  exact_mod_cast hle

end UnitsOf

/-- The bits of a mantissa in units of `2 ^ (units - 1074)`, one that has carried included. -/
theorem exists_value?_ofBits (negative : Bool) {units mantissa : Nat} (hle : mantissa ≤ 2 ^ 53)
    (hnormal : 2 ^ 52 ≤ mantissa ∨ units = 0)
    (hlt : 2 ^ 52 * units + mantissa < 2 ^ 52 * (2 ^ 11 - 1)) :
    ∃ f, value? (.ofBits (.ofNat ((if negative then 2 ^ 63 else 0) + (2 ^ 52 * units + mantissa)))) =
        some f ∧
      f.toRat = (if negative then -1 else 1) * mantissa * 2 ^ (units - 1074 : Int) := by
  generalize hw : (if negative then 2 ^ 63 else 0) + (2 ^ 52 * units + mantissa) = w
  have hword : (UInt64.ofNat w).toNat = w := by
    rw [UInt64.toNat_ofNat']
    split at hw <;> omega
  have hfield : w / 2 ^ 52 % 2 ^ 11 = (2 ^ 52 * units + mantissa) / 2 ^ 52 := by
    split at hw <;> omega
  have hlow : w % 2 ^ 52 = mantissa % 2 ^ 52 := by
    split at hw <;> omega
  have hsign : decide (2 ^ 63 ≤ w) = negative := by
    cases negative <;> simp at hw ⊢ <;> omega
  have hne : w / 2 ^ 52 % 2 ^ 11 ≠ 2 ^ 11 - 1 := by omega
  have hvalue : value? (.ofBits (.ofNat w)) =
      if (2 ^ 52 * units + mantissa) / 2 ^ 52 = 0 then some ⟨negative, mantissa % 2 ^ 52, -1074⟩
      else some ⟨negative, 2 ^ 52 + mantissa % 2 ^ 52,
        ((2 ^ 52 * units + mantissa) / 2 ^ 52 : Nat) - 1075⟩ := by
    rw [value?, toBits_ofBits (by rwa [hword]), hword, hlow, hsign]
    simp only [if_neg hne]
    rw [hfield]
  rw [hvalue]
  rcases lt_or_ge mantissa (2 ^ 52) with hsmall | hlarge
  · obtain rfl : units = 0 := by omega
    rw [if_pos (by omega)]
    refine ⟨_, rfl, ?_⟩
    rw [Fraction.toRat_eq, Nat.mod_eq_of_lt hsmall]
    norm_num
  · rw [if_neg (by omega)]
    refine ⟨_, rfl, ?_⟩
    rw [Fraction.toRat_eq]
    dsimp only
    -- A mantissa rounded up to `2 ^ 53` carries into the exponent field, and leaves zero behind.
    rcases hle.lt_or_eq with hlt | rfl
    · rw [show (2 ^ 52 * units + mantissa) / 2 ^ 52 = units + 1 by omega,
        show 2 ^ 52 + mantissa % 2 ^ 52 = mantissa by omega]
      congr 2
      push_cast
      ring
    · rw [show (2 ^ 52 * units + 2 ^ 53) / 2 ^ 52 = units + 2 by omega,
        show ((units + 2 : Nat) : Int) - 1075 = units - 1074 + 1 by push_cast; ring,
        zpow_add_one₀ (by norm_num)]
      push_cast
      ring

/-- A quotient's units, cut off at infinity. -/
theorem nearestBits_eq (num den : Nat) :
    nearestBits num den = min (2 ^ 52 * (unitExponent num den + 1074).toNat +
      inUnits num den (unitExponent num den)) (2 ^ 52 * (2 ^ 11 - 1)) := rfl

/-- The least quotient that becomes an infinity: halfway from the greatest double to `2 ^ 1024`. -/
def overflow : ℚ := 2 ^ 1024 - 2 ^ 970

theorem overflow_eq : overflow = (2 ^ 54 - 1) * 2 ^ (970 : Int) := by
  have hpow : (2 : ℚ) ^ 1024 = 2 ^ 54 * 2 ^ 970 := by rw [← pow_add]
  have hcast : (2 : ℚ) ^ (970 : Int) = 2 ^ 970 := zpow_natCast 2 970
  rw [overflow, hpow, sub_one_mul, hcast]

/-- **The units are cut off at infinity from the overflow on.** -/
theorem UnitsOf.fits_iff {e : Int} (h : UnitsOf num den e) (hden : 0 < den) :
    2 ^ 52 * (e + 1074).toNat + inUnits num den e < 2 ^ 52 * (2 ^ 11 - 1) ↔
      (num : ℚ) / den < overflow := by
  have hleast := h.least
  have hle := h.inUnits_le hden
  have hpos : (0 : ℚ) < 2 ^ (970 : Int) := by positivity
  rw [overflow_eq]
  -- `971` is the greatest exponent of a finite double: only there does the rounding decide.
  rcases lt_trichotomy e 971 with hlt | rfl | hgt
  · have hquotient : (num : ℚ) / den < 2 ^ 53 * 2 ^ (970 : Int) := by
      refine h.lt.trans_le ?_
      rw [← zpow_natCast, ← zpow_add₀ (by norm_num)]
      exact zpow_le_zpow_right₀ (by norm_num) (by push_cast; omega)
    refine iff_of_true (by omega) (hquotient.trans (mul_lt_mul_of_pos_right (by norm_num) hpos))
  · have hodd : 2 ^ 53 - 1 < inUnits num den 971 ↔
        (2 * (2 ^ 53 - 1 : Nat) + 1) * (2 : ℚ) ^ (971 : Int) ≤ 2 * (num / den) :=
      lt_inUnits_iff_of_odd hden (by decide)
    have hsucc : (2 : ℚ) ^ (971 : Int) = 2 ^ (970 : Int) * 2 := zpow_add_one₀ (by norm_num) 970
    rw [hsucc] at hodd
    have hiff : (num : ℚ) / den < (2 ^ 54 - 1) * 2 ^ (970 : Int) ↔
        ¬ 2 ^ 53 - 1 < inUnits num den 971 := by
      rw [hodd, not_le]
      generalize (2 : ℚ) ^ (970 : Int) = unit
      push_cast
      constructor <;> intro hlt <;> linarith
    rw [hiff]
    change 2 ^ 52 * 2045 + _ < _ ↔ _
    omega
  · have hunits : 2 ^ 52 ≤ inUnits num den e := (h.le_inUnits hden).resolve_right (by omega)
    have hquotient : (2 : ℚ) ^ 54 * 2 ^ (970 : Int) ≤ num / den := by
      refine le_trans ?_ (h.normal.resolve_right (by omega))
      rw [← zpow_natCast, ← zpow_add₀ (by norm_num)]
      exact zpow_le_zpow_right₀ (by norm_num) (by push_cast; omega)
    refine iff_of_false (by omega) (not_lt.2 (le_trans ?_ hquotient))
    exact mul_le_mul_of_nonneg_right (by norm_num) hpos.le

/-- **A quotient below the overflow becomes its count of units.** -/
theorem exists_value?_nearest (negative : Bool) (hden : 0 < den) (h : (num : ℚ) / den < overflow) :
    ∃ f, value? (nearest negative num den) = some f ∧
      f.toRat = (if negative then -1 else 1) * inUnits num den (unitExponent num den) *
        2 ^ unitExponent num den := by
  have hunits : UnitsOf num den _ := unitsOf_unitExponent hden
  have hfits := (hunits.fits_iff hden).2 h
  have hleast := hunits.least
  have hnormal := (hunits.le_inUnits hden).imp_right
    fun heq => show (unitExponent num den + 1074).toNat = 0 by omega
  have hvalue := exists_value?_ofBits negative (hunits.inUnits_le hden) hnormal hfits
  rw [nearest, nearestBits_eq, Nat.min_eq_left hfits.le]
  rwa [Int.toNat_of_nonneg (by omega), add_sub_cancel_right] at hvalue

/-- **A quotient becomes a finite double iff it is below the overflow.** -/
theorem isFinite_nearest_iff (negative : Bool) (hden : 0 < den) :
    (nearest negative num den).isFinite = true ↔ (num : ℚ) / den < overflow := by
  constructor
  · intro hfinite
    by_contra h
    have hcut := (Nat.not_lt.1 fun hfits => h (((unitsOf_unitExponent hden).fits_iff hden).1 hfits))
    rw [nearest, nearestBits_eq, Nat.min_eq_right hcut] at hfinite
    cases negative <;> revert hfinite <;> decide +kernel
  · intro h
    obtain ⟨f, hf, -⟩ := exists_value?_nearest negative hden h
    exact isFinite_iff.2 ⟨f, hf⟩

/-- **A double of a quotient that is so many units is the quotient.** -/
theorem toRat_nearest (negative : Bool) (hden : 0 < den) (h : (num : ℚ) / den < overflow)
    (hexact : (inUnits num den (unitExponent num den) : ℚ) * 2 ^ unitExponent num den = num / den) :
    toRat (nearest negative num den) = (if negative then -1 else 1) * (num / den) := by
  obtain ⟨f, hf, hvalue⟩ := exists_value?_nearest negative hden h
  rw [toRat, hf, Option.map_some, Option.getD_some, hvalue, mul_assoc, hexact]

end Reckon.Binary64

import Reckon.Proofs.Binary64.Rounding
import Reckon.Proofs.Number.Finite

/-!
# Proofs/Number/ByValue — where equality and order go by value

A number is a rational number (`Number.value`), and **numbers whose doubles lose nothing compare by
it** (`Number.IsExact.order?_eq`); integers up to `2 ^ 53` are among them
(`Number.isExact_integer`).  An integer beyond is compared with a double through its own double, so
two integers may be equal to one double.  **This is the only way in which equality fails to be
transitive, and it respects the order wherever doubles keep the order of integers**
(`Number.compares_by_value`).
-/

namespace Reckon

/-! ## Integers that doubles hold exactly -/

namespace Binary64

variable {num den k : Nat}

/-- A quotient that is a whole number of units is that many units. -/
theorem inUnits_eq (hden : 0 < den) {e : Int} (h : (num : ℚ) / den = k * 2 ^ e) :
    inUnits num den e = k :=
  Nat.le_antisymm (inUnits_le hden h.le) (le_inUnits hden h.ge)

/-- A natural number up to `2 ^ 53` is a whole number of its units. -/
theorem UnitsOf.exists_eq {e : Int} (h : UnitsOf num 1 e) (hnum : num ≤ 2 ^ 53) :
    ∃ k : Nat, (num : ℚ) / (1 : Nat) = k * 2 ^ e := by
  rw [Nat.cast_one, div_one]
  rcases le_or_gt e 0 with hle | hgt
  · refine ⟨num * 2 ^ (-e).toNat, ?_⟩
    rw [two_zpow, Int.toNat_of_nonpos hle]
    push_cast
    field_simp
  -- only `2 ^ 53` itself has larger units than one
  · have hlow : (2 : ℚ) ^ (e + 52) ≤ num := by
      simpa using h.normal.resolve_right (by omega)
    have hhigh : (num : ℚ) ≤ 2 ^ (53 : Int) := by exact_mod_cast hnum
    have hone : e = 1 := by
      have := (zpow_le_zpow_iff_right₀ one_lt_two).1 (hlow.trans hhigh)
      omega
    subst hone
    have heq : (num : ℚ) = 2 ^ (53 : Int) := le_antisymm hhigh hlow
    refine ⟨2 ^ 52, ?_⟩
    rw [heq]
    norm_num

theorem two_pow_lt_overflow : (2 : ℚ) ^ 53 < overflow := by
  rw [overflow_eq]
  calc (2 : ℚ) ^ 53 < (2 ^ 54 - 1) * 1 := by norm_num
    _ ≤ (2 ^ 54 - 1) * 2 ^ (970 : Int) :=
      mul_le_mul_of_nonneg_left (one_le_zpow₀ one_le_two (by norm_num)) (by norm_num)

/-- **An integer up to `2 ^ 53` becomes a double without loss.** -/
theorem ofInt_exact {n : Int} (h : n.natAbs ≤ 2 ^ 53) :
    (ofInt n).isFinite = true ∧ toRat (ofInt n) = n := by
  have hword : n.natAbs < 2 ^ wordSize := h.trans_lt (by decide)
  obtain ⟨k, hk⟩ := (unitsOf_unitExponent one_pos).exists_eq h
  have hbelow : (n.natAbs : ℚ) / (1 : Nat) < overflow := by
    have hcast : (n.natAbs : ℚ) ≤ 2 ^ 53 := by exact_mod_cast h
    rw [Nat.cast_one, div_one]
    exact hcast.trans_lt two_pow_lt_overflow
  rw [ofInt, leading_of_lt hword, ite_self]
  refine ⟨(isFinite_nearest_iff _ one_pos).2 hbelow, ?_⟩
  rw [toRat_nearest _ one_pos hbelow (by rw [inUnits_eq one_pos hk, hk]), Nat.cast_one, div_one]
  rcases lt_or_ge n 0 with hneg | hpos
  · rw [decide_eq_true hneg, if_pos rfl, ← Int.cast_natCast, Int.ofNat_natAbs_of_nonpos hneg.le]
    push_cast
    ring
  · rw [decide_eq_false hpos.not_gt, if_neg Bool.false_ne_true, one_mul, ← Int.cast_natCast,
      Int.natAbs_of_nonneg hpos]

end Binary64

namespace Number

/-! ## The order of a pair -/

/-- The order of the two, in which a NaN has no place. -/
def Pair.order? : Pair → Option Ordering
  | .integers m n => some (compare m n)
  | .floats x y => x.toModel.compare y.toModel

variable {a b c : Number}

theorem lt_iff_pair : a < b ↔ (pair a b).order? = some .lt := by
  change Number.lt a b ↔ _
  rw [Number.lt]
  cases pair a b with
  | integers m n => exact compare_lt_iff_lt.symm.trans Option.some_inj.symm
  | floats x y => exact Binary64.lt_iff.trans beq_iff_eq

theorem beq_iff_pair : (a == b) = true ↔ (pair a b).order? = some .eq := by
  change eqv a b = true ↔ _
  rw [eqv]
  cases pair a b with
  | integers m n =>
    have heq : (m == n) = true ↔ compare m n = .eq := by rw [beq_iff_eq, compare_eq_iff_eq]
    exact heq.trans Option.some_inj.symm
  | floats x y => exact (beq_iff_eq : (x.toModel.compare y.toModel == some .eq) = true ↔ _)

theorem order?_floats (x y : Float) : (Pair.floats x y).order? =
    (Binary64.rank x.toModel.unpack).bind fun p =>
      (Binary64.rank y.toModel.unpack).map fun q => compare p q :=
  Binary64.compare_eq_compare_rank ..

theorem order?_floats_swap (x y : Float) :
    (Pair.floats y x).order? = (Pair.floats x y).order?.map .swap := by
  rw [order?_floats, order?_floats]
  rcases Binary64.rank x.toModel.unpack with _ | p <;>
    rcases Binary64.rank y.toModel.unpack with _ | q
  · rfl
  · rfl
  · rfl
  · exact congrArg some Std.OrientedOrd.eq_swap

theorem order?_pair_swap (a b : Number) : (pair b a).order? = (pair a b).order?.map .swap := by
  rcases a with m | x <;> rcases b with n | y
  · exact congrArg some Std.OrientedOrd.eq_swap
  all_goals exact order?_floats_swap ..

/-- **The order of two numbers is that of the pair that they make.** -/
theorem order?_eq_pair (a b : Number) : order? a b = (pair a b).order? := by
  rw [order?]
  simp only [lt_iff_pair, beq_iff_pair, order?_pair_swap a b]
  rcases (pair a b).order? with _ | _ | _ | _ <;> rfl

/-- **Numbers are equal iff they are in the order of equals.** -/
theorem beq_iff_order? : (a == b) = true ↔ order? a b = some .eq := by
  rw [beq_iff_pair, order?_eq_pair]

/-! ## Integers among doubles -/

/-- Both numbers are integers, so neither becomes a double. -/
def BothIntegers (a b : Number) : Prop := a.kind = .integer ∧ b.kind = .integer

instance : DecidableRel BothIntegers := fun a b =>
  inferInstanceAs (Decidable (a.kind = .integer ∧ b.kind = .integer))

/-- As doubles, the two numbers are in the order that they are in. -/
def KeepsOrder (a b : Number) : Prop := order? (float a.toFloat) (float b.toFloat) = order? a b

/-- The place of the number's double among the others, unless it is a NaN. -/
def place? (a : Number) : Option (Int ×ₗ Int ×ₗ Int) := Binary64.rank a.toFloat.toModel.unpack

theorem order?_places (a b : Number) : order? (float a.toFloat) (float b.toFloat) =
    a.place?.bind fun p => b.place?.map fun q => compare p q :=
  (order?_eq_pair ..).trans (order?_floats ..)

theorem exists_integers (h : BothIntegers a b) : ∃ m n, a = integer m ∧ b = integer n := by
  rcases a with m | x
  · rcases b with n | y
    · exact ⟨m, n, rfl, rfl⟩
    · nomatch h.2
  · nomatch h.1

theorem keepsOrder_of_not_bothIntegers (h : ¬ BothIntegers a b) : KeepsOrder a b := by
  have hpair : pair a b = .floats a.toFloat b.toFloat := by
    rcases a with m | x <;> rcases b with n | y
    · exact absurd ⟨rfl, rfl⟩ h
    all_goals rfl
  rw [KeepsOrder, order?_eq_pair, order?_eq_pair a b, hpair]
  rfl

theorem beq_integers {m n : Int} : (integer m == integer n) = true ↔ integer m = integer n := by
  rw [integer.injEq]
  exact (beq_iff_eq : (m == n) = true ↔ m = n)

theorem beq_iff_places (h : ¬ BothIntegers a b) :
    (a == b) = true ↔ ∃ p, a.place? = some p ∧ b.place? = some p := by
  rw [beq_iff_order?, ← keepsOrder_of_not_bothIntegers h, order?_places]
  rcases a.place? with _ | p
  · exact iff_of_false nofun fun ⟨_, ha, _⟩ => nomatch ha
  rcases b.place? with _ | q
  · exact iff_of_false nofun fun ⟨_, _, hb⟩ => nomatch hb
  rw [Option.bind_some, Option.map_some, Option.some_inj, compare_eq_iff_eq]
  constructor
  · rintro rfl
    exact ⟨p, rfl, rfl⟩
  · rintro ⟨r, hp, hq⟩
    exact Option.some.inj (hp.trans hq.symm)

/-- Equal numbers have one place. -/
theorem place?_congr (h : (a == b) = true) : a.place? = b.place? := by
  by_cases hab : BothIntegers a b
  · obtain ⟨m, n, rfl, rfl⟩ := exists_integers hab
    rw [beq_integers.1 h]
  · obtain ⟨p, ha, hb⟩ := (beq_iff_places hab).1 h
    rw [ha, hb]

/-- **Two numbers that are equal to a third are equal, unless they are two integers.** -/
theorem beq_iff_of_beq (hab : (a == b) = true) (hbc : (b == c) = true) :
    (a == c) = true ↔ (BothIntegers a c → a = c) := by
  by_cases hac : BothIntegers a c
  · obtain ⟨m, n, rfl, rfl⟩ := exists_integers hac
    rw [beq_integers]
    exact ⟨fun h _ => h, fun h => h hac⟩
  · refine iff_of_true ((beq_iff_places hac).2 ?_) fun h => absurd h hac
    by_cases hmixed : BothIntegers a b
    · have hmixed : ¬ BothIntegers b c := fun h => hac ⟨hmixed.1, h.2⟩
      obtain ⟨p, hb, hc⟩ := (beq_iff_places hmixed).1 hbc
      exact ⟨p, (place?_congr hab).trans hb, hc⟩
    · obtain ⟨p, ha, hb⟩ := (beq_iff_places hmixed).1 hab
      exact ⟨p, ha, (place?_congr hbc).symm.trans hb⟩

/-- **Equal numbers of one kind are in one order with any third; those of two kinds are, iff the
third is in one order with the integer and with its double.** -/
theorem order?_eq_iff_of_beq (h : (a == b) = true) :
    order? a c = order? b c ↔ a.kind = b.kind ∨ KeepsOrder a c ∧ KeepsOrder b c := by
  have hplaces : order? (float a.toFloat) (float c.toFloat) =
      order? (float b.toFloat) (float c.toFloat) := by
    rw [order?_places, order?_places, place?_congr h]
  have hkeeps (ha : KeepsOrder a c) (hb : KeepsOrder b c) : order? a c = order? b c :=
    ha.symm.trans (hplaces.trans hb)
  rcases a with m | x <;> rcases b with n | y
  · rw [beq_integers.1 h]
    exact iff_of_true rfl (.inl rfl)
  · have hb : KeepsOrder (float y) c := keepsOrder_of_not_bothIntegers fun h => nomatch h.1
    constructor
    · intro heq
      exact .inr ⟨hplaces.trans (hb.trans heq.symm), hb⟩
    · rintro (hkind | ⟨ha, -⟩)
      · nomatch hkind
      · exact hkeeps ha hb
  · have ha : KeepsOrder (float x) c := keepsOrder_of_not_bothIntegers fun h => nomatch h.1
    constructor
    · intro heq
      exact .inr ⟨ha, hplaces.symm.trans (ha.trans heq)⟩
    · rintro (hkind | ⟨-, hb⟩)
      · nomatch hkind
      · exact hkeeps ha hb
  · exact iff_of_true (hkeeps (keepsOrder_of_not_bothIntegers fun h => nomatch h.1)
      (keepsOrder_of_not_bothIntegers fun h => nomatch h.1)) (.inl rfl)

/-! ## Numbers that compare by value -/

/-- The rational number that the number is; zero for an infinity or a NaN. -/
def value : Number → ℚ
  | integer n => n
  | float x => Binary64.toRat x

/-- The number's double is the number. -/
structure IsExact (a : Number) : Prop where
  isFinite : a.toFloat.isFinite = true
  value_eq : Binary64.toRat a.toFloat = a.value

theorem isExact_integer {n : Int} (h : n.natAbs ≤ 2 ^ 53) : (integer n).IsExact :=
  ⟨(Binary64.ofInt_exact h).1, (Binary64.ofInt_exact h).2⟩

theorem isExact_float {x : Float} : (float x).IsExact ↔ x.isFinite = true :=
  ⟨fun h => h.isFinite, fun h => ⟨h, rfl⟩⟩

/-- **Numbers whose doubles lose nothing are in the order of their values.** -/
theorem IsExact.order?_eq (ha : a.IsExact) (hb : b.IsExact) :
    order? a b = some (compare a.value b.value) := by
  by_cases hab : BothIntegers a b
  · obtain ⟨m, n, rfl, rfl⟩ := exists_integers hab
    have hcast : compare (m : ℚ) n = compare m n := by
      rw [← cmp_eq_compare, ← cmp_eq_compare, Int.cast_strictMono.cmp_map_eq]
    rw [order?_eq_pair]
    exact congrArg some hcast.symm
  · rw [← keepsOrder_of_not_bothIntegers hab, ← ha.value_eq, ← hb.value_eq, order?_eq_pair]
    exact Binary64.compare_eq_compare_toRat ha.isFinite hb.isFinite

/-- **Equality and order go by value.**  Numbers whose doubles lose nothing, such as integers up to
`2 ^ 53` and finite doubles, compare as their values do.  In general, equality can only fail to carry
over from one number to the next between two different integers that are equal to one double; and two
equal numbers, an integer and a double, may be in different orders with a third number only if that is
an integer whose order with the first is not that of their doubles. -/
theorem compares_by_value (a b c : Number) :
    (a.IsExact → b.IsExact → order? a b = some (compare a.value b.value) ∧
      ((a == b) = true ↔ a.value = b.value)) ∧
    (∀ n : Int, n.natAbs ≤ 2 ^ 53 → (integer n).IsExact) ∧
    (∀ x : Float, x.isFinite = true → (float x).IsExact) ∧
    ((a == b) = true → (b == c) = true → ((a == c) = true ↔ (BothIntegers a c → a = c))) ∧
    ((a == b) = true →
      (order? a c = order? b c ↔ a.kind = b.kind ∨ KeepsOrder a c ∧ KeepsOrder b c)) := by
  refine ⟨fun ha hb => ⟨ha.order?_eq hb, ?_⟩, fun _ => isExact_integer, fun _ => isExact_float.2,
    beq_iff_of_beq, order?_eq_iff_of_beq⟩
  rw [beq_iff_order?, ha.order?_eq hb, Option.some_inj, compare_eq_iff_eq]

theorem compares_by_value_three :
    let x := Float.ofBits 0x4008000000000000
    (order? (integer 3) (float x) = some (compare (integer 3).value (float x).value) ∧
      ((integer 3 == float x) = true ↔ (integer 3).value = (float x).value)) ∧
    (integer 3 == integer 3) = true ∧
    order? (integer 3) (integer 3) = order? (float x) (integer 3) := by
  intro x
  have hint : (integer 3).IsExact := isExact_integer (by decide)
  have hfloat : (float x).IsExact := isExact_float.2 (by decide +kernel)
  obtain ⟨hvalue, -, -, hequal, horder⟩ := compares_by_value (integer 3) (float x) (integer 3)
  refine ⟨hvalue hint hfloat, (hequal (by decide +kernel) (by decide +kernel)).2 fun _ => rfl,
    (horder (by decide +kernel)).2 (.inr ⟨?_, ?_⟩)⟩
  · unfold KeepsOrder
    decide +kernel
  · exact keepsOrder_of_not_bothIntegers (by decide)

/-- The integers `2 ^ 53` and `2 ^ 53 + 1` are equal to one double, and it is in the order of equals
with the second one while the first is less. -/
theorem integers_equal_to_one_double :
    let a := integer (2 ^ 53)
    let b := float (.ofBits 0x4340000000000000)
    let c := integer (2 ^ 53 + 1)
    a.IsFinite ∧ b.IsFinite ∧ c.IsFinite ∧
      (a == b) = true ∧ (b == c) = true ∧ (a == c) = false ∧
      order? a c = some .lt ∧ order? b c = some .eq := by
  decide +kernel

end Number

end Reckon

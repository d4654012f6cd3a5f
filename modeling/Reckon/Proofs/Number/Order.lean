import Mathlib.Data.Prod.Lex
import Mathlib.Tactic.SplitIfs
import Reckon.Number.Order

/-!
# Proofs/Number/Order — comparing with a fixed number

Doubles that are no NaN stand in a row: by sign, then by exponent, then by mantissa
(`Binary64.rank`), so **what exceeds a larger double exceeds a smaller one**
(`Binary64.lt_of_le_of_lt`).
An integer bound may be lowered wherever its double is not raised (`Number.lt_of_le_of_lt`).
-/

namespace Reckon

namespace Binary64

open Float.Model (UnpackedFloat)

/-- The place of a double among the others: its sign, and then exponent and mantissa, the other way
round for negative ones. -/
def rank : UnpackedFloat → Option (Int ×ₗ Int ×ₗ Int)
  | .notANumber => none
  | .infinity .negative => some (toLex (-2, toLex (0, 0)))
  | .finite .negative m e _ => some (toLex (-1, toLex (-e, -m)))
  | .zero _ => some (toLex (0, toLex (0, 0)))
  | .finite .positive m e _ => some (toLex (1, toLex (e, m)))
  | .infinity .positive => some (toLex (2, toLex (0, 0)))

theorem compare_neg_neg (m n : Int) : compare (-m) (-n) = (compare m n).swap := by
  rcases lt_trichotomy m n with h | rfl | h
  · rw [compare_lt_iff_lt.2 h, compare_gt_iff_gt.2 (Int.neg_lt_neg h)]
    rfl
  · simp
  · rw [compare_gt_iff_gt.2 h, compare_lt_iff_lt.2 (Int.neg_lt_neg h)]
    rfl

theorem compare_natCast (m n : Nat) : compare (m : Int) n = compare m n := by
  rcases lt_trichotomy m n with h | rfl | h
  · rw [compare_lt_iff_lt.2 h, compare_lt_iff_lt.2 (Int.ofNat_lt.2 h)]
  · simp
  · rw [compare_gt_iff_gt.2 h, compare_gt_iff_gt.2 (Int.ofNat_lt.2 h)]

/-- **Doubles compare as their places do**, and a NaN with none. -/
theorem compare_eq_compare_rank (x y : UnpackedFloat) :
    x.compare y = (rank x).bind fun a => (rank y).map fun b => compare a b := by
  -- only doubles of one sign are told apart by more than their kind
  rcases x with (_ | _) | _ | (_ | _) | ⟨_ | _, m, e, _⟩ <;>
    rcases y with (_ | _) | _ | (_ | _) | ⟨_ | _, n, f, _⟩ <;> try rfl
  · change some ((compare e f).then (compare m n)).swap =
      some (compare (toLex (-1, toLex (-e, -(m : Int)))) (toLex (-1, toLex (-f, -(n : Int)))))
    simp [Prod.Lex.compare_def, compareLex, compareOn, compare_neg_neg, compare_natCast,
      Ordering.swap_then]
  · change some ((compare e f).then (compare m n)) =
      some (compare (toLex (1, toLex (e, (m : Int)))) (toLex (1, toLex (f, (n : Int)))))
    simp [Prod.Lex.compare_def, compareLex, compareOn, compare_natCast]

theorem lt_iff_rank {x y : UnpackedFloat} :
    x.lt y = true ↔ ∃ a ∈ rank x, ∃ b ∈ rank y, a < b := by
  rw [UnpackedFloat.lt, compare_eq_compare_rank]
  cases rank x <;> cases rank y <;> simp [compare_lt_iff_lt]

theorem le_iff_rank {x y : UnpackedFloat} :
    x.le y = true ↔ ∃ a ∈ rank x, ∃ b ∈ rank y, a ≤ b := by
  rw [UnpackedFloat.le, compare_eq_compare_rank]
  cases rank x <;> cases rank y <;> simp [Ordering.isLE_iff_ne_gt, compare_le_iff_le]

theorem lt_iff {x y : Float} : x < y ↔ x.toModel.unpack.lt y.toModel.unpack = true :=
  decide_eq_true_iff

theorem le_iff {x y : Float} : x ≤ y ↔ x.toModel.unpack.le y.toModel.unpack = true :=
  decide_eq_true_iff

/-- **What exceeds a larger double exceeds a smaller one.** -/
theorem lt_of_le_of_lt {x y z : Float} (hxy : x ≤ y) (hyz : y < z) : x < z := by
  obtain ⟨a, ha, b, hb, hab⟩ := le_iff_rank.1 (le_iff.1 hxy)
  obtain ⟨b', hb', c, hc, hbc⟩ := lt_iff_rank.1 (lt_iff.1 hyz)
  obtain rfl : b = b' := Option.mem_unique hb hb'
  exact lt_iff.2 (lt_iff_rank.2 ⟨a, ha, c, hc, hab.trans_lt hbc⟩)

end Binary64

/-- **What exceeds a larger bound exceeds a smaller one**, if the bounds become doubles in their
order. -/
theorem Number.lt_of_le_of_lt {m n : Int} {x : Number} (hmn : m ≤ n)
    (hfloat : Binary64.ofInt m ≤ Binary64.ofInt n) (hx : Number.integer n < x) :
    Number.integer m < x := by
  cases x with
  | integer k => exact Int.lt_of_le_of_lt hmn hx
  | float x => exact Binary64.lt_of_le_of_lt hfloat hx

end Reckon

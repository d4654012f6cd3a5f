import Mathlib.Data.Nat.Factorial.Basic
import Reckon.Number.Arithmetic
import Reckon.Proofs.Result

/-!
# Proofs/Number/Magnitude — how large an exact result is

A result that is an integer is no larger than its operands make it: **a quotient than the dividend, a
remainder than the divisor, a power than the larger of two powers of its bounds** (`pow_le_tiers`),
and a factorial is found in as many turns of a loop as the number says
(`Number.factorialLoop_natCast`).
-/

namespace Reckon

/-- Base and exponent at most `each`, and one of them at most `union`. -/
theorem pow_le_tiers {base exponent union each : Nat} (hbase : base ≤ each)
    (hexponent : exponent ≤ each) (hunion : base ≤ union ∨ exponent ≤ union) :
    base ^ exponent ≤ max 1 (max (each ^ min union each) (min union each ^ each)) := by
  have hsmall : base = 0 → base ^ exponent ≤ 1 := fun h => calc
    base ^ exponent ≤ 1 ^ exponent := Nat.pow_le_pow_left (by omega) exponent
    _ = 1 := Nat.one_pow exponent
  rcases hunion with hunion | hunion
  · have hle : base ≤ min union each := Nat.le_min.2 ⟨hunion, hbase⟩
    rcases Nat.eq_zero_or_pos (min union each) with hzero | hpos
    · exact Nat.le_trans (hsmall (by omega)) (Nat.le_max_left _ _)
    · have hpow := calc base ^ exponent
        _ ≤ min union each ^ exponent := Nat.pow_le_pow_left hle exponent
        _ ≤ min union each ^ each := Nat.pow_le_pow_right hpos hexponent
      omega
  · have hle : exponent ≤ min union each := Nat.le_min.2 ⟨hunion, hexponent⟩
    rcases Nat.eq_zero_or_pos each with hzero | hpos
    · exact Nat.le_trans (hsmall (by omega)) (Nat.le_max_left _ _)
    · have hpow := calc base ^ exponent
        _ ≤ each ^ exponent := Nat.pow_le_pow_left hbase exponent
        _ ≤ each ^ min union each := Nat.pow_le_pow_right hpos hle
      omega

theorem natAbs_fmod_le_natAbs (a : Int) {b : Int} (hb : b ≠ 0) :
    (a.fmod b).natAbs ≤ b.natAbs := by
  rcases Int.lt_or_gt_of_ne hb with hneg | hpos
  · have hlo := Int.fmod_nonneg_of_pos (-a) (Int.neg_pos.2 hneg)
    have hhi := Int.fmod_lt_of_pos (-a) (Int.neg_pos.2 hneg)
    rw [Int.neg_fmod_neg] at hlo hhi
    omega
  · have hlo := Int.fmod_nonneg_of_pos a hpos
    have hhi := Int.fmod_lt_of_pos a hpos
    omega

namespace Number

/-- The number, if it is an integer, is of at most this magnitude. -/
def Within (bound : Nat) : Number → Prop
  | integer n => n.natAbs ≤ bound
  | float _ => True

variable {bound : Nat} {a b : Int}

/-- What is within a bound is within a larger one. -/
theorem ensures_within_mono {larger : Nat} {x : Except DomainError Number}
    (h : Ensures (Within bound) x) (hle : bound ≤ larger) : Ensures (Within larger) x := by
  refine h.imp (fun v hv => ?_) fun _ _ => trivial
  cases v with
  | integer n => exact Nat.le_trans hv hle
  | float _ => trivial

/-- A double is no integer. -/
theorem ofFloat?_within (operation : String) (x : Float) :
    Ensures (Within bound) (ofFloat? operation x) := by
  rw [ofFloat?]
  split
  · exact .ok trivial
  · exact .error trivial

/-! ## Operations on integers -/

theorem within_neg (ha : a.natAbs ≤ bound) : Within bound (-integer a) :=
  Nat.le_trans (Nat.le_of_eq (Int.natAbs_neg a)) ha

theorem within_abs (ha : a.natAbs ≤ bound) : Within bound (integer a).abs :=
  Nat.le_trans (Nat.le_of_eq (Int.natAbs_natCast a.natAbs)) ha

theorem add_within (ha : a.natAbs ≤ bound) (hb : b.natAbs ≤ bound) (operation : String) :
    Ensures (Within (2 * bound)) ((integer a + integer b).finite? operation) := by
  have hle := Int.natAbs_add_le a b
  exact .ok (show (a + b).natAbs ≤ 2 * bound by omega)

theorem sub_within (ha : a.natAbs ≤ bound) (hb : b.natAbs ≤ bound) (operation : String) :
    Ensures (Within (2 * bound)) ((integer a - integer b).finite? operation) := by
  have hle := Int.natAbs_sub_le a b
  exact .ok (show (a - b).natAbs ≤ 2 * bound by omega)

theorem mul_within (ha : a.natAbs ≤ bound) (hb : b.natAbs ≤ bound) (operation : String) :
    Ensures (Within (bound * bound)) ((integer a * integer b).finite? operation) := by
  have hle : (a * b).natAbs ≤ bound * bound := by
    rw [Int.natAbs_mul]
    exact Nat.mul_le_mul ha hb
  exact .ok hle

/-- A quotient is a double. -/
theorem divide_within : Ensures (Within bound) (divide (integer a) (integer b)) := by
  rw [divide]
  split
  · exact .error trivial
  · exact ofFloat?_within _ _

theorem floorDivide_within (ha : a.natAbs ≤ bound) :
    Ensures (Within bound) (floorDivide (integer a) (integer b)) := by
  rw [floorDivide]
  split
  · exact .error trivial
  · exact .ok (Nat.le_trans (Int.natAbs_fdiv_le_natAbs a b) ha)

theorem floorModulo_within (hb : b.natAbs ≤ bound) :
    Ensures (Within bound) (floorModulo (integer a) (integer b)) := by
  rw [floorModulo]
  split
  · exact .error trivial
  · next hzero =>
    have hne : b ≠ 0 := by simpa [isZero] using hzero
    exact .ok (Nat.le_trans (natAbs_fmod_le_natAbs a hne) hb)

/-- **A power is within the powers of the two bounds on its operands.** -/
theorem power_within {union each : Nat} (ha : a.natAbs ≤ each) (hb : b.natAbs ≤ each)
    (hunion : a.natAbs ≤ union ∨ b.natAbs ≤ union) :
    Ensures (Within (max 1 (max (each ^ min union each) (min union each ^ each))))
      (power (integer a) (integer b)) := by
  have hintegers : power (integer a) (integer b) = integerPower a b := rfl
  rw [hintegers, integerPower]
  split
  · next hnonneg =>
    split
    · have hexponent : b.toNat = b.natAbs := by omega
      have hle := pow_le_tiers ha hb hunion
      rw [← Int.natAbs_pow, ← hexponent] at hle
      exact .ok hle
    · exact .error trivial
  · split
    · exact .error trivial
    · exact ofFloat?_within _ _

/-! ## Factorials -/

theorem foldl_mul_range' (n : Nat) : (List.range' 1 n).foldl (· * ·) 1 = n.factorial := by
  induction n with
  | zero => rfl
  | succ n ih =>
    rw [List.range'_1_concat, List.foldl_append, ih, List.foldl_cons, List.foldl_nil,
      Nat.factorial_succ, Nat.add_comm, Nat.mul_comm]

theorem factorial_natCast (n : Nat) :
    factorial (integer n) = .ok (integer n.factorial) := by
  rw [factorial, if_neg (Int.not_lt.2 (Int.natCast_nonneg n)), Int.toNat_natCast, foldl_mul_range']

/-- Only natural numbers have factorials. -/
theorem exists_of_factorial {x v : Number} (h : x.factorial = .ok v) :
    ∃ n : Nat, x = integer n ∧ v = integer n.factorial := by
  cases x with
  | float x => cases h
  | integer n =>
    cases n with
    | negSucc n =>
      rw [factorial, if_pos (Int.negSucc_lt_zero n)] at h
      cases h
    | ofNat n =>
      rw [Int.ofNat_eq_natCast, factorial_natCast] at h
      exact ⟨n, rfl, (Except.ok.inj h).symm⟩

theorem factorial_within (ha : a.natAbs ≤ bound) :
    Ensures (Within bound.factorial) (factorial (integer a)) := by
  cases h : factorial (integer a) with
  | error e => exact .error trivial
  | ok v =>
    obtain ⟨n, hn, rfl⟩ := exists_of_factorial h
    obtain rfl := integer.inj hn
    exact .ok (Nat.factorial_le ha)

/-- How often a loop turns that multiplies the product by the factor, and goes on to the next factor,
as long as the factor is not past the number; and the product that it ends with. -/
inductive FactorialLoop (n : Int) : (product factor : Int) → (turns : Nat) → (result : Int) → Prop
  | done {product factor : Int} (past : n < factor) : FactorialLoop n product factor 0 product
  | turn {product factor result : Int} {turns : Nat} (within : factor ≤ n)
      (rest : FactorialLoop n (product * factor) (factor + 1) turns result) :
      FactorialLoop n product factor (turns + 1) result

/-- There is one way through the loop. -/
theorem FactorialLoop.unique {n product factor result result' : Int} {turns turns' : Nat}
    (h : FactorialLoop n product factor turns result)
    (h' : FactorialLoop n product factor turns' result') : turns = turns' ∧ result = result' := by
  induction h generalizing turns' with
  | done past =>
    cases h' with
    | done _ => exact ⟨rfl, rfl⟩
    | turn within _ => omega
  | turn within _ ih =>
    cases h' with
    | done past => omega
    | turn _ rest =>
      obtain ⟨rfl, rfl⟩ := ih rest
      exact ⟨rfl, rfl⟩

/-- From the factorial of `i` on, the loop turns once for each number up to `i + turns`. -/
theorem factorialLoop_from (i turns : Nat) :
    FactorialLoop (i + turns : Nat) i.factorial (i + 1 : Nat) turns (i + turns).factorial := by
  induction turns generalizing i with
  | zero => exact .done (Int.ofNat_lt.2 (Nat.lt_succ_self i))
  | succ turns ih =>
    have hrest := ih (i + 1)
    have hproduct : ((i + 1).factorial : Int) = i.factorial * (i + 1 : Nat) := by
      rw [Nat.factorial_succ, Nat.mul_comm, Int.natCast_mul]
    rw [hproduct, Nat.add_right_comm] at hrest
    exact .turn (Int.ofNat_le.2 (by omega)) hrest

/-- **The loop for a factorial turns as often as the number says.** -/
theorem factorialLoop_natCast (n : Nat) : FactorialLoop n 1 1 n n.factorial := by
  have h := factorialLoop_from 0 n
  rw [Nat.zero_add] at h
  exact h

end Number

end Reckon

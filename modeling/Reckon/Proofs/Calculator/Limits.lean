import Reckon.Calculator.Arithmetic
import Reckon.Calculator.Logic
import Reckon.Proofs.Expression.Refusal
import Reckon.Proofs.Number.Order

/-!
# Proofs/Calculator/Limits — limits only reject

Higher limits neither lose nor change a result: **under lower limits a line has the result that it
has under the higher ones, a fault included, or is refused** (`limits_only_reject`).  A magnitude
that is a double is compared with the doubles of the bounds, so those must be in the order of the
bounds.
-/

namespace Reckon

/-! ## The order of limits -/

namespace Limits

/-- The first bound is at most as high as the second one; no bound is above all others. -/
def BoundBelow (m n : Option Int) : Prop := ∀ b ∈ n, ∃ a ∈ m, a ≤ b

/-- Each limit is at most as high as the other one. -/
structure Below (low high : Limits) : Prop where
  lineLimit : low.lineLimit ≤ high.lineLimit
  operandLimit : BoundBelow low.operandLimit high.operandLimit
  powerUnionLimit : BoundBelow low.powerUnionLimit high.powerUnionLimit
  powerEachLimit : BoundBelow low.powerEachLimit high.powerEachLimit
  factorialLimit : BoundBelow low.factorialLimit high.factorialLimit
  maxVariables : low.maxVariables ≤ high.maxVariables

/-- The bounds on magnitudes. -/
def bounds (limits : Limits) : List Int :=
  [limits.operandLimit, limits.powerUnionLimit, limits.powerEachLimit,
    limits.factorialLimit].filterMap id

/-- Bounds that are in order become doubles that are in order. -/
def DoublesInOrder (low high : Limits) : Prop :=
  ∀ a ∈ low.bounds, ∀ b ∈ high.bounds, a ≤ b → Binary64.ofInt a ≤ Binary64.ofInt b

variable {low high : Limits}

theorem Below.checkLine (h : low.Below high) (line : String) :
    OnlyRejects (low.checkLine line) (high.checkLine line) := by
  rw [Limits.checkLine, Limits.checkLine]
  split_ifs with hlow hhigh
  · exact .refl _
  · exact absurd (Nat.lt_of_lt_of_le hlow h.lineLimit) hhigh
  · exact .inl ⟨_, rfl⟩
  · exact .inl ⟨_, rfl⟩

end Limits

/-! ## The language of numbers -/

namespace Arithmetic

variable {low high : Limits} {union each union' each' : Option Int}

/-- Numbers that exceed the second bound exceed the first one. -/
def Lowers (m n : Option Int) : Prop :=
  ∀ b ∈ n, ∃ a ∈ m, ∀ x : Number, .integer b < x → Number.integer a < x

/-- **Lower bounds make a tighter limiter.** -/
theorem magnitudeLimiter_tighter (hunion : Lowers union union') (heach : Lowers each each') :
    (magnitudeLimiter union each).Tighter (magnitudeLimiter union' each') := by
  intro operands h
  rw [magnitudeLimiter, Limiter.boundsBy_permits_iff] at h ⊢
  refine h.imp_right fun ⟨hall, hany⟩ => ⟨?_, ?_⟩
  · intro bound hbound
    obtain ⟨b, hb, rfl⟩ := Option.map_eq_some_iff.1 hbound
    obtain ⟨a, ha, hab⟩ := hunion b hb
    obtain ⟨x, hx, hle⟩ := hall (.integer a) (Option.map_eq_some_iff.2 ⟨a, ha, rfl⟩)
    exact ⟨x, hx, fun hlt => hle (hab _ hlt)⟩
  · intro bound hbound x hx hlt
    obtain ⟨b, hb, rfl⟩ := Option.map_eq_some_iff.1 hbound
    obtain ⟨a, ha, hab⟩ := heach b hb
    exact hany (.integer a) (Option.map_eq_some_iff.2 ⟨a, ha, rfl⟩) x hx (hab _ hlt)

theorem lowers_none : Lowers none none := by simp [Lowers]

theorem lowers_of_below {m n : Option Int} (hdoubles : low.DoublesInOrder high)
    (hm : ∀ a ∈ m, a ∈ low.bounds) (hn : ∀ b ∈ n, b ∈ high.bounds) (h : Limits.BoundBelow m n) :
    Lowers m n := by
  intro b hb
  obtain ⟨a, ha, hab⟩ := h b hb
  exact ⟨a, ha, fun _ => Number.lt_of_le_of_lt hab (hdoubles a (hm a ha) b (hn b hb) hab)⟩

/-- **Lower limits make a tighter grammar.** -/
theorem grammar_tighter (h : low.Below high) (hdoubles : low.DoublesInOrder high) :
    (grammar low).Tighter (grammar high) := by
  have hoperand : (magnitudeLimiter none low.operandLimit).Tighter
      (magnitudeLimiter none high.operandLimit) := by
    refine magnitudeLimiter_tighter lowers_none (lowers_of_below hdoubles ?_ ?_ h.operandLimit)
    all_goals intro a ha; simp_all [Limits.bounds]
  have hpowers : (magnitudeLimiter low.powerUnionLimit low.powerEachLimit).Tighter
      (magnitudeLimiter high.powerUnionLimit high.powerEachLimit) := by
    refine magnitudeLimiter_tighter (lowers_of_below hdoubles ?_ ?_ h.powerUnionLimit)
      (lowers_of_below hdoubles ?_ ?_ h.powerEachLimit)
    all_goals intro a ha; simp_all [Limits.bounds]
  have hfactorial : (magnitudeLimiter low.factorialLimit none).Tighter
      (magnitudeLimiter high.factorialLimit none) := by
    refine magnitudeLimiter_tighter (lowers_of_below hdoubles ?_ ?_ h.factorialLimit) lowers_none
    all_goals intro a ha; simp_all [Limits.bounds]
  refine Grammar.tighter_ofDeclarations ?_
  have hdefault : ∀ limits, Declaration.defaultLimiterOf (declarations limits) =
      magnitudeLimiter none limits.operandLimit := fun _ => rfl
  rw [hdefault, hdefault]
  -- an operation brings the limiter of powers or that of factorials, or none
  repeat' first | exact List.Forall₂.nil | refine List.Forall₂.cons ?_ ?_
  all_goals first
    | exact .infixOp hoperand
    | exact .prefixOp hoperand
    | exact .function hoperand
    | exact .infixOp hpowers
    | exact .function hpowers
    | exact .function hfactorial
    | exact .constant _ _
    | exact .defaultLimiter _ _

theorem calculate_onlyRejects (h : low.Below high) (hdoubles : low.DoublesInOrder high)
    (line : String) : OnlyRejects (calculate low line) (calculate high line) :=
  (h.checkLine line).bind fun _ => (grammar_tighter h hdoubles).parseAndRun line ∅

end Arithmetic

/-! ## The language of propositions -/

namespace TruthTable

theorem ofText_onlyRejects (g : Grammar Bool) {m n : Nat} (h : m ≤ n) (text : String) :
    OnlyRejects (ofText g m text) (ofText g n text) := by
  refine OnlyRejects.bind (.refl _) fun e => ?_
  by_cases hlow : m < e.variableNames.length ∨ mostVariables < e.variableNames.length
  · exact .inl ⟨_, if_pos hlow⟩
  · have hhigh : ¬ (n < e.variableNames.length ∨ mostVariables < e.variableNames.length) := by
      omega
    exact .inr ((if_neg hlow).trans (if_neg hhigh).symm)

end TruthTable

namespace Logic

variable {low high : Limits}

theorem tabulate_onlyRejects (h : low.Below high) (line : String) :
    OnlyRejects (tabulate low line) (tabulate high line) :=
  (h.checkLine line).bind fun _ => TruthTable.ofText_onlyRejects grammar h.maxVariables line

end Logic

/-- **Limits only reject.**  Under lower limits a line of arithmetic, if the bounds become doubles
in their order, and any line of propositions has the result that it has under the higher limits, or
is refused. -/
theorem limits_only_reject {low high : Limits} (h : low.Below high) (line : String) :
    (low.DoublesInOrder high →
      (∃ fault, Arithmetic.calculate low line = .error (.calculationLimit fault)) ∨
        Arithmetic.calculate low line = Arithmetic.calculate high line) ∧
    ((∃ fault, Logic.tabulate low line = .error (.calculationLimit fault)) ∨
      Logic.tabulate low line = Logic.tabulate high line) :=
  ⟨fun hdoubles => Arithmetic.calculate_onlyRejects h hdoubles line,
    Logic.tabulate_onlyRejects h line⟩

private def strict : Limits where
  lineLimit := 8
  operandLimit := some 100
  powerUnionLimit := some 5
  powerEachLimit := some 50
  factorialLimit := some 10
  maxVariables := 2

private def lenient : Limits where
  operandLimit := some 10000
  powerUnionLimit := none
  powerEachLimit := some 50
  factorialLimit := some 20

theorem limits_only_reject_strict :
    strict.Below lenient ∧ strict.DoublesInOrder lenient ∧
      ((∃ fault, Arithmetic.calculate strict "12*6^3" = .error (.calculationLimit fault)) ∨
        Arithmetic.calculate strict "12*6^3" = Arithmetic.calculate lenient "12*6^3") ∧
      ((∃ fault, Logic.tabulate strict "a&b>c" = .error (.calculationLimit fault)) ∨
        Logic.tabulate strict "a&b>c" = Logic.tabulate lenient "a&b>c") := by
  have hbelow : strict.Below lenient := by
    constructor <;> simp [strict, lenient, Limits.BoundBelow]
  have hdoubles : strict.DoublesInOrder lenient := by
    unfold Limits.DoublesInOrder
    decide
  exact ⟨hbelow, hdoubles, (limits_only_reject hbelow "12*6^3").1 hdoubles,
    (limits_only_reject hbelow "a&b>c").2⟩

/-- Integers do not always become doubles in their order. -/
example : Binary64.ofInt (2 ^ 128 + 2 ^ 75 + 2) < Binary64.ofInt (2 ^ 128 + 2 ^ 75 + 1) := by
  decide

end Reckon

import Reckon.Proofs.Calculator.Glyphs
import Reckon.Proofs.Grammar.Signatures

/-!
# Proofs/Calculator/OperandLimit — which operations the limit on operands binds

An operation that brings no limiter of its own is guarded by the limit on operands, and powers,
exponentials and factorials bring one (`Arithmetic.ownLimiter?`).  So **no other function is ever
called with an integer above the limit on operands** (`Arithmetic.refuses_of_exceeds`), and those
four obey the limits on powers and on factorials only.
-/

namespace Reckon.Arithmetic

/-- The limiter of factorials. -/
def factorialLimiter (limits : Limits) : Limiter Number :=
  magnitudeLimiter limits.factorialLimit none

/-- The limiter that an operation brings. -/
def ownLimiter? (limits : Limits) (name : String) : Option (Limiter Number) :=
  if name ∈ ["^", "pow", "exp"] then some (powerLimiter limits)
  else if name = "factorial" then some (factorialLimiter limits)
  else none

/-- While the line is calculated, the operation of the name finds the operands. -/
def Finds (limits : Limits) (line name : String) (o : Operation Number)
    (operands : List Number) : Prop :=
  limits.checkLine line = .ok () ∧ (grammar limits).Finds line ∅ name o operands

/-- While the line is calculated, the native function of the operation is called with the
operands. -/
def Calls (limits : Limits) (line name : String) (o : Operation Number)
    (operands : List Number) : Prop :=
  limits.checkLine line = .ok () ∧ (grammar limits).Calls line ∅ name o operands

/-- The operands of the operation are refused, so its function is not called and the line has no
value. -/
structure Refuses (limits : Limits) (line name : String) (o : Operation Number)
    (operands : List Number) : Prop where
  not_calls : ¬ Calls limits line name o operands
  calculate_eq : calculate limits line = .error (.calculationLimit (.operandsRefused name))

variable {limits : Limits} {line name : String} {o : Operation Number} {operands : List Number}

/-! ## Limiters -/

/-- **An operation brings the limiter of powers or that of factorials, or none.** -/
theorem limiter?_of_mem {s : Signature Number}
    (hs : s ∈ (declarations limits).filterMap Declaration.signature?) :
    s.limiter? = ownLimiter? limits s.name ∧ (s.name = "factorial" → s.arity = 1) := by
  revert s
  simp only [declarations, List.filterMap_cons, Declaration.signature?, List.filterMap_nil,
    List.forall_mem_cons]
  repeat' apply And.intro
  all_goals first
    | rfl
    | exact fun _ => rfl
    | exact fun h => absurd h (by decide)
    | exact nofun

/-- An operation has the limiter that it brings, or else that of the limit on operands. -/
theorem Finds.permits_eq (h : Finds limits line name o operands) :
    o.permits operands =
      ((ownLimiter? limits name).getD (operandLimiter limits)).permits operands := by
  obtain ⟨s, hs, rfl, -, hlimiter⟩ := h.2.exists_signature
  rw [Operation.permits, hlimiter, (limiter?_of_mem hs).1]
  rfl

/-- A factorial is taken of one number. -/
theorem Finds.eq_singleton (h : Finds limits line "factorial" o operands) {x : Number}
    (hx : x ∈ operands) : operands = [x] := by
  obtain ⟨s, hs, hname, harity, -⟩ := h.2.exists_signature
  have hone : operands.length = 1 := by
    rw [h.2.length_eq, harity, (limiter?_of_mem hs).2 hname]
  obtain ⟨y, rfl⟩ := List.length_eq_one_iff.1 hone
  rw [List.mem_singleton.1 hx]

/-- One operand above the bound on each is enough. -/
theorem magnitudeLimiter_refuses {union each : Option Int} {bound n : Int}
    (heach : each = some bound) (hn : .integer n ∈ operands) (hbound : bound < n.natAbs) :
    (magnitudeLimiter union each).permits operands = false := by
  refine Bool.eq_false_iff.2 fun h => ?_
  have habove : Number.integer bound < (Number.integer n).abs := hbound
  rcases Limiter.boundsBy_permits_iff.1 h with rfl | ⟨-, hnone⟩
  · cases hn
  · exact hnone (.integer bound) (by rw [heach]; rfl) _ hn habove

/-- An operand that is alone is above the bound on all if it is above the bound. -/
theorem magnitudeLimiter_refuses_alone {union each : Option Int} {bound n : Int}
    (hunion : union = some bound) (hbound : bound < n.natAbs) :
    (magnitudeLimiter union each).permits [.integer n] = false := by
  refine Bool.eq_false_iff.2 fun h => ?_
  have habove : Number.integer bound < (Number.integer n).abs := hbound
  rcases Limiter.boundsBy_permits_iff.1 h with hnil | ⟨hsome, -⟩
  · cases hnil
  · obtain ⟨x, hx, hle⟩ := hsome (.integer bound) (by rw [hunion]; rfl)
    obtain rfl := List.mem_singleton.1 hx
    exact hle habove

/-! ## Calculation -/

/-- What the limiter refuses is not called and makes the line fail. -/
theorem Finds.refuses (h : Finds limits line name o operands)
    (hpermits : o.permits operands = false) : Refuses limits line name o operands := by
  refine ⟨fun hcalls => Bool.eq_false_iff.1 hpermits hcalls.2.permits, ?_⟩
  rw [calculate, h.1]
  exact h.2.parseAndRun_eq_error hpermits

section Exceeds

variable {n bound : Int}

theorem Finds.refuses_other (h : Finds limits line name o operands) (hn : .integer n ∈ operands)
    (hlimit : limits.operandLimit = some bound) (hbound : bound < n.natAbs)
    (hname : name ∉ ["^", "pow", "exp", "factorial"]) : Refuses limits line name o operands := by
  have hpower : name ∉ ["^", "pow", "exp"] := fun hmem => hname (List.mem_append_left _ hmem)
  have hfactorial : name ≠ "factorial" := by
    rintro rfl
    exact hname (by decide)
  refine h.refuses ?_
  rw [h.permits_eq, ownLimiter?, if_neg hpower, if_neg hfactorial, Option.getD_none]
  exact magnitudeLimiter_refuses hlimit hn hbound

theorem Finds.refuses_power (h : Finds limits line name o operands) (hn : .integer n ∈ operands)
    (hlimit : limits.powerEachLimit = some bound) (hbound : bound < n.natAbs)
    (hname : name ∈ ["^", "pow", "exp"]) : Refuses limits line name o operands := by
  refine h.refuses ?_
  rw [h.permits_eq, ownLimiter?, if_pos hname, Option.getD_some]
  exact magnitudeLimiter_refuses hlimit hn hbound

theorem Finds.refuses_factorial (h : Finds limits line "factorial" o operands)
    (hn : .integer n ∈ operands) (hlimit : limits.factorialLimit = some bound)
    (hbound : bound < n.natAbs) : Refuses limits line "factorial" o operands := by
  refine h.refuses ?_
  rw [h.permits_eq, ownLimiter?, if_neg (by decide), if_pos rfl, Option.getD_some,
    h.eq_singleton hn]
  exact magnitudeLimiter_refuses_alone hlimit hbound

/-- **The limit on operands binds every operation but powers, exponentials and factorials**, and
those have limits of their own; so it binds them all where those limits are not higher. -/
theorem refuses_of_exceeds (h : Finds limits line name o operands) (hn : .integer n ∈ operands) :
    (∀ m, limits.operandLimit = some m → m < n.natAbs →
        name ∉ ["^", "pow", "exp", "factorial"] → Refuses limits line name o operands) ∧
      (∀ p, limits.powerEachLimit = some p → p < n.natAbs → name ∈ ["^", "pow", "exp"] →
        Refuses limits line name o operands) ∧
      (∀ f, limits.factorialLimit = some f → f < n.natAbs → name = "factorial" →
        Refuses limits line name o operands) ∧
      (∀ m p f, limits.operandLimit = some m → limits.powerEachLimit = some p →
        limits.factorialLimit = some f → p ≤ m → f ≤ m → m < n.natAbs →
        Refuses limits line name o operands) := by
  refine ⟨fun m hm hbound hname => h.refuses_other hn hm hbound hname,
    fun p hp hbound hname => h.refuses_power hn hp hbound hname, ?_, ?_⟩
  · rintro f hf hbound rfl
    exact h.refuses_factorial hn hf hbound
  · intro m p f hm hp hf hpm hfm hbound
    by_cases hpower : name ∈ ["^", "pow", "exp"]
    · exact h.refuses_power hn hp (Int.lt_of_le_of_lt hpm hbound) hpower
    · by_cases hfactorial : name = "factorial"
      · subst hfactorial
        exact h.refuses_factorial hn hf (Int.lt_of_le_of_lt hfm hbound)
      · refine h.refuses_other hn hm hbound fun hmem => ?_
        rcases List.mem_append.1 (show name ∈ ["^", "pow", "exp"] ++ ["factorial"] from hmem) with
          hmem | hmem
        · exact hpower hmem
        · exact hfactorial (List.mem_singleton.1 hmem)

end Exceeds

/-- The default limits, but no operand above ten. -/
private def upToTen : Limits where
  operandLimit := some 10

theorem refuses_of_exceeds_sum :
    ∃ o, Finds upToTen "20+1" "+" o [.integer 20, .integer 1] ∧
      Refuses upToTen "20+1" "+" o [.integer 20, .integer 1] := by
  have htokens : (grammar upToTen).tokens "20+1" = .ok [⟨.number (.integer 20), ⟨0, 2⟩⟩,
      ⟨.operator (Connective.sum.operator upToTen), .single 2⟩,
      ⟨.number (.integer 1), .single 3⟩] := by
    with_unfolding_all rfl
  have hfinds : Finds upToTen "20+1" "+" (Connective.sum.operator upToTen).operation
      [.integer 20, .integer 1] :=
    ⟨rfl, Grammar.finds_of_tokens [_, _] htokens rfl rfl rfl rfl rfl⟩
  obtain ⟨hrefuses, -⟩ := refuses_of_exceeds hfinds (n := 20) (by simp)
  exact ⟨_, hfinds, hrefuses 10 rfl (by decide) (by decide)⟩

/-- A power, an exponential and a factorial of twenty are taken. -/
theorem calls_above_operandLimit :
    (∃ o, Calls upToTen "20^2" "^" o [.integer 20, .integer 2]) ∧
      (∃ o, Calls upToTen "pow(20,2)" "pow" o [.integer 20, .integer 2]) ∧
      (∃ o, Calls upToTen "exp(20)" "exp" o [.integer 20]) ∧
      (∃ o, Calls upToTen "factorial(20)" "factorial" o [.integer 20]) ∧
      calculate upToTen "20^2" = .ok (.integer 400) := by
  have hglyph : (grammar upToTen).tokens "20^2" = .ok [⟨.number (.integer 20), ⟨0, 2⟩⟩,
      ⟨.operator (Connective.power.operator upToTen), .single 2⟩,
      ⟨.number (.integer 2), .single 3⟩] := by
    with_unfolding_all rfl
  have hpow : (grammar upToTen).tokens "pow(20,2)" = .ok [
      ⟨.function ⟨"pow", .binary Number.power, powerLimiter upToTen⟩, ⟨0, 3⟩⟩,
      ⟨.openBrace '(', .single 3⟩, ⟨.number (.integer 20), ⟨4, 6⟩⟩, ⟨.separator ',', .single 6⟩,
      ⟨.number (.integer 2), .single 7⟩, ⟨.closeBrace ')', .single 8⟩] := by
    with_unfolding_all rfl
  have hexp : (grammar upToTen).tokens "exp(20)" = .ok [
      ⟨.function ⟨"exp", floatFunction "exp" Float.exp, powerLimiter upToTen⟩, ⟨0, 3⟩⟩,
      ⟨.openBrace '(', .single 3⟩, ⟨.number (.integer 20), ⟨4, 6⟩⟩,
      ⟨.closeBrace ')', .single 6⟩] := by
    with_unfolding_all rfl
  have hfactorial : (grammar upToTen).tokens "factorial(20)" = .ok [
      ⟨.function ⟨"factorial", .unary Number.factorial, factorialLimiter upToTen⟩, ⟨0, 9⟩⟩,
      ⟨.openBrace '(', .single 9⟩, ⟨.number (.integer 20), ⟨10, 12⟩⟩,
      ⟨.closeBrace ')', .single 12⟩] := by
    with_unfolding_all rfl
  refine ⟨⟨_, rfl, Grammar.finds_of_tokens [_, _] hglyph rfl rfl rfl rfl rfl, rfl⟩,
    ⟨_, rfl, Grammar.finds_of_tokens [_, _] hpow rfl rfl rfl rfl rfl, rfl⟩,
    ⟨_, rfl, Grammar.finds_of_tokens [_] hexp rfl rfl rfl rfl rfl, rfl⟩,
    ⟨_, rfl, Grammar.finds_of_tokens [_] hfactorial rfl rfl rfl rfl rfl, rfl⟩, ?_⟩
  with_unfolding_all rfl

end Reckon.Arithmetic

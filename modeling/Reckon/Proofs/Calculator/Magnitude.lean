import Reckon.Proofs.Calculator.OperandLimit
import Reckon.Proofs.Number.Magnitude

/-!
# Proofs/Calculator/Magnitude — how large the limits let an integer grow

Where all limits on operands are set, **one number bounds every integer that an operation makes of
integers** (`Arithmetic.natAbs_le_resultBound`).  Sums and products obey the limit on operands, powers
the two limits of their own, and factorials theirs, which their loop does not exceed either.  Each
declared operation answers for itself (`Arithmetic.boundsIntegers_of_declared`).
-/

namespace Reckon

/-- Of integers that it accepts the operation makes no integer above the bound. -/
def Operation.BoundsIntegers (bound : Nat) (o : Operation Number) : Prop :=
  ∀ (operands : List Int) (h : (operands.map Number.integer).length = o.arity),
    o.permits (operands.map .integer) = true →
      Ensures (Number.Within bound) (o.native.body (operands.map .integer) h)

/-- The operation is that of an operator or of a function of the grammar. -/
inductive Grammar.HasOperation {α : Type} (g : Grammar α) : Operation α → Prop
  | operator {op : Operator α} (known : op ∈ g.operators) : HasOperation g op.operation
  | function {name : String} {f : NamedFunction α} (known : g.functions.get? name = some f) :
      HasOperation g f.operation

/-- An operation of a declared grammar has been declared. -/
theorem Grammar.HasOperation.exists_declaration {α : Type} {o : Operation α}
    {convert : String → Except ConversionError α} {ds : List (Declaration α)}
    (h : (ofDeclarations convert ds).HasOperation o) :
    ∃ name, ∃ d ∈ ds, d.operation? (Declaration.defaultLimiterOf ds) = some (name, o) := by
  cases h with
  | operator known => exact ⟨_, exists_declaration_of_mem_operators known⟩
  | function known => exact ⟨_, exists_declaration_of_get? known⟩

namespace Arithmetic

/-- The largest integer that operations within limits on operands, powers and factorials may make. -/
def resultBound (operand union each factorial : Nat) : Nat :=
  max (2 * operand) (max (operand * operand)
    (max (each ^ min union each) (max (min union each ^ each) factorial.factorial)))

theorem le_resultBound (operand union each factorial : Nat) :
    2 * operand ≤ resultBound operand union each factorial ∧
      operand * operand ≤ resultBound operand union each factorial ∧
      max 1 (max (each ^ min union each) (min union each ^ each)) ≤
        resultBound operand union each factorial ∧
      factorial.factorial ≤ resultBound operand union each factorial := by
  have hpos := factorial.factorial_pos
  rw [resultBound]
  omega

/-! ## Limiters on integers -/

section Limiters

variable {union each : Option Int} {bound : Nat} {operands : List Int}

theorem natAbs_le_of_permits (heach : each = some (bound : Int))
    (h : (magnitudeLimiter union each).permits (operands.map .integer) = true) :
    ∀ n ∈ operands, n.natAbs ≤ bound := by
  intro n hn
  refine Nat.le_of_not_lt fun hlt => ?_
  have hrefuses : (magnitudeLimiter union each).permits (operands.map .integer) = false :=
    magnitudeLimiter_refuses heach (List.mem_map_of_mem hn) (Int.ofNat_lt.2 hlt)
  rw [hrefuses] at h
  cases h

theorem exists_natAbs_le_of_permits (hunion : union = some (bound : Int)) (hne : operands ≠ [])
    (h : (magnitudeLimiter union each).permits (operands.map .integer) = true) :
    ∃ n ∈ operands, n.natAbs ≤ bound := by
  rcases Limiter.boundsBy_permits_iff.1 h with hnil | ⟨hsome, -⟩
  · exact absurd (List.map_eq_nil_iff.1 hnil) hne
  · obtain ⟨_, hx, hle⟩ := hsome (.integer bound) (by rw [hunion]; rfl)
    obtain ⟨n, hn, rfl⟩ := List.mem_map.1 hx
    have hle : ¬ (bound : Int) < n.natAbs := hle
    exact ⟨n, hn, by omega⟩

end Limiters

/-! ## Operations on integers -/

section Operations

variable {bound : Nat} {limiter : Limiter Number}

theorem boundsIntegers_unary {f : Number → Except DomainError Number}
    (h : ∀ a : Int, limiter.permits ([a].map .integer) = true →
      Ensures (Number.Within bound) (f (.integer a))) :
    (⟨.unary f, limiter⟩ : Operation Number).BoundsIntegers bound := by
  rintro (_ | ⟨a, _ | ⟨_, _⟩⟩) hlength hpermits
  · cases hlength
  · exact h a hpermits
  · cases hlength

theorem boundsIntegers_binary {f : Number → Number → Except DomainError Number}
    (h : ∀ a b : Int, limiter.permits ([a, b].map .integer) = true →
      Ensures (Number.Within bound) (f (.integer a) (.integer b))) :
    (⟨.binary f, limiter⟩ : Operation Number).BoundsIntegers bound := by
  rintro (_ | ⟨a, _ | ⟨b, _ | ⟨_, _⟩⟩⟩) hlength hpermits
  · cases hlength
  · cases hlength
  · exact h a b hpermits
  · cases hlength

/-- A function of doubles makes no integer. -/
theorem boundsIntegers_float {name : String} {f : Float → Float} :
    (⟨floatFunction name f, limiter⟩ : Operation Number).BoundsIntegers bound :=
  boundsIntegers_unary fun _ _ => Number.ofFloat?_within _ _

theorem boundsIntegers_partial {name : String} {domain : Float → Bool} {f : Float → Float} :
    (⟨partialFunction name domain f, limiter⟩ : Operation Number).BoundsIntegers bound := by
  refine boundsIntegers_unary fun a _ => ?_
  split
  · exact Number.ofFloat?_within _ _
  · exact .error trivial

theorem boundsIntegers_cotangent :
    (⟨.unary cotangent, limiter⟩ : Operation Number).BoundsIntegers bound := by
  refine boundsIntegers_unary fun a _ => ?_
  rw [cotangent]
  split
  · exact .error trivial
  · exact Number.ofFloat?_within _ _

theorem boundsIntegers_logarithm :
    (⟨.binary logarithm, limiter⟩ : Operation Number).BoundsIntegers bound := by
  refine boundsIntegers_binary fun a b _ => ?_
  rw [logarithm]
  split
  · exact .error trivial
  · split
    · exact .error trivial
    · exact Number.ofFloat?_within _ _

end Operations

/-! ## The declared operations -/

section Declared

variable {limits : Limits} {operand union each factorial bound : Nat}

/-- The limits on operands, powers and factorials are set, to these. -/
structure SetTo (limits : Limits) (operand union each factorial : Nat) : Prop where
  operandLimit : limits.operandLimit = some (operand : Int)
  powerUnionLimit : limits.powerUnionLimit = some (union : Int)
  powerEachLimit : limits.powerEachLimit = some (each : Int)
  factorialLimit : limits.factorialLimit = some (factorial : Int)

theorem boundsIntegers_operand_unary (h : SetTo limits operand union each factorial) {most : Nat}
    (hmost : most ≤ bound) {f : Number → Except DomainError Number}
    (hf : ∀ a : Int, a.natAbs ≤ operand → Ensures (Number.Within most) (f (.integer a))) :
    (⟨.unary f, operandLimiter limits⟩ : Operation Number).BoundsIntegers bound := by
  refine boundsIntegers_unary fun a hpermits => ?_
  have hall := natAbs_le_of_permits h.operandLimit hpermits
  exact Number.ensures_within_mono (hf a (hall a (by simp))) hmost

theorem boundsIntegers_operand_binary (h : SetTo limits operand union each factorial) {most : Nat}
    (hmost : most ≤ bound) {f : Number → Number → Except DomainError Number}
    (hf : ∀ a b : Int, a.natAbs ≤ operand → b.natAbs ≤ operand →
      Ensures (Number.Within most) (f (.integer a) (.integer b))) :
    (⟨.binary f, operandLimiter limits⟩ : Operation Number).BoundsIntegers bound := by
  refine boundsIntegers_binary fun a b hpermits => ?_
  have hall := natAbs_le_of_permits h.operandLimit hpermits
  exact Number.ensures_within_mono (hf a b (hall a (by simp)) (hall b (by simp))) hmost

theorem boundsIntegers_add (h : SetTo limits operand union each factorial) :
    (⟨.binary fun a b => (a + b).finite? "+", operandLimiter limits⟩ :
      Operation Number).BoundsIntegers (resultBound operand union each factorial) :=
  boundsIntegers_operand_binary h (le_resultBound ..).1 fun _ _ ha hb => Number.add_within ha hb "+"

theorem boundsIntegers_sub (h : SetTo limits operand union each factorial) :
    (⟨.binary fun a b => (a - b).finite? "-", operandLimiter limits⟩ :
      Operation Number).BoundsIntegers (resultBound operand union each factorial) :=
  boundsIntegers_operand_binary h (le_resultBound ..).1 fun _ _ ha hb => Number.sub_within ha hb "-"

theorem boundsIntegers_mul (h : SetTo limits operand union each factorial) :
    (⟨.binary fun a b => (a * b).finite? "*", operandLimiter limits⟩ :
      Operation Number).BoundsIntegers (resultBound operand union each factorial) :=
  boundsIntegers_operand_binary h (le_resultBound ..).2.1 fun _ _ ha hb => Number.mul_within ha hb "*"

theorem le_resultBound_operand (operand union each factorial : Nat) :
    operand ≤ resultBound operand union each factorial := by
  have hsum := (le_resultBound operand union each factorial).1
  omega

theorem boundsIntegers_divide (h : SetTo limits operand union each factorial) :
    (⟨.binary Number.divide, operandLimiter limits⟩ : Operation Number).BoundsIntegers
      (resultBound operand union each factorial) :=
  boundsIntegers_operand_binary h (le_resultBound_operand ..) fun _ _ _ _ => Number.divide_within

theorem boundsIntegers_floorDivide (h : SetTo limits operand union each factorial) :
    (⟨.binary Number.floorDivide, operandLimiter limits⟩ : Operation Number).BoundsIntegers
      (resultBound operand union each factorial) :=
  boundsIntegers_operand_binary h (le_resultBound_operand ..) fun _ _ ha _ =>
    Number.floorDivide_within ha

theorem boundsIntegers_floorModulo (h : SetTo limits operand union each factorial) :
    (⟨.binary Number.floorModulo, operandLimiter limits⟩ : Operation Number).BoundsIntegers
      (resultBound operand union each factorial) :=
  boundsIntegers_operand_binary h (le_resultBound_operand ..) fun _ _ _ hb =>
    Number.floorModulo_within hb

theorem boundsIntegers_neg (h : SetTo limits operand union each factorial) :
    (⟨.unary fun a => .ok (-a), operandLimiter limits⟩ : Operation Number).BoundsIntegers
      (resultBound operand union each factorial) :=
  boundsIntegers_operand_unary h (le_resultBound_operand ..) fun _ ha => .ok (Number.within_neg ha)

theorem boundsIntegers_plus (h : SetTo limits operand union each factorial) :
    (⟨.unary .ok, operandLimiter limits⟩ : Operation Number).BoundsIntegers
      (resultBound operand union each factorial) :=
  boundsIntegers_operand_unary h (le_resultBound_operand ..) fun _ ha => .ok ha

theorem boundsIntegers_abs (h : SetTo limits operand union each factorial) :
    (⟨.unary fun x => .ok x.abs, operandLimiter limits⟩ : Operation Number).BoundsIntegers
      (resultBound operand union each factorial) :=
  boundsIntegers_operand_unary h (le_resultBound_operand ..) fun _ ha => .ok (Number.within_abs ha)

theorem boundsIntegers_round (h : SetTo limits operand union each factorial) :
    (⟨.unary Number.round, operandLimiter limits⟩ : Operation Number).BoundsIntegers
      (resultBound operand union each factorial) :=
  boundsIntegers_operand_unary h (le_resultBound_operand ..) fun _ ha => .ok ha

/-- A power of integers is bounded by its two limits. -/
theorem boundsIntegers_power (h : SetTo limits operand union each factorial) :
    (⟨.binary Number.power, powerLimiter limits⟩ : Operation Number).BoundsIntegers
      (resultBound operand union each factorial) := by
  refine boundsIntegers_binary fun a b hpermits => ?_
  have hall := natAbs_le_of_permits h.powerEachLimit hpermits
  obtain ⟨n, hn, hsmall⟩ := exists_natAbs_le_of_permits h.powerUnionLimit (by simp) hpermits
  have hone : a.natAbs ≤ union ∨ b.natAbs ≤ union := by
    rcases List.mem_cons.1 hn with rfl | hn
    · exact .inl hsmall
    · exact .inr (List.mem_singleton.1 hn ▸ hsmall)
  exact Number.ensures_within_mono
    (Number.power_within (hall a (by simp)) (hall b (by simp)) hone) (le_resultBound ..).2.2.1

theorem natAbs_le_of_factorialLimiter (hfactorial : limits.factorialLimit = some (factorial : Int))
    {n : Int} (h : (factorialLimiter limits).permits [.integer n] = true) : n.natAbs ≤ factorial := by
  have hpermits : (factorialLimiter limits).permits ([n].map .integer) = true := h
  obtain ⟨m, hm, hle⟩ := exists_natAbs_le_of_permits hfactorial (by simp) hpermits
  rwa [← List.mem_singleton.1 hm]

theorem boundsIntegers_factorial (h : SetTo limits operand union each factorial) :
    (⟨.unary Number.factorial, factorialLimiter limits⟩ : Operation Number).BoundsIntegers
      (resultBound operand union each factorial) := by
  refine boundsIntegers_unary fun a hpermits => ?_
  have hbound := natAbs_le_of_factorialLimiter h.factorialLimit hpermits
  exact Number.ensures_within_mono (Number.factorial_within hbound) (le_resultBound ..).2.2.2

/-- **No declared operation makes a larger integer** of integers that its limiter accepts. -/
theorem boundsIntegers_of_declared (h : SetTo limits operand union each factorial) :
    ∀ d ∈ declarations limits, ∀ name o, d.operation? (operandLimiter limits) = some (name, o) →
      o.BoundsIntegers (resultBound operand union each factorial) := by
  have hpower := boundsIntegers_power h
  have hfactorial := boundsIntegers_factorial h
  rw [powerLimiter] at hpower
  rw [factorialLimiter] at hfactorial
  simp [declarations, Declaration.operation?, boundsIntegers_add h, boundsIntegers_sub h,
    boundsIntegers_mul h, boundsIntegers_divide h, boundsIntegers_floorDivide h,
    boundsIntegers_floorModulo h, boundsIntegers_neg h, boundsIntegers_plus h, boundsIntegers_abs h,
    boundsIntegers_round h, hpower, hfactorial, boundsIntegers_float, boundsIntegers_partial,
    boundsIntegers_cotangent, boundsIntegers_logarithm]

end Declared

/-! ## The bound -/

theorem functions_factorial (limits : Limits) : (grammar limits).functions.get? "factorial" =
    some ⟨"factorial", .unary Number.factorial, factorialLimiter limits⟩ := by
  rw [grammar, Grammar.functions_ofDeclarations]
  rfl

/-- **Limits bound the size of exact results.**  Where all of them are set, no operation of the
language makes an integer above `resultBound` of integers that its limiter accepts, and no operation
on integers ever puts one on the stack while a line is calculated.  The function `factorial` has
values for natural numbers only, and for one that its limiter accepts the loop ends after no more turns
than its limit, with the value. -/
theorem natAbs_le_resultBound (limits : Limits) (operand union each factorial : Nat)
    (hoperand : limits.operandLimit = some (operand : Int))
    (hunion : limits.powerUnionLimit = some (union : Int))
    (heach : limits.powerEachLimit = some (each : Int))
    (hfactorial : limits.factorialLimit = some (factorial : Int)) :
    (∀ o, (grammar limits).HasOperation o →
      ∀ (operands : List Int) h (v : Int), o.permits (operands.map .integer) = true →
        o.native.body (operands.map .integer) h = .ok (.integer v) →
          v.natAbs ≤ resultBound operand union each factorial) ∧
    (∀ line name o (operands : List Int) (v : Int), limits.checkLine line = .ok () →
      (grammar limits).Pushes line ∅ name o (operands.map .integer) (.integer v) →
        v.natAbs ≤ resultBound operand union each factorial) ∧
    ∃ f, (grammar limits).functions.get? "factorial" = some f ∧
      (∀ x h v, f.operation.native.body [x] h = .ok v → ∃ n : Nat, x = .integer n) ∧
      ∀ (n : Nat) h, f.operation.permits [.integer n] = true →
        (∃ turns product, Number.FactorialLoop n 1 1 turns product) ∧
        ∀ turns product, Number.FactorialLoop n 1 1 turns product → turns ≤ factorial ∧
          f.operation.native.body [.integer n] h = .ok (.integer product) := by
  have hset : SetTo limits operand union each factorial := ⟨hoperand, hunion, heach, hfactorial⟩
  refine ⟨fun o ho operands h v hpermits hv => ?_, fun line name o operands v _ hpush => ?_,
    _, functions_factorial limits, fun x h v hv => ?_, fun n h hpermits => ?_⟩
  · obtain ⟨name, d, hd, hdeclared⟩ := ho.exists_declaration
    have hbounds := boundsIntegers_of_declared hset d hd name o hdeclared
    exact (hbounds operands h hpermits).of_eq_ok hv
  · obtain ⟨hcalls, h, hv⟩ := Grammar.pushes_iff.1 hpush
    obtain ⟨t, ht, hlocated⟩ := hcalls.exists_located
    obtain ⟨d, hd, hdeclared⟩ := hlocated.exists_declaration ht
    have hbounds := boundsIntegers_of_declared hset d hd name o hdeclared
    exact (hbounds operands h hcalls.permits).of_eq_ok hv
  · obtain ⟨n, rfl, -⟩ := Number.exists_of_factorial hv
    exact ⟨n, rfl⟩
  · refine ⟨⟨n, _, Number.factorialLoop_natCast n⟩, fun turns product hloop => ?_⟩
    obtain ⟨rfl, rfl⟩ := hloop.unique (Number.factorialLoop_natCast n)
    exact ⟨natAbs_le_of_factorialLimiter hfactorial hpermits, Number.factorial_natCast turns⟩

/-- No operand above ten, none of a power above three or both above two, no factorial above four. -/
private def narrow : Limits where
  operandLimit := some 10
  powerUnionLimit := some 2
  powerEachLimit := some 3
  factorialLimit := some 4

theorem natAbs_le_resultBound_narrow :
    narrow.operandLimit = some (10 : Nat) ∧ narrow.powerUnionLimit = some (2 : Nat) ∧
      narrow.powerEachLimit = some (3 : Nat) ∧ narrow.factorialLimit = some (4 : Nat) ∧
      resultBound 10 2 3 4 = 100 ∧
      (∃ o, (grammar narrow).Pushes "(-2)^3" ∅ "^" o [.integer (-2), .integer 3] (.integer (-8)) ∧
        (-8 : Int).natAbs ≤ resultBound 10 2 3 4) ∧
      ∃ turns product, Number.FactorialLoop 4 1 1 turns product ∧ turns ≤ 4 := by
  have htokens : (grammar narrow).tokens "(-2)^3" = .ok [⟨.openBrace '(', .single 0⟩,
      ⟨.operator (Sign.minus.operator narrow), .single 1⟩, ⟨.number (.integer 2), .single 2⟩,
      ⟨.closeBrace ')', .single 3⟩, ⟨.operator (Connective.power.operator narrow), .single 4⟩,
      ⟨.number (.integer 3), .single 5⟩] := by
    with_unfolding_all rfl
  have hpushes : (grammar narrow).Pushes "(-2)^3" ∅ "^"
      (Connective.power.operator narrow).operation [.integer (-2), .integer 3] (.integer (-8)) :=
    Grammar.pushes_iff.2 ⟨⟨Grammar.finds_of_tokens [_, _, _] htokens rfl rfl rfl rfl rfl, rfl⟩,
      rfl, rfl⟩
  obtain ⟨-, hpush, f, hf, -, hloop⟩ := natAbs_le_resultBound narrow 10 2 3 4 rfl rfl rfl rfl
  obtain rfl := Option.some.inj ((functions_factorial narrow).symm.trans hf)
  obtain ⟨⟨turns, product, hturns⟩, hall⟩ := hloop 4 rfl rfl
  exact ⟨rfl, rfl, rfl, rfl, by decide, ⟨_, hpushes, hpush _ _ _ [-2, 3] (-8) rfl hpushes⟩,
    turns, product, hturns, (hall turns product hturns).1⟩

end Arithmetic

end Reckon

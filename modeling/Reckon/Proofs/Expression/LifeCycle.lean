import Reckon.Proofs.Expression.Positions

/-!
# Proofs/Expression/LifeCycle — an expression under calls

An expression is read, **reordered in place at most once**, and evaluated any number of times.  Only
the first call that reorders it can change it: after that call, failed or not, every such call fails
and nothing is changed any more (`call_of_fails`, `exists_fails`).  At every time the names that are
noted are those of the variables that are held (`Expression.Sound`).
-/

namespace Reckon

variable {α : Type} {g : Grammar α}

/-- A call on an expression. -/
inductive Call (α : Type) where
  | shunt
  | evaluate (bindings : Bindings α)

/-- What a call answers. -/
inductive Answer (α : Type) where
  | shunted (result : Except Error Unit)
  | evaluated (result : Except Error α)

namespace Expression

/-- The expression whose tokens have been taken out of their slots in the given order. -/
def reorder (e : Expression g) (order : List Nat) : Expression g :=
  { e with tokens := Token.takeOut (e.tokens.map some) order, phase := .operandsFirst }

/-- The answer of a call, and the expression after it. -/
def call (e : Expression g) : Call α → Answer α × Expression g
  | .shunt =>
    match e.phase with
    | .operandsFirst => (.shunted (.error (.phase .written .operandsFirst)), e)
    | .written =>
      match postorder e.tokens with
      | .error fault => (.shunted (.error fault), e)
      | .ok order => (.shunted (.ok ()), e.reorder order)
  | .evaluate bindings => (.evaluated (e.evaluate bindings), e)

/-- The expression after a list of calls. -/
def after (e : Expression g) (calls : List (Call α)) : Expression g :=
  calls.foldl (fun e c => (e.call c).2) e

variable {e : Expression g} {ts : List (Token α)} {fault : Error} {c : Call α}
  {calls : List (Call α)}

@[simp] theorem after_cons (e : Expression g) (c : Call α) (calls : List (Call α)) :
    e.after (c :: calls) = (e.call c).2.after calls := rfl

@[simp] theorem after_append (e : Expression g) (before later : List (Call α)) :
    e.after (before ++ later) = (e.after before).after later := List.foldl_append

@[simp] theorem call_evaluate (e : Expression g) (bindings : Bindings α) :
    e.call (.evaluate bindings) = (.evaluated (e.evaluate bindings), e) := rfl

/-- **Reordering in place is reordering**: no token is lost in its slot. -/
theorem call_shunt (e : Expression g) :
    e.call .shunt =
      match e.shunt with
      | .ok e' => (.shunted (.ok ()), e')
      | .error fault => (.shunted (.error fault), e) := by
  rw [call, shunt]
  cases e.phase with
  | operandsFirst => rfl
  | written =>
    have horder := postorder_concludes e.tokens
    dsimp only
    generalize postorder e.tokens = order at horder
    cases horder with
    | error _ => rfl
    | ok h => simp only [reorder, Token.takeOut_eq_select h, map_ok]

/-! ## What one call does -/

/-- Reordering fails. -/
def Fails (e : Expression g) (fault : Error) : Prop :=
  (e.call .shunt).1 = .shunted (.error fault)

theorem Fails.unique {fault' : Error} (h : e.Fails fault) (h' : e.Fails fault') :
    fault = fault' := by
  have heq := h.symm.trans h'
  simpa using heq

/-- **A call that reorders fails or is the first that does not.** -/
theorem shunt_cases (e : Expression g) :
    (∃ fault, e.Fails fault ∧ (e.call .shunt).2 = e ∧
      (e.phase = .operandsFirst → fault = .phase .written .operandsFirst) ∧
      (e.phase = .written → ∃ t ∈ e.tokens, t.lone? = some fault)) ∨
    ∃ order, e.phase = .written ∧ order.Perm (keptIndices e.tokens.zipIdx) ∧
      e.call .shunt =
        (.shunted (.ok ()),
          { e with tokens := Token.select e.tokens order, phase := .operandsFirst }) := by
  have horder := postorder_concludes e.tokens
  simp only [Fails, call_shunt]
  unfold shunt
  cases e.phase with
  | operandsFirst => exact .inl ⟨_, rfl, rfl, fun _ => rfl, nofun⟩
  | written =>
    generalize postorder e.tokens = result at horder ⊢
    cases horder with
    | error h => exact .inl ⟨_, rfl, rfl, nofun, fun _ => h⟩
    | @ok order h => exact .inr ⟨order, rfl, h, rfl⟩

theorem shunt_of_fails (h : e.Fails fault) :
    (e.call .shunt).2 = e ∧ (e.phase = .operandsFirst → fault = .phase .written .operandsFirst) ∧
      (e.phase = .written → ∃ t ∈ e.tokens, t.lone? = some fault) := by
  rcases shunt_cases e with ⟨fault', h', hkeeps, hphase, hlone⟩ | ⟨order, -, -, hcall⟩
  · obtain rfl := h.unique h'
    exact ⟨hkeeps, hphase, hlone⟩
  · simp [Fails, hcall] at h

/-- An expression that cannot be reordered is changed by no call. -/
theorem call_of_fails (h : e.Fails fault) : ∀ c : Call α, (e.call c).2 = e
  | .shunt => (shunt_of_fails h).1
  | .evaluate _ => rfl

theorem after_of_fails (h : e.Fails fault) (calls : List (Call α)) : e.after calls = e := by
  induction calls with
  | nil => rfl
  | cons c calls ih => rw [after_cons, call_of_fails h, ih]

/-- **Once it has been asked for, reordering fails.** -/
theorem exists_fails (h : Call.shunt ∈ calls) (e : Expression g) :
    ∃ fault, (e.after calls).Fails fault := by
  obtain ⟨before, later, rfl⟩ := List.append_of_mem h
  rw [after_append, after_cons]
  have hasked : ∃ fault, ((e.after before).call .shunt).2.Fails fault := by
    rcases shunt_cases (e.after before) with ⟨fault, h, hkeeps, -, -⟩ | ⟨order, -, -, hcall⟩
    · exact ⟨fault, hkeeps.symm ▸ h⟩
    · rw [hcall]
      exact ⟨_, rfl⟩
  obtain ⟨fault, hfault⟩ := hasked
  exact ⟨fault, by rwa [after_of_fails hfault]⟩

/-! ## What is true at every time -/

/-- The names are those of the variables that are held; the tokens are `ts`, or those of them that
are kept, in some order. -/
structure Sound (ts : List (Token α)) (e : Expression g) : Prop where
  names : ∀ name, name ∈ e.names ↔ ∃ t ∈ e.tokens, t.content = .variable name
  written : e.phase = .written → e.tokens = ts
  operandsFirst : e.phase = .operandsFirst →
    (∀ t ∈ e.tokens, t.content.isKept = true) ∧ e.tokens.Perm (ts.filter (·.content.isKept))

namespace Sound

theorem ofTokens (ts : List (Token α)) : (ofTokens ts : Expression g).Sound ts where
  names name := by
    rw [Expression.ofTokens, Std.TreeSet.mem_ofList, List.contains_iff_mem, List.mem_filterMap]
    refine exists_congr fun t => and_congr_right fun _ => ?_
    rw [Token.variableName?]
    split <;> simp_all
  written _ := rfl
  operandsFirst := nofun

/-- **A call keeps what is true**: an operand is a token that is kept, so no name is lost. -/
theorem call (h : e.Sound ts) (c : Call α) : (e.call c).2.Sound ts := by
  cases c with
  | evaluate bindings => exact h
  | shunt =>
    rcases shunt_cases e with ⟨fault, -, hkeeps, -, -⟩ | ⟨order, hphase, horder, hcall⟩
    · rwa [hkeeps]
    · have hperm := Token.select_perm horder
      rw [hcall]
      refine ⟨fun name => (h.names name).trans (exists_congr fun t => ?_), nofun, fun _ => ⟨?_, ?_⟩⟩
      · rw [hperm.mem_iff, List.mem_filter]
        exact ⟨fun ⟨ht, hc⟩ => ⟨⟨ht, by rw [hc]; rfl⟩, hc⟩, fun ⟨⟨ht, _⟩, hc⟩ => ⟨ht, hc⟩⟩
      · exact fun t ht => (List.mem_filter.1 (hperm.mem_iff.1 ht)).2
      · exact h.written hphase ▸ hperm

theorem after (h : e.Sound ts) (calls : List (Call α)) : (e.after calls).Sound ts := by
  induction calls generalizing e with
  | nil => exact h
  | cons c calls ih => exact ih (h.call c)

end Sound

/-! ## The life of an expression -/

/-- An expression is refused for its phase iff it has not been reordered. -/
theorem evaluate_phase_iff (h : e.Sound ts) (bindings : Bindings α) :
    (∃ expected actual, e.evaluate bindings = .error (.phase expected actual)) ↔
      e.phase = .written := by
  cases hphase : e.phase with
  | written =>
    unfold evaluate
    simp only [hphase]
    exact ⟨fun _ => trivial, fun _ => ⟨_, _, rfl⟩⟩
  | operandsFirst =>
    refine ⟨fun ⟨expected, actual, herror⟩ => ?_, nofun⟩
    rcases (e.evaluate_concludes hphase (h.operandsFirst hphase).1 bindings).of_eq_error herror with
      ⟨t, -, hfault | ⟨name, -, hname⟩⟩ | hleft
    · cases hfault
    · cases hname
    · cases hleft

/-- **The phase changes at most once**, at the first call that reorders the expression. -/
theorem shunt_of_phase_ne {before : List (Call α)}
    (h : ((e.after before).call c).2.phase ≠ (e.after before).phase) :
    c = .shunt ∧ Call.shunt ∉ before ∧ (e.after before).phase = .written ∧
      ((e.after before).call c).2.phase = .operandsFirst := by
  cases c with
  | evaluate bindings => exact absurd rfl h
  | shunt =>
    refine ⟨rfl, fun hmem => ?_, ?_⟩
    · obtain ⟨fault, hfault⟩ := exists_fails hmem e
      exact h (congrArg phase (shunt_of_fails hfault).1)
    · rcases shunt_cases (e.after before) with ⟨fault, -, hkeeps, -⟩ | ⟨order, hphase, -, hcall⟩
      · exact absurd (congrArg phase hkeeps) h
      · exact ⟨hphase, by rw [hcall]⟩

end Expression

open Expression in
/-- **The life of an expression**, from its text on: what is held at every time; what changes the
phase; what a failed call leaves behind; and when it can be evaluated. -/
theorem Grammar.lifeCycle {text : String} {e : Expression g} (h : g.tokenize text = .ok e) :
    g.tokens text = .ok e.tokens ∧ e.phase = .written ∧
      (∀ calls, (e.after calls).Sound e.tokens) ∧
      (∀ before c, ((e.after before).call c).2.phase ≠ (e.after before).phase →
        c = .shunt ∧ Call.shunt ∉ before ∧ (e.after before).phase = .written ∧
          ((e.after before).call c).2.phase = .operandsFirst) ∧
      (∀ before fault, (e.after before).Fails fault →
        ∀ later, (e.after (before ++ .shunt :: later)).Fails fault) ∧
      (∀ calls fault, (e.after calls).Fails fault →
        ((e.after calls).call .shunt).2 = e.after calls ∧
          ((e.after calls).phase = .operandsFirst → fault = .phase .written .operandsFirst) ∧
          ((e.after calls).phase = .written → ∃ t ∈ e.tokens, t.lone? = some fault)) ∧
      ∀ calls bindings,
        ((e.after calls).call (.evaluate bindings)).2 = e.after calls ∧
          ((∃ expected actual, ((e.after calls).call (.evaluate bindings)).1 =
            .evaluated (.error (.phase expected actual))) ↔ (e.after calls).phase = .written) := by
  obtain ⟨ts, hts, rfl⟩ := map_eq_ok_iff.1 h
  have hsound := (Sound.ofTokens (g := g) ts).after
  refine ⟨hts, rfl, hsound, fun before c => shunt_of_phase_ne, fun before fault hfails later => ?_,
    fun calls fault hfails => ?_, fun calls bindings => ⟨rfl, ?_⟩⟩
  · rwa [after_append, after_of_fails hfails]
  · obtain ⟨hkeeps, hphase, hlone⟩ := shunt_of_fails hfails
    refine ⟨hkeeps, hphase, fun hwritten => ?_⟩
    rw [← (hsound calls).written hwritten]
    exact hlone hwritten
  · simpa using evaluate_phase_iff (hsound calls) bindings

private def sumGlyph : Operator Int := .infixOf '+' .left 1 (fun a b => .ok (a + b)) .unbounded

private def productGlyph : Operator Int :=
  .infixOf '*' .left 2 (fun a b => .ok (a * b)) .unbounded

open Expression in
/-- A product with a sum: of its seven tokens the five that are no braces are reordered, once. -/
theorem Grammar.lifeCycle_product :
    ∃ e, sumsOfVariables.tokenize "x*(y+x)" = .ok e ∧ e.phase = .written ∧
      (e.after [.shunt]).phase = .operandsFirst ∧ (e.after [.shunt, .shunt]).Sound e.tokens := by
  have htokens : sumsOfVariables.tokens "x*(y+x)" =
      .ok [⟨.variable "x", .single 0⟩, ⟨.operator productGlyph, .single 1⟩, ⟨.openBrace '(', .single 2⟩,
        ⟨.variable "y", .single 3⟩, ⟨.operator sumGlyph, .single 4⟩, ⟨.variable "x", .single 5⟩,
        ⟨.closeBrace ')', .single 6⟩] := by
    with_unfolding_all rfl
  have htokenize := congrArg (Except.map (ofTokens (g := sumsOfVariables))) htokens
  obtain ⟨-, hphase, hsound, -⟩ := lifeCycle htokenize
  exact ⟨_, htokenize, hphase, rfl, hsound _⟩

end Reckon

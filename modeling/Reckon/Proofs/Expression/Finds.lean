import Reckon.Proofs.Expression.Positions
import Reckon.Proofs.Expression.TreeValue

/-!
# Proofs/Expression/Finds — the operands that an operation finds

While a text is run, an operation finds as many operands on top of the stack as it takes
(`Grammar.Finds`), and **what the text comes to goes through its outcome on them**
(`Grammar.Finds.parseAndRun_eq`).  So if the limiter refuses them, the text has no value and the
native function is not asked.
-/

namespace Reckon

variable {α : Type}

/-- The name and the operation of an operator or a function. -/
def Token.operation? (t : Token α) : Option (String × Operation α) :=
  match t.content with
  | .operator op => some (op.text, op.operation)
  | .function f => some (f.name, f.operation)
  | .number _ | .variable _ | .openBrace _ | .closeBrace _ | .separator _ => none

/-- While the text is run, the operation of the name finds the operands on top of the stack, as many
as it takes. -/
structure Grammar.Finds (g : Grammar α) (text : String) (bindings : Bindings α) (name : String)
    (o : Operation α) (operands : List α) : Prop where
  length_eq : operands.length = o.arity
  exists_split : ∃ e before t after below, g.parse text = .ok e ∧ e.tokens = before ++ t :: after ∧
    t.operation? = some (name, o) ∧
    runOn (g.valueOf? bindings) [] before = .ok (operands.reverse ++ below)

/-- While the text is run, the native function of the operation is called with the operands: it
finds them, and its limiter accepts them. -/
structure Grammar.Calls (g : Grammar α) (text : String) (bindings : Bindings α) (name : String)
    (o : Operation α) (operands : List α) : Prop extends g.Finds text bindings name o operands where
  permits : o.permits operands = true

/-- While the text is run, the operation of the name takes the operands off the top of the stack, as
many as it takes, and puts the value there. -/
structure Grammar.Pushes (g : Grammar α) (text : String) (bindings : Bindings α) (name : String)
    (o : Operation α) (operands : List α) (v : α) : Prop where
  length_eq : operands.length = o.arity
  exists_split : ∃ e before t after below, g.parse text = .ok e ∧ e.tokens = before ++ t :: after ∧
    t.operation? = some (name, o) ∧
    runOn (g.valueOf? bindings) [] before = .ok (operands.reverse ++ below) ∧
    runOn (g.valueOf? bindings) [] (before ++ [t]) = .ok (v :: below)

variable {g : Grammar α} {text name : String} {bindings : Bindings α} {o : Operation α}
  {operands : List α}

/-- The outcome of an operation whose operands are accepted is that of its native function. -/
theorem Operation.outcome_of_permits (h : operands.length = o.arity)
    (hpermits : o.permits operands = true) :
    o.outcome name operands = (o.native.body operands h).mapError .domain := by
  rw [← o.perform_eq_outcome name h, perform, if_pos hpermits, o.call_of_length_eq h]

/-- The outcome of an operation whose operands are refused is not that of its native function. -/
theorem Operation.outcome_of_not_permits (hpermits : o.permits operands = false) :
    o.outcome name operands = .error (.calculationLimit (.operandsRefused name)) := if_pos hpermits

/-- An operation that finds its operands puts their outcome in their place. -/
theorem Token.runOn_of_operation? {t : Token α} (ht : t.operation? = some (name, o))
    (h : operands.length = o.arity) (value? : String → Option α) (below : List α) :
    t.runOn value? (operands.reverse ++ below) = (o.outcome name operands).map (· :: below) := by
  unfold operation? at ht
  unfold runOn
  match hc : t.content with
  | .operator op =>
    obtain ⟨rfl, rfl⟩ := Prod.mk.inj (Option.some.inj (by simpa [hc] using ht))
    exact op.operation.performOn_append op.text h below
  | .function f =>
    obtain ⟨rfl, rfl⟩ := Prod.mk.inj (Option.some.inj (by simpa [hc] using ht))
    exact f.operation.performOn_append f.name h below
  | .number _ | .variable _ | .openBrace _ | .closeBrace _ | .separator _ => simp [hc] at ht

/-- **What a text comes to goes through the outcome of each operation that finds operands.** -/
theorem Grammar.Finds.parseAndRun_eq (h : g.Finds text bindings name o operands) :
    ∃ rest : α → Except Error α,
      g.parseAndRun text bindings = o.outcome name operands >>= rest := by
  obtain ⟨e, before, t, after, below, hparse, hsplit, ht, hrun⟩ := h.exists_split
  have hphase := ((g.parse_concludes text).of_eq_ok hparse).1
  refine ⟨fun v => runOn (g.valueOf? bindings) (v :: below) after >>= onlyValue, ?_⟩
  have hcons : e.tokens = before ++ ([t] ++ after) := hsplit
  rw [parseAndRun, hparse, ok_bind]
  simp only [Expression.evaluate, hphase]
  rw [hcons, runOn_append, hrun, ok_bind, runOn_append, runOn_singleton,
    Token.runOn_of_operation? ht h.length_eq]
  cases o.outcome name operands <;> rfl

/-- **If the operands are refused that an operation finds, the text has no value.** -/
theorem Grammar.Finds.parseAndRun_eq_error (h : g.Finds text bindings name o operands)
    (hpermits : o.permits operands = false) :
    g.parseAndRun text bindings = .error (.calculationLimit (.operandsRefused name)) := by
  obtain ⟨rest, heq⟩ := h.parseAndRun_eq
  rw [heq, Operation.outcome_of_not_permits hpermits, error_bind]

/-- The outcome is a value iff the operands are accepted and the native function has it. -/
theorem Operation.outcome_eq_ok_iff {v : α} (h : operands.length = o.arity) :
    o.outcome name operands = .ok v ↔ o.permits operands = true ∧ o.native.body operands h = .ok v := by
  cases hpermits : o.permits operands with
  | false => simp [outcome_of_not_permits hpermits]
  | true =>
    rw [outcome_of_permits h hpermits]
    cases o.native.body operands h <;> simp

/-- **An operation puts on the stack what its native function makes of the operands** that it is called
with. -/
theorem Grammar.pushes_iff {v : α} :
    g.Pushes text bindings name o operands v ↔
      g.Calls text bindings name o operands ∧ ∃ h, o.native.body operands h = .ok v := by
  -- the token puts the outcome on the stack that holds its operands
  have hpush : ∀ {before : List (Token α)} {t : Token α} {below : List α} {value? : String → Option α},
      operands.length = o.arity → t.operation? = some (name, o) →
      runOn value? [] before = .ok (operands.reverse ++ below) →
      (runOn value? [] (before ++ [t]) = .ok (v :: below) ↔ o.outcome name operands = .ok v) := by
    intro before t below value? hlength ht hrun
    rw [runOn_append, hrun, ok_bind, runOn_singleton, Token.runOn_of_operation? ht hlength]
    cases o.outcome name operands <;> simp
  constructor
  · rintro ⟨hlength, e, before, t, after, below, hparse, hsplit, ht, hrun, hafter⟩
    obtain ⟨hpermits, hvalue⟩ :=
      (Operation.outcome_eq_ok_iff hlength).1 ((hpush hlength ht hrun).1 hafter)
    exact ⟨⟨⟨hlength, e, before, t, after, below, hparse, hsplit, ht, hrun⟩, hpermits⟩,
      hlength, hvalue⟩
  · rintro ⟨⟨⟨hlength, e, before, t, after, below, hparse, hsplit, ht, hrun⟩, hpermits⟩, h, hvalue⟩
    have houtcome : o.outcome name operands = .ok v :=
      (Operation.outcome_eq_ok_iff h).2 ⟨hpermits, hvalue⟩
    exact ⟨hlength, e, before, t, after, below, hparse, hsplit, ht, hrun,
      (hpush hlength ht hrun).2 houtcome⟩

/-- The operation that finds operands has its token in the text. -/
theorem Grammar.Finds.exists_located (h : g.Finds text bindings name o operands) :
    ∃ t, t.operation? = some (name, o) ∧ g.Located text.toList t := by
  obtain ⟨e, before, t, after, below, hparse, hsplit, ht, -⟩ := h.exists_split
  have htokens := ((g.parse_concludes text).of_eq_ok hparse).2
  exact ⟨t, ht, (htokens t (by simp [hsplit])).2⟩

/-- The last token of a text, if it has found its operands, is an operation that finds them. -/
theorem Grammar.finds_of_tokens {ts : List (Token α)} {order : List Nat} (before : List (Token α))
    {t : Token α} (htokens : g.tokens text = .ok ts) (horder : postorder ts = .ok order)
    (hselect : Token.select ts order = before ++ [t]) (ht : t.operation? = some (name, o))
    (hrun : runOn (g.valueOf? bindings) [] before = .ok operands.reverse)
    (hlength : operands.length = o.arity) : g.Finds text bindings name o operands := by
  have hparse : g.parse text = .ok { (Expression.ofTokens ts : Expression g) with
      tokens := Token.select ts order, phase := .operandsFirst } := by
    have hshunt : (Expression.ofTokens ts : Expression g).shunt = (postorder ts).map fun order =>
        { (Expression.ofTokens ts : Expression g) with
          tokens := Token.select ts order, phase := .operandsFirst } := rfl
    rw [parse, tokenize, htokens, map_ok, ok_bind, hshunt, horder, map_ok]
  exact ⟨hlength, _, before, t, [], [], hparse, hselect, ht, by rwa [List.append_nil]⟩

end Reckon

import Reckon.Proofs.Calculator.Enumeration
import Reckon.Proofs.Calculator.Glyphs
import Reckon.Proofs.Expression.Heights
import Reckon.Proofs.Grammar.Signatures

/-!
# Proofs/Calculator/Uniform — a formula has a value under all assignments or under none

No connective fails for its operands, and a formula calls no functions (`Logic.isTotal_of_located`).
So **the arities of its tokens alone decide whether a formula has a value**, whatever its variables
stand for (`arities_decide`), and a truth table fails at its first row if it fails at a row.  One for
which there is no room fails before its first row.
-/

namespace Reckon

variable {α : Type}

/-! ## Operations that cannot fail -/

namespace Operation

theorem isTotal_unary (f : α → α) : IsTotal ⟨.unary fun a => .ok (f a), .unbounded⟩ := by
  rintro (_ | ⟨x, _ | ⟨_, _⟩⟩) h
  · cases h
  · exact ⟨rfl, _, rfl⟩
  · cases h

theorem isTotal_binary (f : α → α → α) : IsTotal ⟨.binary fun a b => .ok (f a b), .unbounded⟩ := by
  rintro (_ | ⟨x, _ | ⟨y, _ | ⟨_, _⟩⟩⟩) h
  · cases h
  · cases h
  · exact ⟨rfl, _, rfl⟩
  · cases h

end Operation

/-! ## Formulas -/

/-- Each variable of the expression has a value. -/
def Expression.BindsAll {g : Grammar α} (e : Expression g) (bindings : Bindings α) : Prop :=
  ∀ name ∈ e.variableNames, ∃ v, g.valueOf? bindings name = some v

namespace Logic

theorem isTotal_of_declared :
    ∀ d ∈ declarations, ∀ name o, d.operation? .unbounded = some (name, o) → o.IsTotal := by
  simp [declarations, Declaration.operation?, Operation.isTotal_unary, Operation.isTotal_binary]

/-- **No connective fails for its operands**, and there is no other operation in a formula. -/
theorem isTotal_of_located {text : List Char} {t : Token Bool} {name : String} {o : Operation Bool}
    (h : grammar.Located text t) (ht : t.operation? = some (name, o)) : o.IsTotal := by
  obtain ⟨d, hd, hop⟩ := h.exists_declaration ht
  exact isTotal_of_declared d hd name o hop

variable {text : String} {e : Expression grammar} {bindings : Bindings Bool}

/-- Where each variable of a formula has a value, no token can fail for its own. -/
theorem unfailing_of_parse (h : grammar.parse text = .ok e)
    (hvalues : e.BindsAll bindings) :
    ∀ t ∈ e.tokens, t.Unfailing (grammar.valueOf? bindings) := by
  obtain ⟨ts, -, hsound, hphase⟩ := Grammar.exists_sound_of_parse h
  have htokens := ((grammar.parse_concludes text).of_eq_ok h).2
  intro t ht
  refine ⟨⟨(htokens t ht).1, fun name hc => ?_⟩, fun name o => isTotal_of_located (htokens t ht).2⟩
  exact hvalues name (hsound.mem_variableNames.2 ⟨t, ht, hc⟩)

/-- **A formula has a value under all assignments, or one error under all of them.** -/
theorem evaluate_uniform (h : grammar.parse text = .ok e) :
    (∀ bindings, e.BindsAll bindings → ∃ v, e.evaluate bindings = .ok v) ∨
      ∃ fault, ∀ bindings, e.BindsAll bindings → e.evaluate bindings = .error fault := by
  have halike : ∀ bindings, e.BindsAll bindings →
      Alike (fun _ _ => True) (e.evaluate bindings) (aritiesCome e.tokens) := fun _ hvalues =>
    Expression.evaluate_alike (Grammar.phase_of_parse h) (unfailing_of_parse h hvalues)
  cases hcome : aritiesCome e.tokens with
  | error fault =>
    exact .inr ⟨fault, fun bindings hvalues => (halike bindings hvalues).eq_error_iff.2 hcome⟩
  | ok =>
    refine .inl fun bindings hvalues => ?_
    obtain ⟨v, hv, -⟩ := (halike bindings hvalues).exists_ok hcome
    exact ⟨v, hv⟩

/-- The bindings of a row give each variable a value. -/
theorem bindsAll_of_assigns {i : Nat} (h : TruthTable.Assigns bindings e.variableNames i) :
    e.BindsAll bindings := by
  intro name hname
  obtain ⟨j, hj⟩ := List.getElem?_of_mem hname
  rw [Grammar.valueOf?, h j name hj]
  exact ⟨_, rfl⟩

/-- **A truth table for which there is room fails at its first row, or at none.** -/
theorem ofText_uniform (h : grammar.parse text = .ok e) {limit : Nat}
    (hlimit : e.variableNames.length ≤ limit) (hroom : e.variableNames.length ≤ 58) :
    (∃ t, TruthTable.ofText grammar limit text = .ok t) ∨
      ∃ fault, TruthTable.Yields e 0 (.error fault) ∧
        TruthTable.ofText grammar limit text = .error fault := by
  obtain ⟨ts, -, hsound, -⟩ := Grammar.exists_sound_of_parse h
  rw [TruthTable.ofText_of_parse h hlimit (by omega), TruthTable.ofExpression_of_le hroom]
  cases htable : (TruthTable.rowsOf e).map (TruthTable.mk e.variableNames) with
  | ok t => exact .inl ⟨t, rfl⟩
  | error fault =>
    obtain ⟨i, -, ⟨⟨bindings, hbindings⟩, hyields⟩, -⟩ :=
      (TruthTable.rowsOf_concludes hsound).of_eq_error htable
    have hrow := hyields bindings hbindings
    rcases evaluate_uniform h with hall | ⟨fault', hall⟩
    · obtain ⟨v, hv⟩ := hall bindings (bindsAll_of_assigns hbindings)
      rw [hv] at hrow
      cases hrow
    · obtain rfl : fault' = fault :=
        Except.error.inj ((hall bindings (bindsAll_of_assigns hbindings)).symm.trans hrow)
      have hfirst : ∃ bindings, TruthTable.Assigns bindings e.variableNames 0 :=
        ⟨_, TruthTable.assigns_zip e.variableNames_nodup 0⟩
      exact .inr ⟨fault', ⟨hfirst, fun bindings h => hall bindings (bindsAll_of_assigns h)⟩, rfl⟩

end Logic

/-- **Where values cannot fail, the arities alone decide.**  An expression in which each variable
has a value and each operation is total fails at the first operation with fewer values before it
than it takes; if there is none, it fails unless one value is left, and then it has a value.  So a
proposition that can be parsed has a value under all assignments, or fails with one error under all
of them, and its truth table fails at the first row or at none, if there is room for it: there is up to
58 variables, and for more it fails before the first row. -/
theorem arities_decide {g : Grammar α} (e : Expression g) (bindings : Bindings α) (text : String)
    (limit : Nat) :
    (e.phase = .operandsFirst → (∀ t ∈ e.tokens, t.Unfailing (g.valueOf? bindings)) →
      (∀ before name o, Starved e.tokens before name o → ∃ n : Nat, (n : Int) = depth before ∧
        e.evaluate bindings = .error (.invalidArguments name o.arity n)) ∧
      (Fed e.tokens → depth e.tokens ≠ 1 →
        e.evaluate bindings = .error (.invalidSyntax .valuesLeftOver none)) ∧
      (Fed e.tokens → depth e.tokens = 1 → ∃ v, e.evaluate bindings = .ok v) ∧
      (Fed e.tokens ∨ ∃ before name o, Starved e.tokens before name o)) ∧
    ∀ φ : Expression Logic.grammar, Logic.grammar.parse text = .ok φ →
      ((∀ bindings, φ.BindsAll bindings → ∃ v, φ.evaluate bindings = .ok v) ∨
        ∃ fault, ∀ bindings, φ.BindsAll bindings → φ.evaluate bindings = .error fault) ∧
      (φ.variableNames.length ≤ limit → φ.variableNames.length ≤ 63 →
        (φ.variableNames.length ≤ 58 →
          (∃ t, TruthTable.ofText Logic.grammar limit text = .ok t) ∨
            ∃ fault, TruthTable.Yields φ 0 (.error fault) ∧
              TruthTable.ofText Logic.grammar limit text = .error fault) ∧
        (58 < φ.variableNames.length →
          TruthTable.ofText Logic.grammar limit text = .error (.misuse .capacityOverflow))) := by
  refine ⟨fun hphase hunfailing => ?_, fun φ h => ⟨Logic.evaluate_uniform h, fun hlimit hmost =>
    ⟨Logic.ofText_uniform h hlimit, TruthTable.ofText_of_lt h hlimit hmost⟩⟩⟩
  have halike := Expression.evaluate_alike hphase hunfailing
  refine ⟨fun before name o hstarved => ?_, fun hfed hdepth => ?_, fun hfed hdepth => ?_,
    fed_or_exists_starved e.tokens⟩
  · obtain ⟨n, hn, hcome⟩ := hstarved.aritiesCome_eq
    exact ⟨n, hn, halike.eq_error_iff.2 hcome⟩
  · have hcome := aritiesCome_of_fed hfed
    rw [if_neg hdepth] at hcome
    exact halike.eq_error_iff.2 hcome
  · have hcome := aritiesCome_of_fed hfed
    rw [if_pos hdepth] at hcome
    obtain ⟨v, hv, -⟩ := halike.exists_ok hcome
    exact ⟨v, hv⟩

private def lacking : Expression Logic.grammar where
  tokens := [⟨.variable "a", .single 0⟩, ⟨.operator (Logic.Connective.operator .and), .single 1⟩]
  phase := .operandsFirst
  names := .ofList ["a"]

/-- A conjunction of one operand fails under all assignments, and so does its table. -/
theorem arities_decide_conjunction :
    Logic.grammar.parse "a&" = .ok lacking ∧
      lacking.evaluate (.ofList [("a", true)]) = .error (.invalidArguments "&" 2 1) ∧
      TruthTable.Yields lacking 0 (.error (.invalidArguments "&" 2 1)) ∧
      TruthTable.ofText Logic.grammar 7 "a&" = .error (.invalidArguments "&" 2 1) := by
  have hparse : Logic.grammar.parse "a&" = .ok lacking := by with_unfolding_all rfl
  have hnames : lacking.variableNames = ["a"] := by decide +kernel
  have htable : TruthTable.ofText Logic.grammar 7 "a&" = .error (.invalidArguments "&" 2 1) := by
    decide +kernel
  have hbinds : lacking.BindsAll (.ofList [("a", true)]) := by
    intro name hname
    obtain rfl : name = "a" := by simpa [hnames] using hname
    exact ⟨true, by decide +kernel⟩
  have hstarved : Starved lacking.tokens [⟨.variable "a", .single 0⟩] "&"
      (Logic.Connective.operator .and).operation :=
    ⟨fed_concat_iff.2 ⟨fed_nil, by simp [Token.operation?]⟩, ⟨_, [], rfl, rfl⟩, by decide⟩
  obtain ⟨hall, hlogic⟩ := arities_decide lacking (.ofList [("a", true)]) "a&" 7
  obtain ⟨hfirst, -⟩ := hall rfl (Logic.unfailing_of_parse hparse hbinds)
  obtain ⟨n, hn, herror⟩ := hfirst _ _ _ hstarved
  obtain rfl : n = 1 := Int.ofNat_inj.1 hn
  refine ⟨hparse, herror, ?_, htable⟩
  have hfew : lacking.variableNames.length = 1 := by rw [hnames, List.length_singleton]
  obtain ⟨htables, -⟩ := (hlogic lacking hparse).2 (by omega) (by omega)
  rcases htables (by omega) with ⟨t, ht⟩ | ⟨fault, hrow, hfault⟩
  · rw [htable] at ht
    cases ht
  · rw [htable] at hfault
    obtain rfl := Except.error.inj hfault
    exact hrow

/-- Sixty variables with no connective have no value under any assignment, yet no row of their table is
at fault. -/
theorem arities_decide_wide :
    ∃ e, Logic.grammar.parse (" ".intercalate TruthTable.sixtyNames) = .ok e ∧
      e.variableNames.length = 60 ∧
      TruthTable.Yields e 0 (.error (.invalidSyntax .valuesLeftOver none)) ∧
      TruthTable.ofText Logic.grammar 63 (" ".intercalate TruthTable.sixtyNames) =
        .error (.misuse .capacityOverflow) :=
  TruthTable.exists_yields_of_wide TruthTable.parse_sixtyNames (by decide) (by decide) (by decide)

end Reckon

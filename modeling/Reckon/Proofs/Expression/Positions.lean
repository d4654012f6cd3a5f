import Reckon.Expression.Run
import Reckon.Proofs.Expression.Located
import Reckon.Proofs.Expression.Reordered

/-!
# Proofs/Expression/Positions — what an error points at

Reading, reordering and running report the place of the character, of the brace and of the variable
at fault, each from **the token it has in hand**.  As tokens stay located in the text on the way, the
text has at the place of an error what the error speaks of (`Grammar.blames_of_parseAndRun`), however
long ago the token has been read and wherever it has been moved.
-/

namespace Reckon

variable {α : Type} {g : Grammar α} {text : List Char}

/-! ## Reordering -/

theorem Grammar.Located.reports_of_lone? {t : Token α} {e : Error} (ht : g.Located text t)
    (he : t.lone? = some e) : g.Reports text e := by
  obtain ⟨content, span⟩ := t
  match content with
  | .openBrace c =>
    obtain rfl := Option.some.inj he
    exact .placed rfl ⟨c, ht⟩
  | .closeBrace c =>
    obtain rfl := Option.some.inj he
    exact .placed rfl ⟨c, ht⟩
  | .separator c =>
    obtain rfl := Option.some.inj he
    exact .placed rfl ⟨c, ht⟩
  | .number _ | .variable _ | .operator _ | .function _ => cases he

/-- **What has been parsed is made of tokens that are kept, located in the text.** -/
theorem Grammar.parse_concludes (g : Grammar α) (text : String) :
    Concludes
      (fun e => e.phase = .operandsFirst ∧
        ∀ t ∈ e.tokens, t.content.isKept = true ∧ g.Located text.toList t)
      (g.Reports text.toList) (g.parse text) := by
  refine Concludes.bind (P := fun e => e.phase = .written ∧ ∀ t ∈ e.tokens, g.Located text.toList t)
    ((g.tokens_concludes text).map fun ts hts => ⟨rfl, hts⟩) ?_
  rintro e ⟨hphase, hlocated⟩
  simp only [Expression.shunt, hphase]
  refine ((postorder_concludes e.tokens).imp (fun _ h => h) ?_).map ?_
  · rintro fault ⟨t, ht, hfault⟩
    exact (hlocated t ht).reports_of_lone? hfault
  · intro order horder
    refine ⟨rfl, fun t ht => ?_⟩
    obtain ⟨hmem, hkept⟩ := List.mem_filter.1 ((Token.select_perm horder).mem_iff.1 ht)
    exact ⟨hkept, hlocated t hmem⟩

/-- A text that has a value has been parsed, and its run leaves the value alone on the stack. -/
theorem Grammar.exists_run_of_parseAndRun {text : String} {bindings : Bindings α} {v : α}
    (h : g.parseAndRun text bindings = .ok v) :
    ∃ e, g.parse text = .ok e ∧ runOn (g.valueOf? bindings) [] e.tokens = .ok [v] := by
  obtain ⟨e, hparse, hvalue⟩ := bind_eq_ok_iff.1 h
  have hphase := ((g.parse_concludes text).of_eq_ok hparse).1
  simp only [Expression.evaluate, hphase] at hvalue
  obtain ⟨stack, hrun, hlast⟩ := bind_eq_ok_iff.1 hvalue
  match stack with
  | [x] =>
    obtain rfl : x = v := Except.ok.inj hlast
    exact ⟨e, hparse, hrun⟩
  | [] | _ :: _ :: _ => cases hlast

/-! ## Running -/

/-- **An operation takes as many values as its arity off the stack**, so it is called with no other
number of operands, and puts a value of its function on the stack. -/
theorem Operation.performOn_concludes (o : Operation α) (name : String) (stack : List α) :
    Concludes
      (fun after => ∃ h v, o.native.body (stack.take o.arity).reverse h = .ok v ∧
        after = v :: stack.drop o.arity)
      Error.OfOperation (o.performOn name stack) := by
  rw [performOn]
  split
  · exact .error (.tooFew name o.arity stack.length)
  · next hlen =>
    have hoperands : (stack.take o.arity).reverse.length = o.arity := by
      rw [List.length_reverse, List.length_take]
      omega
    refine Concludes.map (P := fun v => ∃ h, o.native.body (stack.take o.arity).reverse h = .ok v) ?_
      fun v ⟨h, hv⟩ => ⟨h, v, hv, rfl⟩
    rw [perform]
    split
    · rw [o.call_of_length_eq hoperands]
      cases hbody : o.native.body (stack.take o.arity).reverse hoperands with
      | ok v => exact .ok ⟨hoperands, hbody⟩
      | error fault => exact .error (.domain fault)
    · exact .error (.refused name)

/-- The error is of an operation, or the token is a variable without a value. -/
def Token.Fault (t : Token α) (e : Error) : Prop :=
  e.OfOperation ∨ ∃ name, t.content = .variable name ∧ e = .invalidName name (some t.span.start)

theorem Token.runOn_concludes {t : Token α} (ht : t.content.isKept = true)
    (value? : String → Option α) (stack : List α) :
    Concludes (fun _ => True) t.Fault (t.runOn value? stack) := by
  rw [runOn]
  match hc : t.content with
  | .number value => exact .ok trivial
  | .variable name =>
    dsimp only
    cases value? name with
    | some value => exact .ok trivial
    | none => exact .error (.inr ⟨name, hc, rfl⟩)
  | .operator op =>
    exact (op.operation.performOn_concludes op.text stack).imp (fun _ _ => trivial) fun _ h => .inl h
  | .function f =>
    exact (f.operation.performOn_concludes f.name stack).imp (fun _ _ => trivial) fun _ h => .inl h
  | .openBrace _ | .closeBrace _ | .separator _ => simp [hc, Token.Content.isKept] at ht

/-- The error of a run is that of a token, or that there is not one value left. -/
theorem Expression.evaluate_concludes {e : Expression g} (hphase : e.phase = .operandsFirst)
    (hkept : ∀ t ∈ e.tokens, t.content.isKept = true) (bindings : Bindings α) :
    Concludes (fun _ => True)
      (fun fault => (∃ t ∈ e.tokens, t.Fault fault) ∨ fault = .invalidSyntax .valuesLeftOver none)
      (e.evaluate bindings) := by
  simp only [evaluate, hphase]
  refine Concludes.bind (P := fun _ => True) (Concludes.foldlM (fun stack _ t ht => ?_) trivial) ?_
  · exact (Token.runOn_concludes (hkept t ht) _ stack).imp (fun _ h => h) fun _ h => .inl ⟨t, ht, h⟩
  · intro stack _
    match stack with
    | [_] => exact .ok trivial
    | [] | _ :: _ :: _ => exact .error (.inr rfl)

theorem Grammar.Located.reports_of_fault {t : Token α} {e : Error} (ht : g.Located text t)
    (he : t.Fault e) : g.Reports text e := by
  rcases he with he | ⟨name, hc, rfl⟩
  · exact .operation he
  · rw [Located, hc] at ht
    exact .placed rfl ht

/-! ## From a text to its value -/

theorem Grammar.parseAndRun_concludes (g : Grammar α) (text : String) (bindings : Bindings α) :
    Concludes (fun _ => True) (g.Reports text.toList) (g.parseAndRun text bindings) := by
  refine (g.parse_concludes text).bind ?_
  rintro e ⟨hphase, htokens⟩
  refine (e.evaluate_concludes hphase (fun t ht => (htokens t ht).1) bindings).imp (fun _ h => h) ?_
  rintro fault (⟨t, ht, hfault⟩ | rfl)
  · exact (htokens t ht).2.reports_of_fault hfault
  · exact .valuesLeftOver

/-- No text and no bindings are answered with a misuse, or with a brace where tokens are run. -/
theorem Grammar.Reports.ne {text : List Char} {e : Error} (h : g.Reports text e) :
    (∀ fault, e ≠ .misuse fault) ∧ ∀ c p, e ≠ .invalidSyntax (.unexpectedInPostfix c) p := by
  refine ⟨fun fault heq => ?_, fun c p heq => ?_⟩
  · subst heq
    cases h with
    | placed place _ => cases place
    | operation fault => cases fault
  · subst heq
    cases h with
    | placed _ blames =>
      obtain ⟨d, -, hregards⟩ := blames
      exact hregards
    | operation fault => cases fault

theorem Grammar.parseAndRun_ne_misuse (g : Grammar α) (text : String) (bindings : Bindings α)
    (fault : Misuse) : g.parseAndRun text bindings ≠ .error (.misuse fault) :=
  fun h => ((g.parseAndRun_concludes text bindings).of_eq_error h).ne.1 fault rfl

/-- **An error that has a place points into the text, at what it speaks of**: the longest name there,
the longest numeral there, or the character there, which is the one that the wording names. -/
theorem Grammar.blames_of_parseAndRun (g : Grammar α) (text : String) (bindings : Bindings α)
    {e : Error} (h : g.parseAndRun text bindings = .error e) {p : Nat} (hp : e.position? = some p) :
    p < text.length ∧ g.Blames (text.toList.drop p) e ∧
      ∀ fault, e = .invalidSyntax fault (some p) →
        ∃ c, text.toList[p]? = some c ∧
          (fault.message = s!"Invalid character '{c}'" ∨
            fault.message = "missing argument separator or left brace" ∧ c = g.separator ∨
            fault.message = "missing left brace" ∧ c = g.closeBrace ∨
            fault.message = "missing right brace" ∧ c = g.openBrace) := by
  have hblames := ((g.parseAndRun_concludes text bindings).of_eq_error h).blames hp
  refine ⟨?_, hblames, ?_⟩
  · have hne : ¬ text.toList.length ≤ p := fun hlen => hblames.ne_nil (List.drop_eq_nil_of_le hlen)
    rw [← String.length_toList]
    omega
  · rintro fault rfl
    obtain ⟨c, hc, hregards⟩ := hblames
    exact ⟨c, by rw [← hc, List.head?_drop], hregards.message⟩

/-- Sums and products of variables. -/
def Grammar.sumsOfVariables : Grammar Int :=
  .ofDeclarations (fun _ => .error ⟨"no numeral"⟩)
    [.infixOp '+' .left 1 (fun a b => .ok (a + b)) none,
     .infixOp '*' .left 2 (fun a b => .ok (a * b)) none, .freeVariables true]

/-- The variable without a value is the sixth character, behind two letters of two bytes each. -/
theorem Grammar.blames_of_parseAndRun_unbound :
    sumsOfVariables.parseAndRun "é*(λ+ж)" (.ofList [("é", (2 : Int)), ("λ", 3)]) =
        .error (.invalidName "ж" (some 5)) ∧
      5 < "é*(λ+ж)".length ∧
        sumsOfVariables.Blames ("é*(λ+ж)".toList.drop 5) (.invalidName "ж" (some 5)) := by
  have hrun : sumsOfVariables.parseAndRun "é*(λ+ж)" (.ofList [("é", (2 : Int)), ("λ", 3)]) =
      .error (.invalidName "ж" (some 5)) := by decide +kernel
  obtain ⟨hplace, hblames, -⟩ := sumsOfVariables.blames_of_parseAndRun _ _ hrun rfl
  exact ⟨hrun, hplace, hblames⟩

end Reckon

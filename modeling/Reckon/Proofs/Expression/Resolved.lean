import Reckon.Proofs.Expression.LifeCycle
import Reckon.Proofs.Expression.Previous
import Reckon.Proofs.Expression.TreeValue

/-!
# Proofs/Expression/Resolved — what the variables stand for

A run looks up the names of the variables among its tokens and no others (`runOn_congr`), and gets a
value for each or fails at the first that has none (`exists_value_of_runOn`, `runOn_unresolved`).
**The names that are noted when a text is parsed are those of its tokens, reordered or not**
(`Grammar.exists_sound_of_parse`), and each of them has been admitted (`Grammar.admits_of_parse`).
So an expression depends on its bindings through its variables alone (`Grammar.evaluate_resolved`).
-/

namespace Reckon

variable {α : Type}

/-! ## Running -/

section Run

variable {value? value?' : String → Option α} {t : Token α} {ts : List (Token α)}
  {stack after : List α}

/-- A token is run alike where its variable, if it is one, has the same value. -/
theorem Token.runOn_congr (h : ∀ name, t.content = .variable name → value? name = value?' name)
    (stack : List α) : t.runOn value? stack = t.runOn value?' stack := by
  unfold runOn
  match hc : t.content with
  | .variable name => simp only [h name hc]
  | .number _ | .operator _ | .function _ | .openBrace _ | .closeBrace _ | .separator _ => rfl

/-- **A run depends on the values of its variables alone.** -/
theorem runOn_congr (h : ∀ t ∈ ts, ∀ name, t.content = .variable name → value? name = value?' name)
    (stack : List α) : runOn value? stack ts = runOn value?' stack ts := by
  induction ts generalizing stack with
  | nil => rfl
  | cons t ts ih =>
    rw [runOn, runOn, List.foldlM_cons, List.foldlM_cons, Token.runOn_congr (h t (by simp))]
    exact bind_congr fun after => ih (fun u hu => h u (by simp [hu])) after

/-- A run that succeeds runs each of its tokens. -/
theorem exists_runOn_of_mem (h : runOn value? stack ts = .ok after) (ht : t ∈ ts) :
    ∃ before next, t.runOn value? before = .ok next := by
  obtain ⟨us, vs, rfl⟩ := List.append_of_mem ht
  rw [runOn_append] at h
  obtain ⟨before, -, h⟩ := bind_eq_ok_iff.1 h
  rw [runOn, List.foldlM_cons] at h
  obtain ⟨next, hnext, -⟩ := bind_eq_ok_iff.1 h
  exact ⟨before, next, hnext⟩

/-- **A run that succeeds has found a value for each variable.** -/
theorem exists_value_of_runOn (h : runOn value? stack ts = .ok after) (ht : t ∈ ts) {name : String}
    (hname : t.content = .variable name) : ∃ v, value? name = some v := by
  obtain ⟨before, next, hrun⟩ := exists_runOn_of_mem h ht
  simp only [Token.runOn, hname] at hrun
  cases hvalue : value? name with
  | some v => exact ⟨v, rfl⟩
  | none => simp [hvalue] at hrun

/-- If the error is about a name, a variable of that name is among the tokens, and it has no
value. -/
def Unresolved (value? : String → Option α) (ts : List (Token α)) (e : Error) : Prop :=
  ∀ name p, e = .invalidName name p →
    (∃ t ∈ ts, t.content = .variable name) ∧ value? name = none

theorem Error.OfOperation.unresolved {e : Error} (h : e.OfOperation) : Unresolved value? ts e := by
  rintro name p rfl
  cases h

theorem Token.runOn_unresolved (ht : t ∈ ts) (stack : List α) :
    Concludes (fun _ => True) (Unresolved value? ts) (t.runOn value? stack) := by
  unfold runOn
  match hc : t.content with
  | .number value => exact .ok trivial
  | .variable name =>
    dsimp only
    cases hvalue : value? name with
    | some value => exact .ok trivial
    | none =>
      refine .error fun other p hother => ?_
      obtain ⟨rfl, -⟩ := Error.invalidName.inj hother
      exact ⟨⟨t, ht, hc⟩, hvalue⟩
  | .operator op =>
    exact (op.operation.performOn_concludes op.text stack).imp (fun _ _ => trivial) fun _ h =>
      h.unresolved
  | .function f =>
    exact (f.operation.performOn_concludes f.name stack).imp (fun _ _ => trivial) fun _ h =>
      h.unresolved
  | .openBrace _ | .closeBrace _ | .separator _ => exact .error nofun

/-- **A run fails for a name only if that is a variable without a value.** -/
theorem runOn_unresolved (value? : String → Option α) (ts : List (Token α)) (stack : List α) :
    Concludes (fun _ => True) (Unresolved value? ts) (runOn value? stack ts) :=
  .foldlM (fun stack _ _ ht => Token.runOn_unresolved ht stack) trivial

/-- The token is neither a brace nor a separator, and it has a value if it is a variable: its place
in the text does not count. -/
structure Token.Resolved (value? : String → Option α) (t : Token α) : Prop where
  kept : t.content.isKept = true
  value : ∀ name, t.content = .variable name → ∃ v, value? name = some v

theorem Token.runOn_of_content_eq {t' : Token α} (h : t.content = t'.content)
    (ht : t.Resolved value?) (stack : List α) : t.runOn value? stack = t'.runOn value? stack := by
  unfold runOn
  rw [← h]
  match hc : t.content with
  | .number _ | .operator _ | .function _ => rfl
  | .variable name =>
    obtain ⟨v, hv⟩ := ht.value name hc
    simp only [hv]
  | .openBrace _ | .closeBrace _ | .separator _ =>
    have hkept := ht.kept
    simp [hc, Content.isKept] at hkept

/-- **A run depends on what the tokens stand for alone**, where each variable has a value. -/
theorem runOn_of_map_content_eq {ts' : List (Token α)}
    (h : ts.map Token.content = ts'.map Token.content) (hts : ∀ t ∈ ts, t.Resolved value?)
    (stack : List α) : runOn value? stack ts = runOn value? stack ts' := by
  induction ts generalizing ts' stack with
  | nil =>
    obtain rfl : ts' = [] := List.map_eq_nil_iff.1 h.symm
    rfl
  | cons t ts ih =>
    obtain ⟨t', ts', rfl, ht, hothers⟩ := List.map_eq_cons_iff.1 h.symm
    rw [runOn, runOn, List.foldlM_cons, List.foldlM_cons,
      Token.runOn_of_content_eq ht.symm (hts t (by simp))]
    exact bind_congr fun after => ih hothers.symm (fun u hu => hts u (by simp [hu])) after

end Run

namespace Expression

variable {g : Grammar α} {e : Expression g} {ts : List (Token α)} {bindings bindings' : Bindings α}
  {name : String}

/-- The names of the variables are those of the tokens. -/
theorem Sound.mem_variableNames (h : e.Sound ts) :
    name ∈ e.variableNames ↔ ∃ t ∈ e.tokens, t.content = .variable name := by
  rw [variableNames, Std.TreeSet.mem_toList, h.names]

/-- The names of the variables are those of the text: no variable is lost in the reordering. -/
theorem Sound.mem_variableNames_iff (h : e.Sound ts) :
    name ∈ e.variableNames ↔ ∃ t ∈ ts, t.content = .variable name := by
  rw [h.mem_variableNames]
  cases hphase : e.phase with
  | written => rw [h.written hphase]
  | operandsFirst =>
    refine exists_congr fun t => ?_
    rw [(h.operandsFirst hphase).2.mem_iff, List.mem_filter]
    exact ⟨fun ⟨⟨ht, _⟩, hc⟩ => ⟨ht, hc⟩, fun ⟨ht, hc⟩ => ⟨⟨ht, by rw [hc]; rfl⟩, hc⟩⟩

/-- **An expression depends on its bindings through its variables alone.** -/
theorem evaluate_congr (h : e.Sound ts)
    (hvalues : ∀ name ∈ e.variableNames, g.valueOf? bindings name = g.valueOf? bindings' name) :
    e.evaluate bindings = e.evaluate bindings' := by
  rw [evaluate, evaluate, runOn_congr fun t ht name hc =>
    hvalues name (h.mem_variableNames.2 ⟨t, ht, hc⟩)]

/-- An expression that has a value has one for each variable. -/
theorem exists_value_of_evaluate (h : e.Sound ts) {v : α} (hv : e.evaluate bindings = .ok v)
    (hname : name ∈ e.variableNames) : ∃ x, g.valueOf? bindings name = some x := by
  rw [evaluate] at hv
  cases hphase : e.phase with
  | written =>
    rw [hphase] at hv
    cases hv
  | operandsFirst =>
    rw [hphase] at hv
    obtain ⟨after, hrun, -⟩ := bind_eq_ok_iff.1 hv
    obtain ⟨t, ht, hc⟩ := h.mem_variableNames.1 hname
    exact exists_value_of_runOn hrun ht hc

/-- An expression that fails for a name has a variable of that name, and no value for it. -/
theorem unresolved_of_evaluate (e : Expression g) (bindings : Bindings α) :
    Concludes (fun _ => True) (Unresolved (g.valueOf? bindings) e.tokens)
      (e.evaluate bindings) := by
  unfold evaluate
  cases e.phase with
  | written => exact .error nofun
  | operandsFirst =>
    refine (runOn_unresolved _ e.tokens []).bind fun after _ => ?_
    match after with
    | [_] => exact .ok trivial
    | [] | _ :: _ :: _ => exact .error nofun

end Expression

/-! ## Reading -/

namespace Grammar

variable {g : Grammar α} {expected : Expectation} {offset n : Nat} {c : Char} {cs : List Char}
  {name text : String} {e : Expression g} {ts : List (Token α)}

/-- **A name is a variable only if the grammar admits it.** -/
theorem admits_of_contentAt (h : g.contentAt expected offset c cs = .ok (.variable name, n)) :
    g.admitsVariable name = true := by
  cases g.lexemeAt expected c with
  | operator op _ read =>
    rw [read] at h
    cases h
  | name _ read =>
    rw [read] at h
    obtain ⟨_, hcontent, heq⟩ := map_eq_ok_iff.1 h
    obtain ⟨rfl, -⟩ := Prod.mk.inj heq
    rw [contentOfName] at hcontent
    cases hf : g.functions.get? (String.ofList (c :: cs.takeWhile Token.isNamePart)) with
    | some f =>
      simp only [hf] at hcontent
      cases hcontent
    | none =>
      simp only [hf] at hcontent
      split at hcontent
      · next hadmits =>
        obtain rfl := Token.Content.variable.inj (Except.ok.inj hcontent)
        exact hadmits
      · cases hcontent
  | numeral _ read =>
    rw [read] at h
    obtain ⟨_, hcontent, heq⟩ := map_eq_ok_iff.1 h
    obtain ⟨rfl, -⟩ := Prod.mk.inj heq
    rw [contentOfNumeral] at hcontent
    split at hcontent <;> cases hcontent
  | mark read =>
    rw [read] at h
    obtain ⟨_, hcontent, heq⟩ := map_eq_ok_iff.1 h
    obtain ⟨rfl, -⟩ := Prod.mk.inj heq
    rw [contentOfMark] at hcontent
    split_ifs at hcontent <;> cases hcontent

/-- **What has been parsed is sound for the tokens of its text.** -/
theorem exists_sound_of_parse (h : g.parse text = .ok e) :
    ∃ ts, g.tokens text = .ok ts ∧ e.Sound ts ∧ e.phase = .operandsFirst := by
  obtain ⟨x, hx, he⟩ := bind_eq_ok_iff.1 h
  obtain ⟨ts, hts, rfl⟩ := map_eq_ok_iff.1 hx
  have hsound := (Expression.Sound.ofTokens (g := g) ts).call .shunt
  rw [Expression.call_shunt, he] at hsound
  exact ⟨ts, hts, hsound, ((g.parse_concludes text).of_eq_ok h).1⟩

/-- **Each variable of what has been parsed has been admitted.** -/
theorem admits_of_parse (h : g.parse text = .ok e) (hname : name ∈ e.variableNames) :
    g.admitsVariable name = true := by
  obtain ⟨ts, hts, hsound, -⟩ := exists_sound_of_parse h
  obtain ⟨t, ht, hc⟩ := hsound.mem_variableNames_iff.1 hname
  obtain ⟨us, vs, hsplit⟩ := List.append_of_mem ht
  have htokenize : g.tokenize text = .ok (.ofTokens ts) := map_eq_ok_iff.2 ⟨ts, hts, rfl⟩
  obtain ⟨c, rest, n, -, hread⟩ := exists_contentAt_of_tokenize htokenize hsplit
  rw [hc] at hread
  exact admits_of_contentAt hread

/-- **Where no variable is free, each variable has a value**, whatever the bindings are. -/
theorem exists_value_of_parse (h : g.parse text = .ok e) (hclosed : g.freeVariables = false)
    (hname : name ∈ e.variableNames) (bindings : Bindings α) :
    ∃ x, g.valueOf? bindings name = some x := by
  have hadmits := admits_of_parse h hname
  rw [admitsVariable, hclosed, Bool.false_or, Std.TreeMap.contains_eq_isSome_getElem?] at hadmits
  obtain ⟨x, hx⟩ := Option.isSome_iff_exists.1 hadmits
  rw [valueOf?, hx]
  cases bindings[name]? with
  | some y => exact ⟨y, rfl⟩
  | none => exact ⟨x, rfl⟩

/-- **Names are resolved completely.**  Under two bindings that give each variable the same value,
its own or else the one by default, or both none, an expression that has been parsed has the same
value or fails with the same error.  If it has a value, each variable has one; if it fails for a
name, that is one of its variables and has no value; where no variable is free, it never does. -/
theorem evaluate_resolved (g : Grammar α) {text : String} {e : Expression g}
    (h : g.parse text = .ok e) :
    (∀ bindings bindings' : Bindings α,
      (∀ name ∈ e.variableNames, g.valueOf? bindings name = g.valueOf? bindings' name) →
        e.evaluate bindings = e.evaluate bindings') ∧
      (∀ bindings v, e.evaluate bindings = .ok v →
        ∀ name ∈ e.variableNames, ∃ x, g.valueOf? bindings name = some x) ∧
      (∀ bindings name p, e.evaluate bindings = .error (.invalidName name p) →
        name ∈ e.variableNames ∧ g.valueOf? bindings name = none) ∧
      (g.freeVariables = false →
        ∀ bindings name p, e.evaluate bindings ≠ .error (.invalidName name p)) := by
  obtain ⟨ts, -, hsound, -⟩ := exists_sound_of_parse h
  have hname : ∀ bindings name p, e.evaluate bindings = .error (.invalidName name p) →
      name ∈ e.variableNames ∧ g.valueOf? bindings name = none := by
    intro bindings name p herror
    obtain ⟨hmem, hnone⟩ := (e.unresolved_of_evaluate bindings).of_eq_error herror name p rfl
    exact ⟨hsound.mem_variableNames.2 hmem, hnone⟩
  refine ⟨fun bindings bindings' => Expression.evaluate_congr hsound, ?_, hname, ?_⟩
  · intro bindings v hv name hmem
    exact Expression.exists_value_of_evaluate hsound hv hmem
  · intro hclosed bindings name p herror
    obtain ⟨hmem, hnone⟩ := hname bindings name p herror
    obtain ⟨x, hx⟩ := exists_value_of_parse h hclosed hmem bindings
    rw [hx] at hnone
    cases hnone

/-- The sums of two constants. -/
private def sumsOfConstants : Grammar Int :=
  .ofDeclarations (fun _ => .error ⟨"no numeral"⟩)
    [.infixOp '+' .left 1 (fun a b => .ok (a + b)) none, .constant "k" 7, .constant "m" 1]

/-- A constant is given another value, and so is a name that is no variable: only one counts. -/
theorem evaluate_resolved_constants :
    ∃ e, sumsOfConstants.parse "k+m" = .ok e ∧ e.variableNames = ["k", "m"] ∧
      e.evaluate (.ofList [("k", (3 : Int))]) = e.evaluate (.ofList [("k", (3 : Int)), ("x", 9)]) ∧
      ∀ bindings name p, e.evaluate bindings ≠ .error (.invalidName name p) := by
  have hnames : (sumsOfConstants.parse "k+m").map (·.variableNames) = .ok ["k", "m"] := by
    decide +kernel
  obtain ⟨e, hparse, hnames⟩ := map_eq_ok_iff.1 hnames
  obtain ⟨hcongr, -, -, hresolved⟩ := evaluate_resolved sumsOfConstants hparse
  refine ⟨e, hparse, hnames, hcongr _ _ ?_, hresolved rfl⟩
  rw [hnames]
  decide +kernel

end Grammar

end Reckon

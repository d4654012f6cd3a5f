import Mathlib.Data.List.Forall2
import Reckon.Expression.Run
import Reckon.Proofs.Grammar.Tighter
import Reckon.Proofs.Result

/-!
# Proofs/Expression/Refusal — what a tighter grammar refuses

A text is read and put into order without asking any limiter, so two grammars that differ in their
limiters alone do this alike (`Grammar.Tighter.parse`).  When it is run, the stack is the same under
both until the tighter one refuses: **it gives the same result as the other one, a fault included,
or refuses the operands of an operation** (`Grammar.Tighter.parseAndRun`).
-/

namespace Reckon

variable {α : Type}

/-! ## Tokens of a tighter grammar -/

/-- The tokens stand for the same, or for operations of which the first one is the tighter one. -/
inductive Token.Content.Tighter : Token.Content α → Token.Content α → Prop
  | same (c : Token.Content α) : Tighter c c
  | operator {op op' : Operator α} (h : op.Tighter op') : Tighter (.operator op) (.operator op')
  | function {f f' : NamedFunction α} (h : f.Tighter f') : Tighter (.function f) (.function f')

/-- The tokens stand in one place, and the first one is the tighter one. -/
structure Token.Tighter (t u : Token α) : Prop where
  content : t.content.Tighter u.content
  span : t.span = u.span

theorem Token.Content.Tighter.after {c d : Token.Content α} (h : c.Tighter d) :
    Expectation.after c = .after d := by
  cases h with
  | same c => rfl
  | operator h => rw [Expectation.after, Expectation.after, h.fixity]
  | function h => rfl

namespace Grammar.Tighter

variable {g g' : Grammar α} (hg : g.Tighter g') (expected : Expectation) (offset : Nat)
include hg

theorem operatorAt? (c : Char) :
    Option.Rel Operator.Tighter (g.operatorAt? expected c) (g'.operatorAt? expected c) := by
  cases expected with
  | operand => exact hg.prefixOperators c
  | operator => exact hg.infixOperators c
  | bareOperand => exact .none

theorem contentOfName (name : String) :
    Alike Token.Content.Tighter (g.contentOfName offset name) (g'.contentOfName offset name) := by
  have hadmits : g.admitsVariable name = g'.admitsVariable name := by
    rw [admitsVariable, admitsVariable, hg.freeVariables, hg.defaults]
  have hf := hg.functions name
  rw [Grammar.contentOfName, Grammar.contentOfName, hadmits]
  generalize g.functions.get? name = f?, g'.functions.get? name = f'? at hf ⊢
  cases hf with
  | some h => exact .ok (.function h)
  | none => exact .of_eq .same rfl

theorem contentAt (c : Char) (cs : List Char) :
    Alike (fun p q => p.1.Tighter q.1 ∧ p.2 = q.2) (g.contentAt expected offset c cs)
      (g'.contentAt expected offset c cs) := by
  have hnumeral : g.contentOfNumeral offset = g'.contentOfNumeral offset := by
    funext numeral
    rw [contentOfNumeral, contentOfNumeral, hg.convert]
  have hmark : g.contentOfMark offset = g'.contentOfMark offset := by
    funext c
    rw [contentOfMark, contentOfMark, hg.separator, hg.openBrace, hg.closeBrace]
  have hop := hg.operatorAt? expected c
  rw [Grammar.contentAt, Grammar.contentAt, hnumeral, hmark]
  generalize g.operatorAt? expected c = op?, g'.operatorAt? expected c = op'? at hop ⊢
  cases hop with
  | some h => exact .ok ⟨.operator h, rfl⟩
  | none =>
    dsimp only
    split_ifs
    · exact (hg.contentOfName offset _).map fun _ _ h => ⟨h, rfl⟩
    · exact .of_eq (fun p => ⟨.same _, rfl⟩) rfl
    · exact .of_eq (fun p => ⟨.same _, rfl⟩) rfl

/-- **A text is read alike.** -/
theorem tokensFrom (k : Cursor) :
    Alike (List.Forall₂ Token.Tighter) (g.tokensFrom expected k) (g'.tokensFrom expected k) := by
  obtain ⟨cs, offset⟩ := k
  generalize hlen : cs.length = len
  induction len using Nat.strongRecOn generalizing expected cs offset with
  | ind len ih =>
    subst hlen
    match cs with
    | [] =>
      rw [Grammar.tokensFrom, Grammar.tokensFrom]
      exact .ok .nil
    | c :: cs =>
      have hspace : g.isWhitespace c = g'.isWhitespace c := by
        rw [isWhitespace, isWhitespace, hg.whitespace]
      rw [Grammar.tokensFrom, Grammar.tokensFrom, hspace]
      split_ifs
      · exact ih _ (by simp) _ _ _ rfl
      · have hcontent := hg.contentAt expected offset c cs
        generalize g.contentAt expected offset c cs = x, g'.contentAt expected offset c cs = y
          at hcontent ⊢
        cases hcontent with
        | error e => exact .error e
        | @ok p q h =>
          obtain ⟨content, n⟩ := p
          obtain ⟨content', n'⟩ := q
          obtain ⟨hcontent, rfl⟩ : content.Tighter content' ∧ n = n' := h
          dsimp only
          rw [hcontent.after]
          have hshorter : (cs.drop n).length < (c :: cs).length := by
            simp only [List.length_drop, List.length_cons]
            omega
          exact (ih _ hshorter _ _ _ rfl).map fun _ _ h =>
            .cons ⟨hcontent, rfl⟩ h

end Grammar.Tighter

/-! ## Their order -/

/-- What is held back differs in the operators at most, of which the first is the tighter one. -/
inductive Held.Tighter : Held α → Held α → Prop
  | same (h : Held α) : Tighter h h
  | operator (index : Nat) {op op' : Operator α} (h : op.Tighter op') :
      Tighter (.operator index op) (.operator index op')

namespace Held.Tighter

variable {h h' : Held α}

theorem isCall (hh : h.Tighter h') : h.isCall = h'.isCall := by
  cases hh <;> rfl

theorem index? (hh : h.Tighter h') : h.index? = h'.index? := by
  cases hh <;> rfl

/-- What goes first depends on no limiter. -/
theorem goesBefore (hh : h.Tighter h') {op op' : Operator α} (hop : op.Tighter op') :
    h.goesBefore op = h'.goesBefore op' := by
  have hsame : ∀ held held' : Operator α, held.precedence = held'.precedence →
      held.goesBefore op = held'.goesBefore op' := fun held held' hheld => by
    simp only [Operator.goesBefore, Operator.isPrefixOp, hheld, hop.precedence, hop.fixity,
      hop.associativity]
  cases hh with
  | same h =>
    match h with
    | .operator _ held => exact hsame held held rfl
    | .function _ | .openBrace _ => rfl
  | operator _ hheld => exact hsame _ _ hheld.precedence

end Held.Tighter

section Ordering

variable {s s' : List (Held α)}

/-- Lists that are related are split alike where related entries are told apart alike. -/
theorem forall₂_span {β γ : Type} {R : β → γ → Prop} {p : β → Bool} {q : γ → Bool}
    (hpq : ∀ b c, R b c → p b = q c) {l : List β} {l' : List γ} (h : List.Forall₂ R l l') :
    List.Forall₂ R (l.takeWhile p) (l'.takeWhile q) ∧
      List.Forall₂ R (l.dropWhile p) (l'.dropWhile q) := by
  induction h with
  | nil => exact ⟨.nil, .nil⟩
  | @cons b c l l' hbc hl ih =>
    rw [List.takeWhile_cons, List.takeWhile_cons, List.dropWhile_cons, List.dropWhile_cons,
      hpq b c hbc]
    split
    · exact ⟨.cons hbc ih.1, ih.2⟩
    · exact ⟨.nil, .cons hbc hl⟩

theorem filterMap_index?_tighter (h : List.Forall₂ Held.Tighter s s') :
    s.filterMap Held.index? = s'.filterMap Held.index? := by
  induction h with
  | nil => rfl
  | cons hh _ ih => rw [List.filterMap_cons, List.filterMap_cons, hh.index?, ih]

theorem closeGroup?_tighter (h : List.Forall₂ Held.Tighter s s') :
    Option.Rel (fun p q => p.1.filterMap Held.index? = q.1.filterMap Held.index? ∧
      List.Forall₂ Held.Tighter p.2 q.2 ∧ List.Forall₂ Held.Tighter p.2.tail q.2.tail)
      (Held.closeGroup? s) (Held.closeGroup? s') := by
  obtain ⟨hgiven, hkept⟩ := forall₂_span (fun _ _ hh => Held.Tighter.isCall hh) h
  rw [Held.closeGroup?, Held.closeGroup?]
  generalize s.dropWhile Held.isCall = kept, s'.dropWhile Held.isCall = kept' at hkept ⊢
  cases hkept with
  | nil => exact .none
  | cons hh hkept => exact .some ⟨filterMap_index?_tighter hgiven, .cons hh hkept, hkept⟩

theorem giveOutAll_tighter (h : List.Forall₂ Held.Tighter s s') :
    Held.giveOutAll s = Held.giveOutAll s' := by
  induction h with
  | nil => rfl
  | @cons held _ _ _ hh _ ih =>
    cases hh with
    | same => cases held <;> simp [Held.giveOutAll, ih]
    | operator index _ => simp [Held.giveOutAll, ih]

/-- **Tokens are put into the same order, whatever their limiters.** -/
theorem postorderFrom_tighter {ts us : List (Token α × Nat)}
    (hs : List.Forall₂ Held.Tighter s s')
    (h : List.Forall₂ (fun x y => x.1.Tighter y.1 ∧ x.2 = y.2) ts us) :
    postorderFrom s ts = postorderFrom s' us := by
  induction h generalizing s s' with
  | nil => exact giveOutAll_tighter hs
  | @cons x y ts us hxy _ ih =>
    obtain ⟨⟨c, span⟩, i⟩ := x
    obtain ⟨⟨d, span'⟩, j⟩ := y
    obtain ⟨⟨hcd, rfl⟩, rfl⟩ := hxy
    have hgroup := closeGroup?_tighter hs
    have hoperator : ∀ {op op' : Operator α}, op.Tighter op' →
        postorderFrom s ((⟨.operator op, span⟩, i) :: ts) =
          postorderFrom s' ((⟨.operator op', span⟩, i) :: us) := by
      intro op op' hop
      obtain ⟨hgiven, hkept⟩ := forall₂_span (fun _ _ h => Held.Tighter.goesBefore h hop) hs
      simp only [postorderFrom]
      rw [ih (.cons (.operator i hop) hkept), filterMap_index?_tighter hgiven]
    cases hcd with
    | operator hop => exact hoperator hop
    | function _ =>
      simp only [postorderFrom]
      exact ih (.cons (.same _) hs)
    | same c =>
      match c with
      | .number _ | .variable _ =>
        simp only [postorderFrom]
        rw [ih hs]
      | .operator op => exact hoperator (.refl op)
      | .function _ | .openBrace _ =>
        simp only [postorderFrom]
        exact ih (.cons (.same _) hs)
      | .separator _ =>
        simp only [postorderFrom]
        generalize Held.closeGroup? s = group, Held.closeGroup? s' = group' at hgroup ⊢
        cases hgroup with
        | none => rfl
        | some h =>
          dsimp only
          rw [ih h.2.1, h.1]
      | .closeBrace _ =>
        simp only [postorderFrom]
        generalize Held.closeGroup? s = group, Held.closeGroup? s' = group' at hgroup ⊢
        cases hgroup with
        | none => rfl
        | some h =>
          dsimp only
          rw [ih h.2.2, h.1]

theorem postorder_tighter {ts us : List (Token α)} (h : List.Forall₂ Token.Tighter ts us) :
    postorder ts = postorder us := by
  have hplaced : ∀ n, List.Forall₂ (fun x y : Token α × Nat => x.1.Tighter y.1 ∧ x.2 = y.2)
      (ts.zipIdx n) (us.zipIdx n) := by
    induction h with
    | nil => exact fun _ => .nil
    | cons htu _ ih => exact fun n => .cons ⟨htu, rfl⟩ (ih (n + 1))
  exact postorderFrom_tighter .nil (hplaced 0)

theorem select_tighter {ts us : List (Token α)} (h : List.Forall₂ Token.Tighter ts us)
    (order : List Nat) :
    List.Forall₂ Token.Tighter (Token.select ts order) (Token.select us order) := by
  have hslot : ∀ i : Nat, Option.Rel Token.Tighter ts[i]? us[i]? := by
    induction h with
    | nil => exact fun _ => .none
    | cons htu _ ih =>
      intro i
      cases i with
      | zero => exact .some htu
      | succ i => simpa using ih i
  induction order with
  | nil => exact .nil
  | cons i order ih =>
    have hi := hslot i
    simp only [Token.select, List.getElem?_toArray, List.filterMap_cons] at ih ⊢
    generalize ts[i]? = t?, us[i]? = u? at hi ⊢
    cases hi with
    | none => exact ih
    | some htu => exact .cons htu ih

end Ordering

namespace Grammar.Tighter

variable {g g' : Grammar α} (hg : g.Tighter g')
include hg

/-- **A text is parsed alike**, into tokens of which those of the tighter grammar are tighter. -/
theorem parse (text : String) :
    Alike (fun (e : Expression g) (e' : Expression g') =>
      e.phase = e'.phase ∧ List.Forall₂ Token.Tighter e.tokens e'.tokens)
      (g.parse text) (g'.parse text) := by
  have htokens : Alike (List.Forall₂ Token.Tighter) (g.tokens text) (g'.tokens text) := by
    rw [tokens, tokens]
    split_ifs
    · exact .error _
    · exact hg.tokensFrom _ _
  refine (htokens.map (S := fun e e' => e.phase = .written ∧ e'.phase = .written ∧
    List.Forall₂ Token.Tighter e.tokens e'.tokens) fun _ _ h => ⟨rfl, rfl, h⟩).bind ?_
  rintro e e' ⟨hphase, hphase', h⟩
  rw [Expression.shunt, Expression.shunt, hphase, hphase']
  dsimp only
  rw [postorder_tighter h]
  refine (Alike.of_eq (R := Eq) (fun _ => rfl) rfl).map ?_
  rintro order _ rfl
  exact ⟨rfl, select_tighter h order⟩

end Grammar.Tighter

/-! ## Their values -/

/-- The first result is the second one, or an operation or a text has been refused. -/
def OnlyRejects {β : Type} (x y : Except Error β) : Prop :=
  (∃ fault, x = .error (.calculationLimit fault)) ∨ x = y

namespace OnlyRejects

variable {β γ : Type} {x y : Except Error β}

theorem refl (x : Except Error β) : OnlyRejects x x := .inr rfl

theorem bind (h : OnlyRejects x y) {f f' : β → Except Error γ}
    (hf : ∀ b, OnlyRejects (f b) (f' b)) : OnlyRejects (x >>= f) (y >>= f') := by
  rcases h with ⟨fault, rfl⟩ | rfl
  · exact .inl ⟨fault, rfl⟩
  · cases x with
    | ok b => exact hf b
    | error e => exact .inr rfl

theorem map (h : OnlyRejects x y) (f : β → γ) : OnlyRejects (x.map f) (y.map f) := by
  rcases h with ⟨fault, rfl⟩ | rfl
  · exact .inl ⟨fault, rfl⟩
  · exact .inr rfl

end OnlyRejects

section Running

variable {value? : String → Option α} {stack : List α}

theorem Operation.Tighter.arity {o p : Operation α} (h : o.Tighter p) : o.arity = p.arity := by
  rw [Operation.arity, Operation.arity, h.native]

theorem Operation.Tighter.call {o p : Operation α} (h : o.Tighter p) : o.call = p.call := by
  obtain ⟨native, limiter⟩ := o
  obtain ⟨native', limiter'⟩ := p
  obtain rfl : native = native' := h.native
  rfl

/-- **An operation gives what the other one gives, or refuses.** -/
theorem Operation.Tighter.performOn {o p : Operation α} (h : o.Tighter p) (name : String) :
    OnlyRejects (o.performOn name stack) (p.performOn name stack) := by
  rw [Operation.performOn, Operation.performOn, h.arity]
  split_ifs
  · exact .refl _
  · refine .map ?_ _
    rw [Operation.perform, Operation.perform, h.call]
    split_ifs with hpermits hpermits'
    · exact .refl _
    · exact absurd (h.limiter _ hpermits) hpermits'
    · exact .inl ⟨_, rfl⟩
    · exact .inl ⟨_, rfl⟩

/-- **One token does the same, or is refused.** -/
theorem Token.Tighter.runOn {t u : Token α} (h : t.Tighter u) :
    OnlyRejects (t.runOn value? stack) (u.runOn value? stack) := by
  obtain ⟨c, span⟩ := t
  obtain ⟨d, span'⟩ := u
  obtain ⟨hcd, rfl⟩ := h
  cases hcd with
  | same c => exact .refl _
  | @operator op op' hop =>
    have htext : op.text = op'.text := by rw [Operator.text, Operator.text, hop.symbol]
    simp only [Token.runOn, htext]
    exact hop.operation.performOn _
  | function hf =>
    simp only [Token.runOn, hf.name]
    exact hf.operation.performOn _

/-- **A run does the same, up to the first token that is refused.** -/
theorem runOn_tighter {ts us : List (Token α)} (h : List.Forall₂ Token.Tighter ts us) :
    OnlyRejects (runOn value? stack ts) (runOn value? stack us) := by
  induction h generalizing stack with
  | nil => exact .refl _
  | cons htu _ ih =>
    rw [runOn, runOn, List.foldlM_cons, List.foldlM_cons]
    exact htu.runOn.bind fun _ => ih

/-- **A tighter grammar gives a text the value that it has, or refuses it.** -/
theorem Grammar.Tighter.parseAndRun {g g' : Grammar α} (hg : g.Tighter g') (text : String)
    (bindings : Bindings α) :
    OnlyRejects (g.parseAndRun text bindings) (g'.parseAndRun text bindings) := by
  have hvalue : g.valueOf? bindings = g'.valueOf? bindings := by
    funext name
    rw [valueOf?, valueOf?, hg.defaults]
  have hparse := hg.parse text
  rw [Grammar.parseAndRun, Grammar.parseAndRun]
  generalize g.parse text = x, g'.parse text = y at hparse ⊢
  cases hparse with
  | error e => exact .refl _
  | @ok e e' h =>
    obtain ⟨hphase, htokens⟩ := h
    change OnlyRejects (e.evaluate bindings) (e'.evaluate bindings)
    rw [Expression.evaluate, Expression.evaluate, hphase, hvalue]
    cases e'.phase with
    | written => exact .refl _
    | operandsFirst => exact (runOn_tighter htokens).bind fun _ => .refl _

end Running

end Reckon

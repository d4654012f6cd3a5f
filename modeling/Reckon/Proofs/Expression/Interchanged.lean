import Mathlib.Data.List.Forall2
import Reckon.Proofs.Expression.Composition
import Reckon.Proofs.Expression.Refusal
import Reckon.Proofs.Expression.Resolved

/-!
# Proofs/Expression/Interchanged — a separator stands for a brace that closes and one that opens

Both give out what the innermost group holds back and go on in an open group: after a separator it
has its own brace, after the two braces a new one.  **What is held back counts only through its
operators and functions** (`Token.Content.arrange_congr`), so either may stand for the other
(`Token.reorders_interchange`), in a text as well, since the character of the separator is within no
other token (`Grammar.Scans.exists_of_separator`).
-/

namespace Reckon

variable {α : Type}

/-! ## What is held back -/

namespace Token.Content

/-- While they are held back, nothing tells the two apart: they are the same, or neither of them is
an operator or a function. -/
inductive HeldAlike : Token.Content α → Token.Content α → Prop
  | same (c : Token.Content α) : HeldAlike c c
  | mark {c d : Token.Content α} (left : c.isCall = false) (right : d.isCall = false) :
      HeldAlike c d

namespace HeldAlike

variable {c d : Token.Content α}

theorem isCall_eq (h : HeldAlike c d) : c.isCall = d.isCall := by
  cases h with
  | same => rfl
  | mark left right => rw [left, right]

theorem goesBefore_eq (h : HeldAlike c d) (op : Operator α) :
    c.goesBefore op = d.goesBefore op := by
  have hmark : ∀ {b : Token.Content α}, b.isCall = false → b.goesBefore op = false := fun hb =>
    Bool.eq_false_iff.2 fun hgoes => by simp [isCall_of_goesBefore hgoes] at hb
  cases h with
  | same => rfl
  | mark left right => rw [hmark left, hmark right]

theorem eq_of_isCall (h : HeldAlike c d) (hc : c.isCall = true) : c = d := by
  cases h with
  | same => rfl
  | mark left right => simp [left] at hc

end HeldAlike

variable {stack stack' : List (Token.Content α)}

/-- Operators and functions that are held back alike are the same. -/
theorem eq_of_heldAlike (h : List.Forall₂ HeldAlike stack stack')
    (hcalls : ∀ c ∈ stack, c.isCall = true) : stack = stack' := by
  induction h with
  | nil => rfl
  | cons hcd _ ih =>
    rw [hcd.eq_of_isCall (hcalls _ (by simp)), ih fun c hc => hcalls c (by simp [hc])]

theorem closeGroup?_heldAlike (h : List.Forall₂ HeldAlike stack stack') :
    Option.Rel (fun p q => p.1 = q.1 ∧ List.Forall₂ HeldAlike p.2 q.2 ∧
      List.Forall₂ HeldAlike p.2.tail q.2.tail) (closeGroup? stack) (closeGroup? stack') := by
  obtain ⟨hgiven, hkept⟩ := forall₂_span (fun _ _ hcd => HeldAlike.isCall_eq hcd) h
  have hsame := eq_of_heldAlike hgiven (List.all_eq_true.1 List.all_takeWhile)
  rw [closeGroup?, closeGroup?]
  generalize stack.dropWhile isCall = kept, stack'.dropWhile isCall = kept' at hkept ⊢
  cases hkept with
  | nil => exact .none
  | cons hcd hkept => exact .some ⟨hsame, .cons hcd hkept, hkept⟩

theorem arrange_nil_congr (h : List.Forall₂ HeldAlike stack stack') :
    arrange stack [] = arrange stack' [] := by
  induction h with
  | nil => rfl
  | @cons c d _ _ hcd _ ih =>
    cases hc : c.isCall with
    | true =>
      obtain rfl := hcd.eq_of_isCall hc
      rw [arrange_nil_of_isCall hc, arrange_nil_of_isCall hc, ih]
    | false =>
      rw [arrange_nil_of_not_isCall hc, arrange_nil_of_not_isCall (hcd.isCall_eq.symm.trans hc)]

/-- **What is held back counts only through its operators and functions.** -/
theorem arrange_congr (h : List.Forall₂ HeldAlike stack stack') (cs : List (Token.Content α)) :
    arrange stack cs = arrange stack' cs := by
  induction cs generalizing stack stack' with
  | nil => exact arrange_nil_congr h
  | cons c cs ih =>
    match c with
    | number _ | .variable _ => simp only [arrange, ih h]
    | function _ | openBrace _ => exact ih (.cons (.same _) h)
    | operator op =>
      obtain ⟨hgiven, hkept⟩ := forall₂_span (fun _ _ hcd => HeldAlike.goesBefore_eq hcd op) h
      have hsame := eq_of_heldAlike hgiven fun c hc =>
        isCall_of_goesBefore (List.all_eq_true.1 List.all_takeWhile c hc)
      simp only [arrange, hsame, ih (.cons (.same _) hkept)]
    | separator _ =>
      have hgroup := closeGroup?_heldAlike h
      simp only [arrange]
      generalize closeGroup? stack = group, closeGroup? stack' = group' at hgroup ⊢
      cases hgroup with
      | none => rfl
      | some hpq => rw [Option.bind_some, Option.bind_some, hpq.1, ih hpq.2.1]
    | closeBrace _ =>
      have hgroup := closeGroup?_heldAlike h
      simp only [arrange]
      generalize closeGroup? stack = group, closeGroup? stack' = group' at hgroup ⊢
      cases hgroup with
      | none => rfl
      | some hpq => rw [Option.bind_some, Option.bind_some, hpq.1, ih hpq.2.2]

/-! ## The two spellings -/

/-- Lists that are arranged alike on every stack are arranged alike behind others. -/
theorem arrange_append_congr {vs ws : List (Token.Content α)}
    (h : ∀ stack, arrange stack vs = arrange stack ws) (us stack : List (Token.Content α)) :
    arrange stack (us ++ vs) = arrange stack (us ++ ws) := by
  induction us generalizing stack with
  | nil => exact h stack
  | cons u us ih =>
    match u with
    | number _ | .variable _ | function _ | openBrace _ | operator _ | separator _ | closeBrace _ =>
      simp only [List.cons_append, arrange, ih]

/-- **A separator is arranged like a brace that closes and one that opens.** -/
theorem arrange_separator (stack vs : List (Token.Content α)) (c d o : Char) :
    arrange stack (separator c :: vs) = arrange stack (closeBrace d :: openBrace o :: vs) := by
  simp only [arrange]
  cases hgroup : closeGroup? stack with
  | none => rfl
  | some p =>
    obtain ⟨given, kept⟩ := p
    obtain ⟨-, -, brace, rest, rfl, hbrace⟩ := closeGroup?_eq_some_iff.1 hgroup
    have halike : List.Forall₂ HeldAlike (brace :: rest) (openBrace o :: rest) :=
      .cons (.mark hbrace rfl) (List.forall₂_same.2 fun c _ => .same c)
    rw [Option.bind_some, Option.bind_some, arrange_congr halike, List.tail_cons]

end Token.Content

/-! ## Tokens -/

namespace Token

/-- The tokens are put into an order, and then they stand for these contents. -/
def Reorders (ts : List (Token α)) (out : List (Token.Content α)) : Prop :=
  ∃ order, postorder ts = .ok order ∧ (select ts order).map Token.content = out

variable {us vs ts ts' : List (Token α)} {out : List (Token.Content α)}

theorem reorders_iff : Reorders ts out ↔ Content.arrange [] (ts.map Token.content) = some out := by
  rw [← map_select_postorder, Reorders]
  cases postorder ts <;> simp [Except.toOption]

/-- **One separator for a brace that closes and one that opens, or the reverse**: the same comes
out. -/
theorem reorders_interchange {t closing opening : Token α} {c d o : Char}
    (ht : t.content = .separator c) (hclosing : closing.content = .closeBrace d)
    (hopening : opening.content = .openBrace o) :
    Reorders (us ++ t :: vs) out ↔ Reorders (us ++ closing :: opening :: vs) out := by
  simp only [reorders_iff, List.map_append, List.map_cons, ht, hclosing, hopening]
  rw [Content.arrange_append_congr fun stack => Content.arrange_separator stack _ c d o]

end Token

/-! ## Texts -/

namespace Grammar

variable {g : Grammar α} {expected : Expectation} {offset : Nat} {c d : Char}
  {before after more rest : List Char} {content : Token.Content α}
  {contents : List (Token.Content α)} {e e' : Expression g}

/-- Behind its first character a token holds no mark. -/
theorem not_isMark_of_contentAt (hg : g.MarksApart)
    (h : g.contentAt expected offset c (more ++ rest) = .ok (content, more.length))
    (hd : d ∈ more) : ¬ g.IsMark d := by
  intro hmark
  obtain ⟨hname, hpoint⟩ := hg.plain d hmark
  cases g.lexemeAt expected c with
  | operator op _ read =>
    rw [read] at h
    obtain rfl := List.eq_nil_of_length_eq_zero (Prod.mk.inj (Except.ok.inj h)).2.symm
    cases hd
  | name _ read =>
    rw [read] at h
    obtain ⟨-, hmore, -⟩ := exact_of_map_takeWhile h
    simp [hmore d hd] at hname
  | numeral _ read =>
    rw [read] at h
    obtain ⟨-, hmore, -⟩ := exact_of_map_takeWhile h
    have hpart := Token.isNumeralPart_eq_false hname hpoint
    simp [hmore d hd] at hpart
  | mark read =>
    rw [read] at h
    obtain ⟨_, -, heq⟩ := map_eq_ok_iff.1 h
    obtain rfl := List.eq_nil_of_length_eq_zero (Prod.mk.inj heq).2.symm
    cases hd

/-- The character of the separator is a token of its own, wherever it stands. -/
theorem contentAt_separator (hg : g.MarksApart) (expected : Expectation) (offset : Nat)
    (cs : List Char) :
    g.contentAt expected offset g.separator cs = .ok (.separator g.separator, 0) := by
  rw [contentAt_of_isMark hg hg.not_isGlyph_separator isMark_separator, contentOfMark, if_pos rfl,
    map_ok]

/-- **A text is read up to a separator as it is alone**, and behind it as where an operand is to
start. -/
theorem Scans.exists_of_separator (hg : g.MarksApart)
    (h : g.Scans expected (before ++ g.separator :: after) contents) :
    ∃ us vs, contents = us ++ .separator g.separator :: vs ∧ g.Scans expected before us ∧
      g.Scans .operand after vs := by
  generalize hall : before ++ g.separator :: after = cs at h
  induction h generalizing before with
  | done => simp at hall
  | @space expected c cs contents blank others ih =>
    cases before with
    | nil =>
      rw [List.nil_append, List.cons.injEq] at hall
      obtain ⟨rfl, -⟩ := hall
      simp [hg.isWhitespace_separator] at blank
    | cons d before =>
      rw [List.cons_append, List.cons.injEq] at hall
      obtain ⟨rfl, hall⟩ := hall
      obtain ⟨us, vs, rfl, hus, hvs⟩ := ih hall
      exact ⟨us, vs, rfl, .space blank hus, hvs⟩
  | @token expected c more rest content contents solid read others ih =>
    cases before with
    | nil =>
      rw [List.nil_append, List.cons_append, List.cons.injEq] at hall
      obtain ⟨rfl, hall⟩ := hall
      have hread := (contentAt_separator hg expected 0 _).symm.trans (read 0)
      obtain ⟨rfl, hlength⟩ := Prod.mk.inj (Except.ok.inj hread)
      obtain rfl := List.eq_nil_of_length_eq_zero hlength.symm
      obtain rfl : after = rest := hall
      exact ⟨[], contents, rfl, .done expected, others⟩
    | cons d before =>
      rw [List.cons_append, List.cons_append, List.cons.injEq] at hall
      obtain ⟨rfl, hall⟩ := hall
      -- The separator is not within the token, so the token ends before it.
      have hout : g.separator ∉ more := fun hin =>
        not_isMark_of_contentAt hg (read 0) hin isMark_separator
      obtain ⟨inner, rfl, hrest⟩ : ∃ inner, before = more ++ inner ∧
          inner ++ g.separator :: after = rest := by
        rcases List.append_eq_append_iff.1 hall with ⟨inner, rfl, hsep⟩ | ⟨inner, rfl, hrest⟩
        · cases inner with
          | nil => exact ⟨[], by simp, by simpa using hsep⟩
          | cons x inner =>
            rw [List.cons_append, List.cons.injEq] at hsep
            simp [← hsep.1] at hout
        · exact ⟨inner, rfl, hrest.symm⟩
      obtain ⟨us, vs, rfl, hus, hvs⟩ := ih hrest
      have hlike : BeginsLike rest inner := by
        rw [← hrest]
        cases inner with
        | nil => exact beginsLike_nil
        | cons x inner => exact fun d hd => .inl hd
      exact ⟨content :: us, vs, rfl,
        .token more solid (fun offset => contentAt_before (read offset) hlike offset) hus, hvs⟩

/-- **In a text, the two braces may stand for a separator**: it is parsed into the same order. -/
theorem exists_parse_interchanged (hg : g.MarksApart)
    (h : g.parse (String.ofList (before ++ g.separator :: after)) = .ok e) :
    ∃ e', g.parse (String.ofList (before ++ g.closeBrace :: g.openBrace :: after)) = .ok e' ∧
      e'.tokens.map Token.content = e.tokens.map Token.content := by
  obtain ⟨contents, hreads, harrange⟩ := exists_parse_iff.1 ⟨e, h, phase_of_parse h, rfl⟩
  obtain ⟨-, hspells⟩ := reads_iff.1 hreads
  rw [String.toList_ofList, spells_iff_scans] at hspells
  obtain ⟨us, vs, rfl, hus, hvs⟩ := hspells.exists_of_separator hg
  have hbraces : g.Spells .operand (before ++ g.closeBrace :: g.openBrace :: after)
      (us ++ .closeBrace g.closeBrace :: .openBrace g.openBrace :: vs) :=
    (spells_iff_scans.2 hus).append (breaks_of_isMark hg isMark_closeBrace)
      (spells_closeBrace hg (spells_openBrace hg (spells_iff_scans.2 hvs)))
  have hreads' : g.Reads (String.ofList (before ++ g.closeBrace :: g.openBrace :: after))
      (us ++ .closeBrace g.closeBrace :: .openBrace g.openBrace :: vs) := by
    refine reads_iff.2 ⟨fun hempty => ?_, by rwa [String.toList_ofList]⟩
    simpa using congrArg String.toList hempty
  rw [Token.Content.arrange_append_congr fun stack =>
    Token.Content.arrange_separator stack vs _ g.closeBrace g.openBrace] at harrange
  obtain ⟨e', hparse, -, hcontents⟩ := exists_parse_iff.2 ⟨_, hreads', harrange⟩
  exact ⟨e', hparse, hcontents⟩

/-- **Where no variable is free, expressions of the same contents have the same value**, or the same
error. -/
theorem evaluate_eq_of_contents {text text' : String} (hclosed : g.freeVariables = false)
    (h : g.parse text = .ok e) (h' : g.parse text' = .ok e')
    (hcontents : e'.tokens.map Token.content = e.tokens.map Token.content)
    (bindings : Bindings α) : e'.evaluate bindings = e.evaluate bindings := by
  obtain ⟨ts, -, hsound, hphase⟩ := exists_sound_of_parse h
  have hresolved : ∀ t ∈ e.tokens, t.Resolved (g.valueOf? bindings) := fun t ht =>
    ⟨(hsound.operandsFirst hphase).1 t ht, fun name hname =>
      exists_value_of_parse h hclosed (hsound.mem_variableNames.2 ⟨t, ht, hname⟩) bindings⟩
  simp only [Expression.evaluate, hphase, phase_of_parse h',
    runOn_of_map_content_eq hcontents.symm hresolved]

end Grammar

end Reckon

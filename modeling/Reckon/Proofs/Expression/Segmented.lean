import Reckon.Proofs.Expression.Located
import Reckon.Proofs.Expression.Progress

/-!
# Proofs/Expression/Segmented — a text is its tokens and the white space around them

The spans of the tokens of a text **follow one another, and under each one stands the lexeme of its
token**, a name or a numeral up to the first character that does not carry it on
(`Grammar.IsLexeme`); all characters under none of them are white space
(`Grammar.segments_of_tokenize`).
-/

namespace Reckon

variable {α : Type}

namespace Span

/-- The place is within the span. -/
def Holds (s : Span) (p : Nat) : Prop := s.start ≤ p ∧ p < s.stop

/-- What stands under the span in a text. -/
def cut (s : Span) (text : List Char) : List Char := (text.drop s.start).take s.length

theorem cut_append (before part after : List Char) :
    cut ⟨before.length, before.length + part.length⟩ (before ++ (part ++ after)) = part := by
  simp [cut, length]

end Span

/-- The name that a token is, if it is one. -/
def Token.Content.name? : Token.Content α → Option String
  | .variable name => some name
  | function f => some f.name
  | number _ | operator _ | openBrace _ | closeBrace _ | separator _ => none

namespace Grammar

/-- Before the character `next?`, if there is one, the lexeme is that of a token of this content. -/
def IsLexeme (g : Grammar α) (lexeme : String) (next? : Option Char) : Token.Content α → Prop
  | .number value =>
    (Token.IsNumeral lexeme ∧ ∀ d ∈ next?, Token.isNumeralPart d = false) ∧
      g.convert lexeme = .ok value
  | .variable name =>
    (Token.IsName lexeme ∧ ∀ d ∈ next?, Token.isNamePart d = false) ∧
      lexeme = name ∧ g.functions.get? name = none
  | .function f =>
    (Token.IsName lexeme ∧ ∀ d ∈ next?, Token.isNamePart d = false) ∧
      lexeme = f.name ∧ g.functions.get? f.name = some f
  | .operator op => lexeme = op.text ∧ op ∈ g.operators
  | .openBrace c => lexeme = c.toString ∧ c = g.openBrace
  | .closeBrace c => lexeme = c.toString ∧ c = g.closeBrace
  | .separator c => lexeme = c.toString ∧ c = g.separator

variable {g : Grammar α} {expected : Expectation} {offset : Nat} {c : Char}
  {cs more rest : List Char} {content : Token.Content α} {ts : List (Token α)}

theorem isLexeme_of_contentOfName {name : String} {next? : Option Char}
    (h : g.contentOfName offset name = .ok content)
    (hname : Token.IsName name ∧ ∀ d ∈ next?, Token.isNamePart d = false) :
    g.IsLexeme name next? content := by
  rw [contentOfName] at h
  cases hf : g.functions.get? name with
  | some f =>
    simp only [hf, Except.ok.injEq] at h
    obtain rfl := Catalogue.key_of_get? hf
    exact h ▸ ⟨hname, rfl, hf⟩
  | none =>
    simp only [hf] at h
    split at h
    · exact Except.ok.inj h ▸ ⟨hname, rfl, hf⟩
    · cases h

theorem isLexeme_of_contentOfNumeral {numeral : String} {next? : Option Char}
    (h : g.contentOfNumeral offset numeral = .ok content)
    (hnumeral : Token.IsNumeral numeral ∧ ∀ d ∈ next?, Token.isNumeralPart d = false) :
    g.IsLexeme numeral next? content := by
  rw [contentOfNumeral] at h
  cases hvalue : g.convert numeral with
  | ok value =>
    simp only [hvalue, Except.ok.injEq] at h
    exact h ▸ ⟨hnumeral, hvalue⟩
  | error cause =>
    simp only [hvalue] at h
    cases h

theorem isLexeme_of_contentOfMark {next? : Option Char}
    (h : g.contentOfMark offset c = .ok content) : g.IsLexeme c.toString next? content := by
  rw [contentOfMark] at h
  split_ifs at h with hseparator hopen hclose
  · exact Except.ok.inj h ▸ ⟨rfl, hseparator⟩
  · exact Except.ok.inj h ▸ ⟨rfl, hopen⟩
  · exact Except.ok.inj h ▸ ⟨rfl, hclose⟩

/-- **What a token takes up of the text is its lexeme.** -/
theorem isLexeme_of_contentAt
    (h : g.contentAt expected offset c (more ++ rest) = .ok (content, more.length)) :
    g.IsLexeme (String.ofList (c :: more)) rest.head? content := by
  cases g.lexemeAt expected c with
  | operator op found read =>
    obtain ⟨rfl, hmem⟩ := mem_operators_of_operatorAt? found
    rw [read] at h
    obtain ⟨rfl, hlength⟩ := Prod.mk.inj (Except.ok.inj h)
    obtain rfl := List.eq_nil_of_length_eq_zero hlength.symm
    exact ⟨rfl, hmem⟩
  | name start read =>
    rw [read] at h
    obtain ⟨hcontent, hmore, hrest⟩ := exact_of_map_takeWhile h
    exact isLexeme_of_contentOfName hcontent
      ⟨⟨c, more, String.toList_ofList, start, hmore⟩, hrest⟩
  | numeral start read =>
    rw [read] at h
    obtain ⟨hcontent, hmore, hrest⟩ := exact_of_map_takeWhile h
    exact isLexeme_of_contentOfNumeral hcontent
      ⟨⟨c, more, String.toList_ofList, start, hmore⟩, hrest⟩
  | mark read =>
    rw [read] at h
    obtain ⟨_, hcontent, heq⟩ := map_eq_ok_iff.1 h
    obtain ⟨rfl, hlength⟩ := Prod.mk.inj heq
    obtain rfl := List.eq_nil_of_length_eq_zero hlength.symm
    exact isLexeme_of_contentOfMark hcontent

/-- A lexeme that is a name is that of a function iff there is a function of this name. -/
theorem IsLexeme.isFunction_iff {lexeme name : String} {next? : Option Char}
    (h : g.IsLexeme lexeme next? content) (hname : content.name? = some name) :
    (∃ f, content = .function f) ↔ (g.functions.get? name).isSome = true := by
  match content with
  | .variable _ =>
    obtain rfl := Option.some.inj hname
    obtain ⟨-, -, hnone⟩ := h
    simp [hnone]
  | .function f =>
    obtain rfl := Option.some.inj hname
    obtain ⟨-, -, hsome⟩ := h
    simp [hsome]
  | .number _ | .operator _ | .openBrace _ | .closeBrace _ | .separator _ => cases hname

/-- **Each token starts where the one before it has stopped, or later.** -/
theorem ScansBefore.pairwise (h : g.ScansBefore rest expected offset cs ts) :
    ts.Pairwise fun t u => t.span.stop ≤ u.span.start := by
  induction h with
  | done => exact .nil
  | space _ _ ih => exact ih
  | token more _ _ others ih => exact .cons (fun u hu => (others.bounds hu).1) ih

/-- **What no token holds is white space.** -/
theorem ScansBefore.isWhitespace_of_outside (h : g.ScansBefore rest expected offset cs ts)
    {i : Nat} (hc : cs[i]? = some c) (hout : ∀ t ∈ ts, ¬ t.span.Holds (offset + i)) :
    g.isWhitespace c = true := by
  induction h generalizing i with
  | done => cases hc
  | @space expected offset d cs ts blank _ ih =>
    cases i with
    | zero =>
      obtain rfl : d = c := by simpa using hc
      exact blank
    | succ i =>
      have hplace : offset + (i + 1) = offset + 1 + i := by omega
      exact ih (by simpa using hc) (hplace ▸ hout)
  | @token expected offset d more cs content ts _ _ _ ih =>
    have hfirst := hout _ (List.mem_cons_self ..)
    obtain ⟨j, rfl⟩ : ∃ j, i = more.length + 1 + j :=
      ⟨i - (more.length + 1), by simp only [Span.Holds] at hfirst; omega⟩
    have hplace : offset + (more.length + 1 + j) = offset + (more.length + 1) + j := by omega
    refine ih ?_ fun t ht => hplace ▸ hout t (by simp [ht])
    rwa [← List.cons_append, List.getElem?_append_right (by simp), List.length_cons,
      Nat.add_sub_cancel_left] at hc

/-- **Under the span of each token stands its lexeme.** -/
theorem ScansBefore.isLexeme (h : g.ScansBefore [] expected 0 cs ts) {t : Token α} (ht : t ∈ ts) :
    g.IsLexeme (String.ofList (t.span.cut cs)) cs[t.span.stop]? t.content := by
  obtain ⟨us, vs, rfl⟩ := List.append_of_mem ht
  obtain ⟨before, c, more, after, rfl, -, hspan, hread⟩ := h.exists_of_append
  have hcut : t.span.cut (before ++ c :: (more ++ after)) = c :: more := by
    rw [hspan, Nat.zero_add]
    exact Span.cut_append before (c :: more) after
  have hnext : (before ++ c :: (more ++ after))[t.span.stop]? = after.head? := by
    have hall : before ++ c :: (more ++ after) = (before ++ c :: more) ++ after := by simp
    rw [hspan, hall, List.getElem?_append_right (by simp), List.head?_eq_getElem?]
    congr 1
    simp
  rw [hcut, hnext]
  rw [List.append_nil] at hread
  exact isLexeme_of_contentAt hread

/-- **A text that is read is its tokens, one after the other, with white space around them.**  Each
token holds a character or more of the text, they follow one another, what none of them holds is
white space, and under each of them stands its lexeme; a name is a function iff there is a function
of this name. -/
theorem segments_of_tokenize (g : Grammar α) {text : String} {e : Expression g}
    (h : g.tokenize text = .ok e) :
    (∀ t ∈ e.tokens, t.span.start < t.span.stop ∧ t.span.stop ≤ text.length) ∧
      (e.tokens.Pairwise fun t u => t.span.stop ≤ u.span.start) ∧
      (∀ (p : Nat) (c : Char), text.toList[p]? = some c → (∀ t ∈ e.tokens, ¬ t.span.Holds p) →
        g.isWhitespace c = true) ∧
      (∀ t ∈ e.tokens, g.IsLexeme (String.ofList (t.span.cut text.toList))
        text.toList[t.span.stop]? t.content) ∧
      ∀ t ∈ e.tokens, ∀ name, t.content.name? = some name →
        ((∃ f, t.content = .function f) ↔ (g.functions.get? name).isSome = true) := by
  obtain ⟨-, -, hscans⟩ := scansBefore_of_tokenize h
  refine ⟨fun t ht => ?_, hscans.pairwise, fun p c hc hout => ?_, fun t ht => hscans.isLexeme ht,
    fun t ht name hname => (hscans.isLexeme ht).isFunction_iff hname⟩
  · obtain ⟨-, hstart, hstop⟩ := hscans.bounds ht
    rw [String.length_toList, Nat.zero_add] at hstop
    exact ⟨hstart, hstop⟩
  · exact hscans.isWhitespace_of_outside hc (by simpa using hout)

/-- The integers with a negation and a maximum, and with variables. -/
private def maxima : Grammar Int :=
  .ofDeclarations (fun numeral => if numeral = "1.5" then .ok 3 else .error ⟨"unknown numeral"⟩)
    [.prefixOp '-' 5 (fun a => .ok (-a)) none,
      .function "max" (.binary fun a b => .ok (max a b)) none, .freeVariables true]

private def maximaTokens : List (Token Int) :=
  [⟨.function ⟨"max", .binary fun a b => .ok (max a b), .unbounded⟩, 1, 4⟩,
    ⟨.openBrace '(', 4, 5⟩, ⟨.variable "λ2", 5, 7⟩, ⟨.separator ',', 7, 8⟩,
    ⟨.operator (.prefixOf '-' 5 (fun a => .ok (-a)) .unbounded), 8, 9⟩, ⟨.number 3, 9, 12⟩,
    ⟨.closeBrace ')', 12, 13⟩]

/-- A letter of two bytes takes up one place. -/
theorem segments_of_tokenize_maximum :
    maxima.tokenize " max(λ2,-1.5)" = .ok (.ofTokens maximaTokens) ∧
      (maximaTokens.Pairwise fun t u => t.span.stop ≤ u.span.start) ∧
      ∀ t ∈ maximaTokens, maxima.IsLexeme (String.ofList (t.span.cut " max(λ2,-1.5)".toList))
        " max(λ2,-1.5)".toList[t.span.stop]? t.content := by
  have htokens : maxima.tokenize " max(λ2,-1.5)" = .ok (.ofTokens maximaTokens) := by
    with_unfolding_all rfl
  obtain ⟨-, hfollow, -, hlexemes, -⟩ := segments_of_tokenize maxima htokens
  exact ⟨htokens, hfollow, hlexemes⟩

end Grammar

end Reckon

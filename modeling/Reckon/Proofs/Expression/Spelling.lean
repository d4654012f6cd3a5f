import Reckon.Proofs.Grammar.Marks
import Reckon.Proofs.Result

/-!
# Proofs/Expression/Spelling — one token after another

What a text is read as depends on what may stand at its start and not on how far in it stands
(`Grammar.Spells`).  One lemma for each kind of token puts it before a text that is read already; a
name or a numeral needs **a text that does not carry it on** (`Breaks`).
-/

namespace Reckon

variable {α : Type}

namespace Grammar

/-- Wherever the text `cs` starts, it is read as tokens of these contents. -/
def Spells (g : Grammar α) (expected : Expectation) (cs : List Char)
    (contents : List (Token.Content α)) : Prop :=
  ∀ offset, ∃ ts, g.tokensFrom expected ⟨cs, offset⟩ = .ok ts ∧ ts.map Token.content = contents

/-- The text carries on neither a name nor a numeral that ends before it. -/
def Breaks (cs : List Char) : Prop :=
  ∀ c ∈ cs.head?, Token.isNamePart c = false ∧ Token.isNumeralPart c = false

variable {g : Grammar α} {expected : Expectation} {c : Char} {cs more rest : List Char}
  {content : Token.Content α} {contents : List (Token.Content α)}

theorem takeWhile_append_of_head {part : Char → Bool} (hrest : ∀ d ∈ rest.head?, part d = false) :
    (cs ++ rest).takeWhile part = cs.takeWhile part := by
  induction cs with
  | nil =>
    cases rest with
    | nil => rfl
    | cons d rest => simp [hrest d rfl]
  | cons c cs ih =>
    rw [List.cons_append, List.takeWhile_cons, List.takeWhile_cons, ih]

theorem takeWhile_append_of_breaks {part : Char → Bool} (hmore : ∀ d ∈ more, part d = true)
    (hrest : ∀ d ∈ rest.head?, part d = false) : (more ++ rest).takeWhile part = more := by
  rw [List.takeWhile_append_of_pos hmore, ← List.nil_append rest, takeWhile_append_of_head hrest,
    List.takeWhile_nil, List.append_nil]

theorem spells_nil : g.Spells expected [] [] := fun _ => ⟨[], by rw [tokensFrom], rfl⟩

theorem spells_space (hc : g.isWhitespace c = true) (h : g.Spells expected cs contents) :
    g.Spells expected (c :: cs) contents := by
  intro offset
  obtain ⟨ts, hts, hcontents⟩ := h (offset + 1)
  exact ⟨ts, by rw [tokensFrom, if_pos hc, hts], hcontents⟩

/-- White space is passed over. -/
theorem spells_gap {gap : List Char} (hgap : ∀ c ∈ gap, g.isWhitespace c = true)
    (h : g.Spells expected cs contents) : g.Spells expected (gap ++ cs) contents := by
  induction gap with
  | nil => exact h
  | cons c gap ih =>
    exact spells_space (hgap c (by simp)) (ih fun d hd => hgap d (by simp [hd]))

/-- **One token**: its characters `c :: more`, and then the rest. -/
theorem spells_cons (more : List Char) (hc : g.isWhitespace c = false)
    (hcontent : ∀ offset, g.contentAt expected offset c (more ++ rest) = .ok (content, more.length))
    (h : g.Spells (.after content) rest contents) :
    g.Spells expected (c :: more ++ rest) (content :: contents) := by
  intro offset
  obtain ⟨ts, hts, hcontents⟩ := h (offset + (more.length + 1))
  have htake : (more ++ rest).take more.length = more := List.take_left
  have hdrop : (more ++ rest).drop more.length = rest := List.drop_left
  have hnext : (Cursor.take ⟨c :: (more ++ rest), offset⟩ (more.length + 1)).2 =
      ⟨rest, offset + (more.length + 1)⟩ := by
    simp [Cursor.take, htake, hdrop]
  refine ⟨⟨content, (Cursor.take ⟨c :: (more ++ rest), offset⟩ (more.length + 1)).1.span⟩ :: ts,
    ?_, by rw [List.map_cons, hcontents]⟩
  rw [List.cons_append, tokensFrom, if_neg (by simp [hc]), hcontent]
  simp only [hnext, hts]
  rfl

variable (hg : g.MarksApart)
include hg

theorem breaks_of_isMark (hc : g.IsMark c) : Breaks (c :: cs) := by
  obtain ⟨hname, hpoint⟩ := hg.plain c hc
  intro d hd
  obtain rfl : c = d := by simpa using hd
  exact ⟨hname, Token.isNumeralPart_eq_false hname hpoint⟩

/-- White space and then a mark break off what stands before. -/
theorem breaks_gap {gap : List Char} (hgap : ∀ c ∈ gap, g.isWhitespace c = true)
    (hc : g.IsMark c) : Breaks (gap ++ c :: cs) := by
  cases gap with
  | nil => exact breaks_of_isMark hg hc
  | cons d gap => exact breaks_of_isMark hg (.inr (.inl (hgap d (by simp))))

theorem spells_operator {op : Operator α} (hop : g.operatorAt? expected c = some op)
    (hglyph : g.IsGlyph c) (h : g.Spells (.after (.operator op)) cs contents) :
    g.Spells expected (c :: cs) (.operator op :: contents) := by
  refine spells_cons [] (hg.glyph c hglyph).1 (fun offset => ?_) h
  simp [contentAt, hop]

/-- What a mark that is no glyph stands for does not depend on what may stand at its place. -/
theorem contentAt_of_isMark (hglyph : ¬ g.IsGlyph c) (hmark : g.IsMark c)
    (expected : Expectation) (offset : Nat) (cs : List Char) :
    g.contentAt expected offset c cs = (g.contentOfMark offset c).map (·, 0) := by
  obtain ⟨hname, -⟩ := hg.plain c hmark
  simp [contentAt, operatorAt?_eq_none hglyph, Token.isNameStart_eq_false hname,
    Token.isNumeralStart_eq_false hname]

/-- A mark that is neither a glyph nor white space stands for itself. -/
theorem spells_mark (hspace : g.isWhitespace c = false) (hglyph : ¬ g.IsGlyph c)
    (hmark : g.IsMark c) (hcontent : ∀ offset, g.contentOfMark offset c = .ok content)
    (h : g.Spells (.after content) cs contents) :
    g.Spells expected (c :: cs) (content :: contents) := by
  refine spells_cons [] hspace (fun offset => ?_) h
  rw [contentAt_of_isMark hg hglyph hmark, hcontent, map_ok, List.length_nil]

theorem spells_openBrace (h : g.Spells .operand cs contents) :
    g.Spells expected (g.openBrace :: cs) (.openBrace g.openBrace :: contents) := by
  refine spells_mark hg hg.isWhitespace_openBrace hg.not_isGlyph_openBrace isMark_openBrace
    (fun offset => ?_) h
  rw [contentOfMark, if_neg hg.separator.1.symm, if_pos rfl]

theorem spells_closeBrace (h : g.Spells .operator cs contents) :
    g.Spells expected (g.closeBrace :: cs) (.closeBrace g.closeBrace :: contents) := by
  refine spells_mark hg hg.isWhitespace_closeBrace hg.not_isGlyph_closeBrace isMark_closeBrace
    (fun offset => ?_) h
  rw [contentOfMark, if_neg hg.separator.2.symm, if_neg hg.braces.symm, if_pos rfl]

theorem spells_separator (h : g.Spells .operand cs contents) :
    g.Spells expected (g.separator :: cs) (.separator g.separator :: contents) := by
  refine spells_mark hg hg.isWhitespace_separator hg.not_isGlyph_separator isMark_separator
    (fun offset => ?_) h
  rw [contentOfMark, if_pos rfl]

theorem spells_name {name : String} (hname : Token.IsName name) (hrest : Breaks rest)
    (hcontent : ∀ offset, g.contentOfName offset name = .ok content)
    (h : g.Spells (.after content) rest contents) :
    g.Spells expected (name.toList ++ rest) (content :: contents) := by
  obtain ⟨c, more, htext, hstart, hparts⟩ := hname
  have hmark := hg.not_isMark_of_isNameStart hstart
  rw [htext]
  refine spells_cons more (isWhitespace_of_not_isMark hmark) (fun offset => ?_) h
  have htake : (more ++ rest).takeWhile Token.isNamePart = more :=
    takeWhile_append_of_breaks hparts fun d hd => (hrest d hd).1
  have htext : String.ofList (c :: more) = name := by rw [← htext, String.ofList_toList]
  simp [contentAt, operatorAt?_eq_none (not_isGlyph_of_not_isMark hmark), hstart, htake, htext,
    hcontent]

theorem spells_numeral {numeral : String} {value : α} (hnumeral : Token.IsNumeral numeral)
    (hvalue : g.convert numeral = .ok value) (hrest : Breaks rest)
    (h : g.Spells .operator rest contents) :
    g.Spells expected (numeral.toList ++ rest) (.number value :: contents) := by
  obtain ⟨c, more, htext, hstart, hparts⟩ := hnumeral
  have hmark := hg.not_isMark_of_isNumeralStart hstart
  rw [htext]
  refine spells_cons more (isWhitespace_of_not_isMark hmark) (fun offset => ?_) h
  have htake : (more ++ rest).takeWhile Token.isNumeralPart = more :=
    takeWhile_append_of_breaks hparts fun d hd => (hrest d hd).2
  have htext : String.ofList (c :: more) = numeral := by rw [← htext, String.ofList_toList]
  simp [contentAt, operatorAt?_eq_none (not_isGlyph_of_not_isMark hmark),
    Token.isNameStart_of_isDigit hstart, hstart, htake, htext, contentOfNumeral, hvalue]

end Grammar

end Reckon

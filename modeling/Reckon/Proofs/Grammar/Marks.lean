import Reckon.Expression.Lexing
import Reckon.Proofs.Grammar.Lookup

/-!
# Proofs/Grammar/Marks — grammars whose marks are told apart

A mark is a glyph, a brace, the separator or white space.  Where they are all different and **none
of them may stand in a name or a numeral** (`Grammar.MarksApart`), the first character of a token
decides what kind of token it is.
-/

namespace Reckon

variable {α : Type}

/-! ## Letters and digits -/

namespace Token

theorem toNat_of_isDigit {c : Char} (h : c.isDigit = true) : 48 ≤ c.toNat ∧ c.toNat ≤ 57 := by
  rw [Char.isDigit, Bool.and_eq_true, decide_eq_true_iff, decide_eq_true_iff] at h
  exact ⟨UInt32.le_iff_toNat_le.1 h.1, UInt32.le_iff_toNat_le.1 h.2⟩

/-- No name begins with a digit. -/
theorem isNameStart_of_isDigit {c : Char} (h : c.isDigit = true) : isNameStart c = false := by
  obtain ⟨hlo, hhi⟩ := toNat_of_isDigit h
  have hnone : ∀ n < 58, Text.alphabeticRanges.covers n = false := by decide
  exact hnone c.toNat (by omega)

/-- A name goes on over digits. -/
theorem isNamePart_of_isDigit {c : Char} (h : c.isDigit = true) : isNamePart c = true := by
  obtain ⟨hlo, hhi⟩ := toNat_of_isDigit h
  have hall : ∀ n < 58, 48 ≤ n → Text.numericRanges.covers n = true := by decide
  rw [isNamePart, Bool.or_eq_true]
  exact .inr (hall c.toNat (by omega) hlo)

theorem isNamePart_of_isNameStart {c : Char} (h : isNameStart c = true) : isNamePart c = true := by
  rw [isNamePart, Bool.or_eq_true]
  exact .inl h

theorem isNumeralStart_eq_false {c : Char} (h : isNamePart c = false) : isNumeralStart c = false :=
  Bool.eq_false_iff.2 fun hdigit => by simp [isNamePart_of_isDigit hdigit] at h

theorem isNumeralPart_eq_false {c : Char} (h : isNamePart c = false) (hpoint : c ≠ '.') :
    isNumeralPart c = false := by
  rw [isNumeralPart, Bool.or_eq_false_iff]
  exact ⟨isNumeralStart_eq_false h, by simpa using hpoint⟩

theorem isNameStart_eq_false {c : Char} (h : isNamePart c = false) : isNameStart c = false :=
  Bool.eq_false_iff.2 fun hstart => by simp [isNamePart_of_isNameStart hstart] at h

/-- The text is a name: a letter, then letters and numeric characters. -/
def IsName (name : String) : Prop :=
  ∃ c cs, name.toList = c :: cs ∧ isNameStart c = true ∧ ∀ d ∈ cs, isNamePart d = true

/-- The text is a numeral: a digit, then digits and points. -/
def IsNumeral (numeral : String) : Prop :=
  ∃ c cs, numeral.toList = c :: cs ∧ isNumeralStart c = true ∧ ∀ d ∈ cs, isNumeralPart d = true

end Token

/-! ## Marks -/

namespace Grammar

variable (g : Grammar α)

/-- The character stands for an operator somewhere. -/
def IsGlyph (c : Char) : Prop := g.prefixOperators.get? c ≠ none ∨ g.infixOperators.get? c ≠ none

/-- The character is a glyph, a brace, the separator or white space. -/
def IsMark (c : Char) : Prop :=
  g.IsGlyph c ∨ g.isWhitespace c = true ∨ c = g.openBrace ∨ c = g.closeBrace ∨ c = g.separator

/-- The marks are told apart from each other, and from what names and numerals are made of. -/
structure MarksApart : Prop where
  glyph : ∀ c, g.IsGlyph c →
    g.isWhitespace c = false ∧ c ≠ g.openBrace ∧ c ≠ g.closeBrace ∧ c ≠ g.separator
  space : ∀ c, g.isWhitespace c = true → c ≠ g.openBrace ∧ c ≠ g.closeBrace ∧ c ≠ g.separator
  braces : g.openBrace ≠ g.closeBrace
  separator : g.separator ≠ g.openBrace ∧ g.separator ≠ g.closeBrace
  plain : ∀ c, g.IsMark c → Token.isNamePart c = false ∧ c ≠ '.'

variable {g}

theorem isGlyph_of_prefix {c : Char} {op : Operator α} (h : g.prefixOperators.get? c = some op) :
    g.IsGlyph c := .inl (by simp [h])

theorem isGlyph_of_infix {c : Char} {op : Operator α} (h : g.infixOperators.get? c = some op) :
    g.IsGlyph c := .inr (by simp [h])

theorem isMark_openBrace : g.IsMark g.openBrace := .inr (.inr (.inl rfl))

theorem isMark_closeBrace : g.IsMark g.closeBrace := .inr (.inr (.inr (.inl rfl)))

theorem isMark_separator : g.IsMark g.separator := .inr (.inr (.inr (.inr rfl)))

/-- A character that is no glyph stands for no operator, wherever it stands. -/
theorem operatorAt?_eq_none {c : Char} (h : ¬ g.IsGlyph c) (expected : Expectation) :
    g.operatorAt? expected c = none := by
  simp only [IsGlyph, not_or, ne_eq, Decidable.not_not] at h
  cases expected with
  | operand => exact h.1
  | operator => exact h.2
  | bareOperand => rfl

/-- Marks are told apart if those in lists of them are. -/
theorem MarksApart.of_lists (glyphs : List Char) (hglyphs : ∀ c, g.IsGlyph c → c ∈ glyphs)
    (hglyph : (glyphs.all fun c =>
      !(g.whitespace ++ [g.openBrace, g.closeBrace, g.separator]).contains c) = true)
    (hspace : (g.whitespace.all fun c =>
      !([g.openBrace, g.closeBrace, g.separator].contains c)) = true)
    (hbraces : decide ([g.openBrace, g.closeBrace, g.separator].Nodup) = true)
    (hplain : ((glyphs ++ g.whitespace ++ [g.openBrace, g.closeBrace, g.separator]).all fun c =>
      !Token.isNamePart c && c != '.') = true) : g.MarksApart := by
  simp only [List.all_eq_true, Bool.not_eq_true', List.contains_eq_mem, decide_eq_false_iff_not,
    List.mem_append, List.mem_cons, List.not_mem_nil, or_false, not_or, Bool.and_eq_true,
    bne_iff_ne, decide_eq_true_eq, List.nodup_cons, List.nodup_nil] at hglyph hspace hbraces hplain
  have hwhite : ∀ c, g.isWhitespace c = true ↔ c ∈ g.whitespace := by simp [isWhitespace]
  refine ⟨fun c hc => ?_, fun c hc => hspace c ((hwhite c).1 hc), hbraces.1.1,
    ⟨fun h => hbraces.1.2 h.symm, fun h => hbraces.2.1 h.symm⟩, fun c hc => hplain c ?_⟩
  · obtain ⟨hnot, hmark⟩ := hglyph c (hglyphs c hc)
    exact ⟨Bool.eq_false_iff.2 fun h => hnot ((hwhite c).1 h), hmark⟩
  · rcases hc with hc | hc | hc
    · exact .inl (.inl (hglyphs c hc))
    · exact .inl (.inr ((hwhite c).1 hc))
    · exact .inr hc

namespace MarksApart

variable (hg : g.MarksApart) {c : Char}
include hg

theorem not_isGlyph_openBrace : ¬ g.IsGlyph g.openBrace := fun h => (hg.glyph _ h).2.1 rfl

theorem not_isGlyph_closeBrace : ¬ g.IsGlyph g.closeBrace := fun h => (hg.glyph _ h).2.2.1 rfl

theorem not_isGlyph_separator : ¬ g.IsGlyph g.separator := fun h => (hg.glyph _ h).2.2.2 rfl

theorem isWhitespace_openBrace : g.isWhitespace g.openBrace = false :=
  Bool.eq_false_iff.2 fun h => (hg.space _ h).1 rfl

theorem isWhitespace_closeBrace : g.isWhitespace g.closeBrace = false :=
  Bool.eq_false_iff.2 fun h => (hg.space _ h).2.1 rfl

theorem isWhitespace_separator : g.isWhitespace g.separator = false :=
  Bool.eq_false_iff.2 fun h => (hg.space _ h).2.2 rfl

/-- What may stand in a name is no mark. -/
theorem not_isMark_of_isNamePart (h : Token.isNamePart c = true) : ¬ g.IsMark c := fun hmark => by
  simp [(hg.plain c hmark).1] at h

theorem not_isMark_of_isNameStart (h : Token.isNameStart c = true) : ¬ g.IsMark c :=
  hg.not_isMark_of_isNamePart (Token.isNamePart_of_isNameStart h)

theorem not_isMark_of_isNumeralStart (h : Token.isNumeralStart c = true) : ¬ g.IsMark c :=
  hg.not_isMark_of_isNamePart (Token.isNamePart_of_isDigit h)

end MarksApart

theorem isWhitespace_of_not_isMark {c : Char} (h : ¬ g.IsMark c) : g.isWhitespace c = false :=
  Bool.eq_false_iff.2 fun hspace => h (.inr (.inl hspace))

theorem not_isGlyph_of_not_isMark {c : Char} (h : ¬ g.IsMark c) : ¬ g.IsGlyph c :=
  fun hglyph => h (.inl hglyph)

end Grammar

/-! ## Declared glyphs -/

/-- The glyph of an operator. -/
def Declaration.glyph? : Declaration α → Option Char
  | .prefixOp symbol _ _ _ | .infixOp symbol _ _ _ _ => some symbol
  | _ => none

/-- The glyphs of a grammar have been declared. -/
theorem Grammar.mem_glyphs {convert : String → Except ConversionError α}
    {ds : List (Declaration α)} {c : Char} (h : (Grammar.ofDeclarations convert ds).IsGlyph c) :
    c ∈ ds.filterMap Declaration.glyph? := by
  rw [List.mem_filterMap]
  rcases h with h | h
  · obtain ⟨op, h⟩ := Option.ne_none_iff_exists'.1 h
    obtain ⟨precedence, f, own, hd, -⟩ := Grammar.exists_declared_prefix h
    exact ⟨_, hd, rfl⟩
  · obtain ⟨op, h⟩ := Option.ne_none_iff_exists'.1 h
    obtain ⟨associativity, precedence, f, own, hd, -⟩ := Grammar.exists_declared_infix h
    exact ⟨_, hd, rfl⟩

end Reckon

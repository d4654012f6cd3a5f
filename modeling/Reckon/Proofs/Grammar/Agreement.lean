import Reckon.Expression.Run
import Reckon.Proofs.Result

/-!
# Proofs/Grammar/Agreement — grammars in which the same is found

Two grammars agree if each glyph and each name is found in both or in neither, with the same meaning,
and their marks are the same.  How the entries are filed does not count: **a text has one value in
both** (`Grammar.AgreesWith.parseAndRun`).
-/

namespace Reckon.Grammar

variable {α : Type}

/-- The same is found in both grammars. -/
structure AgreesWith (g g' : Grammar α) : Prop where
  prefixOperators : ∀ c, g.prefixOperators.get? c = g'.prefixOperators.get? c
  infixOperators : ∀ c, g.infixOperators.get? c = g'.infixOperators.get? c
  functions : ∀ name, g.functions.get? name = g'.functions.get? name
  freeVariables : g.freeVariables = g'.freeVariables
  defaults : ∀ name : String, g.defaults[name]? = g'.defaults[name]?
  whitespace : g.whitespace = g'.whitespace
  separator : g.separator = g'.separator
  openBrace : g.openBrace = g'.openBrace
  closeBrace : g.closeBrace = g'.closeBrace
  convert : g.convert = g'.convert

/-- The value of a text, without the expression that stands between the two. -/
theorem parseAndRun_eq_runOn (g : Grammar α) (text : String) (bindings : Bindings α) :
    g.parseAndRun text bindings = (do
      let ts ← g.tokens text
      let order ← postorder ts
      let stack ← runOn (g.valueOf? bindings) [] (Token.select ts order)
      onlyValue stack) := by
  rw [parseAndRun, parse, tokenize]
  cases g.tokens text with
  | error e => rfl
  | ok ts =>
    simp only [map_ok, ok_bind, Expression.shunt, Expression.ofTokens]
    cases postorder ts <;> rfl

namespace AgreesWith

variable {g g' : Grammar α} (h : g.AgreesWith g')
include h

theorem operatorAt? (expected : Expectation) (c : Char) :
    g.operatorAt? expected c = g'.operatorAt? expected c := by
  cases expected with
  | operand => exact h.prefixOperators c
  | operator => exact h.infixOperators c
  | bareOperand => rfl

theorem admitsVariable (name : String) : g.admitsVariable name = g'.admitsVariable name := by
  rw [Grammar.admitsVariable, Grammar.admitsVariable, h.freeVariables,
    Std.TreeMap.contains_eq_isSome_getElem?, Std.TreeMap.contains_eq_isSome_getElem?, h.defaults]

/-- **What stands at a place of a text is the same in both.** -/
theorem contentAt (expected : Expectation) (offset : Nat) (c : Char) (cs : List Char) :
    g.contentAt expected offset c cs = g'.contentAt expected offset c cs := by
  have hname : g.contentOfName offset = g'.contentOfName offset := by
    funext name
    rw [contentOfName, contentOfName, h.functions, h.admitsVariable]
  have hnumeral : g.contentOfNumeral offset = g'.contentOfNumeral offset := by
    funext numeral
    rw [contentOfNumeral, contentOfNumeral, h.convert]
  have hmark : g.contentOfMark offset = g'.contentOfMark offset := by
    funext c
    rw [contentOfMark, contentOfMark, h.separator, h.openBrace, h.closeBrace]
  rw [Grammar.contentAt, Grammar.contentAt, h.operatorAt?, hname, hnumeral, hmark]

/-- **A text is read alike**, from any place on. -/
theorem tokensFrom (expected : Expectation) (k : Cursor) :
    g.tokensFrom expected k = g'.tokensFrom expected k := by
  have hspace : g'.isWhitespace = g.isWhitespace := by
    funext c
    rw [isWhitespace, isWhitespace, h.whitespace]
  fun_induction g.tokensFrom expected k with
  | case1 => rw [Grammar.tokensFrom]
  | case2 expected c cs offset blank ih => rw [Grammar.tokensFrom, hspace, if_pos blank, ih]
  | case3 expected c cs offset solid e he =>
    rw [Grammar.tokensFrom, hspace, if_neg solid, ← h.contentAt, he]
  | case4 expected c cs offset solid content more hcontent ih =>
    rw [Grammar.tokensFrom, hspace, if_neg solid, ← h.contentAt, hcontent]
    dsimp only
    rw [ih]

theorem tokens (text : String) : g.tokens text = g'.tokens text := by
  rw [Grammar.tokens, Grammar.tokens, h.tokensFrom]

theorem valueOf? (bindings : Bindings α) : g.valueOf? bindings = g'.valueOf? bindings := by
  funext name
  rw [Grammar.valueOf?, Grammar.valueOf?, h.defaults]

/-- **A text has the same value, or the same error, in both.** -/
theorem parseAndRun (text : String) (bindings : Bindings α) :
    g.parseAndRun text bindings = g'.parseAndRun text bindings := by
  rw [parseAndRun_eq_runOn, parseAndRun_eq_runOn, h.tokens, h.valueOf?]

end AgreesWith

end Reckon.Grammar

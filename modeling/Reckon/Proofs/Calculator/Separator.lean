import Reckon.Proofs.Calculator.Glyphs
import Reckon.Proofs.Expression.Interchanged

/-!
# Proofs/Calculator/Separator — the arguments of a function, each in braces of its own

In the language of numbers a function takes its arguments in one group or in several, and **a comma
and the braces between two groups mean the same at every place of a line**
(`separator_interchangeable`), whatever stands around them.
-/

namespace Reckon

/-- **A separator and a brace that closes before one that opens are interchangeable.**  Of two lists
of tokens that differ in this at one place, if one can be put into order, so can the other, and then
they stand for the same.  So in a line of arithmetic that is parsed the two braces may stand for any
comma: it is parsed into the same order, and it has the same value or fails with the same error. -/
theorem separator_interchangeable :
    (∀ {α : Type} (us vs : List (Token α)) (t closing opening : Token α) (c d o : Char),
      t.content = .separator c → closing.content = .closeBrace d → opening.content = .openBrace o →
        ∀ out, Token.Reorders (us ++ t :: vs) out ↔
          Token.Reorders (us ++ closing :: opening :: vs) out) ∧
      ∀ (limits : Limits) (before after : String) (e : Expression (Arithmetic.grammar limits)),
        (Arithmetic.grammar limits).parse (before ++ "," ++ after) = .ok e →
          (∃ e', (Arithmetic.grammar limits).parse (before ++ ")(" ++ after) = .ok e' ∧
            e'.tokens.map Token.content = e.tokens.map Token.content) ∧
          ∀ bindings, (Arithmetic.grammar limits).parseAndRun (before ++ ")(" ++ after) bindings =
            (Arithmetic.grammar limits).parseAndRun (before ++ "," ++ after) bindings := by
  refine ⟨fun us vs t closing opening c d o ht hclosing hopening out =>
    Token.reorders_interchange ht hclosing hopening, fun limits before after e h => ?_⟩
  have hcomma : before ++ "," ++ after =
      String.ofList (before.toList ++ (Arithmetic.grammar limits).separator :: after.toList) := by
    rw [show (Arithmetic.grammar limits).separator = ',' from rfl]
    simp [← String.toList_inj]
  have hbraces : before ++ ")(" ++ after =
      String.ofList (before.toList ++ (Arithmetic.grammar limits).closeBrace ::
        (Arithmetic.grammar limits).openBrace :: after.toList) := by
    rw [show (Arithmetic.grammar limits).closeBrace = ')' from rfl,
      show (Arithmetic.grammar limits).openBrace = '(' from rfl]
    simp [← String.toList_inj]
  rw [hcomma] at h ⊢
  rw [hbraces]
  obtain ⟨e', h', hcontents⟩ := Grammar.exists_parse_interchanged (Arithmetic.marksApart limits) h
  refine ⟨⟨e', h', hcontents⟩, fun bindings => ?_⟩
  rw [Grammar.parseAndRun, Grammar.parseAndRun, h, h', ok_bind, ok_bind,
    Grammar.evaluate_eq_of_contents rfl h h' hcontents]

private def openTwo : List (Token Int) := [⟨.openBrace '(', .single 0⟩, ⟨.number 2, .single 1⟩]

private def threeClose : List (Token Int) := [⟨.number 3, .single 4⟩, ⟨.closeBrace ')', .single 5⟩]

/-- Two operands in one group and in two, and the two ways to call a function of them. -/
theorem separator_interchangeable_power :
    Token.Reorders (openTwo ++ ⟨.separator ',', .single 2⟩ :: threeClose) [.number 2, .number 3] ∧
      Token.Reorders (openTwo ++ ⟨.closeBrace ')', .single 2⟩ :: ⟨.openBrace '(', .single 3⟩ ::
        threeClose) [.number 2, .number 3] ∧
      ∃ e, (Arithmetic.grammar {}).parse "pow(2,3)" = .ok e ∧
        (∃ e', (Arithmetic.grammar {}).parse "pow(2)(3)" = .ok e' ∧
          e'.tokens.map Token.content = e.tokens.map Token.content) ∧
        (Arithmetic.grammar {}).parseAndRun "pow(2)(3)" ∅ = .ok (.integer 8) := by
  have hcomma : Token.Reorders (openTwo ++ ⟨.separator ',', .single 2⟩ :: threeClose)
      [.number 2, .number 3] := ⟨[1, 3], rfl, rfl⟩
  have hvalue : (Arithmetic.grammar {}).parseAndRun "pow(2,3)" ∅ = .ok (.integer 8) := by
    with_unfolding_all rfl
  obtain ⟨e, hparse, -⟩ := bind_eq_ok_iff.1 hvalue
  obtain ⟨hbraces, hrun⟩ := separator_interchangeable.2 {} "pow(2" "3)" e hparse
  refine ⟨hcomma, ?_, e, hparse, hbraces, (hrun ∅).trans hvalue⟩
  exact (separator_interchangeable.1 openTwo threeClose ⟨.separator ',', .single 2⟩
    ⟨.closeBrace ')', .single 2⟩ ⟨.openBrace '(', .single 3⟩ ',' ')' '(' rfl rfl rfl _).1 hcomma

end Reckon

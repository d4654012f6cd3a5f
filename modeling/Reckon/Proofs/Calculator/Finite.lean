import Reckon.Calculator.Arithmetic
import Reckon.Proofs.Grammar.Preserved
import Reckon.Proofs.Number.Finite

/-!
# Proofs/Calculator/Finite — no infinity and no NaN in a calculation

Every numeral and constant of the language of numbers is an integer or a finite double, and so is
every value of its operations, whatever the limits are (`Arithmetic.grammar_preserves`).  Hence **all
values that a calculation ever puts on the stack are finite** (`Arithmetic.isFinite_of_calculate`).
-/

namespace Reckon

namespace Arithmetic

open Number

theorem isFinite_pi : pi.isFinite = true := by decide +kernel

theorem isFinite_e : e.isFinite = true := by decide +kernel

/-! ## Functions of doubles -/

@[simp] theorem floatFunction_preserves (name : String) (f : Float → Float) :
    (floatFunction name f).Preserves IsFinite :=
  Native.preserves_unary_iff.2 fun _ _ => ofFloat?_ensures _ _

@[simp] theorem partialFunction_preserves (name : String) (domain : Float → Bool) (f : Float → Float) :
    (partialFunction name domain f).Preserves IsFinite := by
  refine Native.preserves_unary_iff.2 fun x _ => ?_
  split
  · exact ofFloat?_ensures _ _
  · exact .error trivial

@[simp] theorem cotangent_ensures (x : Number) : Ensures IsFinite (cotangent x) := by
  rw [cotangent]
  split
  · exact .error trivial
  · exact ofFloat?_ensures _ _

@[simp] theorem logarithm_ensures (x base : Number) : Ensures IsFinite (logarithm x base) := by
  rw [logarithm]
  split_ifs
  · exact .error trivial
  · exact .error trivial
  · exact ofFloat?_ensures _ _

/-! ## The grammar -/

theorem convert_ensures (lexeme : String) : Ensures IsFinite (convert lexeme) := by
  have hread := read_ensures lexeme
  rw [convert]
  generalize Number.read lexeme = result at hread
  cases hread with
  | ok h => exact .ok h
  | error _ => exact .error trivial

/-- **No operation, constant or numeral of the language of numbers is an infinity or a NaN.** -/
theorem grammar_preserves (limits : Limits) : (grammar limits).Preserves IsFinite := by
  refine Grammar.preserves_ofDeclarations convert_ensures ?_
  simp +contextual [declarations, Declaration.Preserves, IsFinite.neg, IsFinite.abs, isFinite_pi,
    isFinite_e]

/-- **Every value that a calculation puts on the stack is an integer or a finite double**: the values
there after any number of tokens, and so the result. -/
theorem isFinite_of_calculate (limits : Limits) (line : String) :
    (∀ parsed, (grammar limits).parse line = .ok parsed →
      ∀ ts stack, ts <+: parsed.tokens → runOn ((grammar limits).valueOf? ∅) [] ts = .ok stack →
        ∀ x ∈ stack, x.IsFinite) ∧
      ∀ x, calculate limits line = .ok x → x.IsFinite := by
  have hbindings : ∀ (name : String) (x : Number), (∅ : Bindings Number)[name]? = some x →
      x.IsFinite := by simp
  refine ⟨fun parsed hparse ts stack hts hrun => ?_, fun x hx => ?_⟩
  · exact (grammar_preserves limits).of_runOn hbindings hparse hts hrun
  · obtain ⟨_, -, hvalue⟩ := bind_eq_ok_iff.1 hx
    exact (grammar_preserves limits).of_parseAndRun hbindings hvalue

private def unlimited : Limits where
  operandLimit := none
  powerUnionLimit := none
  powerEachLimit := none
  factorialLimit := none

/-- Doubles are multiplied, added and turned, without any limit on them. -/
theorem isFinite_of_calculate_unlimited :
    (∃ parsed stack, (grammar unlimited).parse "-0.5*abs(2)+e" = .ok parsed ∧
      runOn ((grammar unlimited).valueOf? ∅) [] parsed.tokens = .ok stack ∧
        ∀ x ∈ stack, x.IsFinite) ∧
      ∃ x, calculate unlimited "-0.5*abs(2)+e" = .ok x ∧ x.IsFinite := by
  have hvalue : (calculate unlimited "-0.5*abs(2)+e").isOk = true := by decide +kernel
  obtain ⟨x, hx⟩ : ∃ x, calculate unlimited "-0.5*abs(2)+e" = .ok x := by
    cases h : calculate unlimited "-0.5*abs(2)+e" with
    | ok x => exact ⟨x, rfl⟩
    | error _ => simp [h, Except.isOk, Except.toBool] at hvalue
  obtain ⟨hstack, hresult⟩ := isFinite_of_calculate unlimited "-0.5*abs(2)+e"
  obtain ⟨_, -, hrun⟩ := bind_eq_ok_iff.1 hx
  obtain ⟨parsed, hparse, hrun⟩ := Grammar.exists_run_of_parseAndRun hrun
  exact ⟨⟨parsed, [x], hparse, hrun, hstack parsed hparse _ _ (List.prefix_refl _) hrun⟩,
    x, hx, hresult x hx⟩

end Arithmetic

end Reckon

import Reckon.Proofs.Calculator.Glyphs
import Reckon.Proofs.Expression.Climbing

/-!
# Proofs/Calculator/Precedence — precedences in the two languages

In both languages the operators before an operand bind unlike those between operands
(`Arithmetic.placesApart`, `Logic.placesApart`), so **an expression is reordered as precedence
climbing reads it** (`postorder_eq_climbed`).
-/

namespace Reckon

/-- Declared precedences keep the two places apart. -/
theorem Grammar.placesApart_ofDeclarations {α : Type} {convert : String → Except ConversionError α}
    {ds : List (Declaration α)} (h : ∀ n ∈ ds.filterMap Declaration.prefixPrecedence?,
      n ∉ ds.filterMap Declaration.infixPrecedence?) :
    PlacesApart (Grammar.ofDeclarations convert ds).operators := by
  intro p hp q hq hprefix hinfix heq
  have hmem := Grammar.mem_infixPrecedences hq hinfix
  rw [← heq] at hmem
  exact h _ (Grammar.mem_prefixPrecedences hp hprefix) hmem

theorem Arithmetic.placesApart (limits : Limits) : PlacesApart (grammar limits).operators := by
  refine Grammar.placesApart_ofDeclarations ?_
  change ∀ n ∈ [5, 5], n ∉ [1, 1, 2, 2, 2, 2, 10]
  decide

theorem Logic.placesApart : PlacesApart grammar.operators := by
  refine Grammar.placesApart_ofDeclarations ?_
  change ∀ n ∈ [20], n ∉ [10, 5, 5, 2, 1]
  decide

/-- **Reordering is precedence climbing.**  Where no operator before its operand binds exactly as
tightly as one between operands, every expression is reordered, and into the postorder of the tree
that climbing builds; the operators of both languages are of this kind. -/
theorem postorder_eq_climbed :
    (∀ (α : Type) (ops : Set (Operator α)), PlacesApart ops → ∀ ts : List (Token α),
      IsExpression ops ts → ∃ tree, climbed? ts = some tree ∧ postorder ts = .ok tree.indices) ∧
    (∀ limits, PlacesApart (Arithmetic.grammar limits).operators) ∧
    PlacesApart Logic.grammar.operators :=
  ⟨fun _ _ hops _ hts => exists_climbed_postorder hops hts, Arithmetic.placesApart,
    Logic.placesApart⟩

/-- The tokens of `2 ^ -3 * 4`. -/
private def powerOfNegation : List (Token Number) :=
  [⟨.number (.integer 2), .single 0⟩,
    ⟨.operator (Arithmetic.Connective.power.operator {}), .single 1⟩,
    ⟨.operator (Arithmetic.Sign.minus.operator {}), .single 2⟩,
    ⟨.number (.integer 3), .single 3⟩,
    ⟨.operator (Arithmetic.Connective.product.operator {}), .single 4⟩,
    ⟨.number (.integer 4), .single 5⟩]

theorem postorder_eq_climbed_powerOfNegation :
    PlacesApart (Arithmetic.grammar {}).operators ∧
      IsExpression (Arithmetic.grammar {}).operators powerOfNegation ∧
      ∃ tree, climbed? powerOfNegation = some tree ∧ tree.indices = [0, 3, 2, 1, 5, 4] := by
  have hops : PlacesApart (Arithmetic.grammar {}).operators := postorder_eq_climbed.2.1 {}
  have hpower : Arithmetic.Connective.power.operator {} ∈ (Arithmetic.grammar {}).operators :=
    .inr (Arithmetic.Connective.known {} .power)
  have hminus : Arithmetic.Sign.minus.operator {} ∈ (Arithmetic.grammar {}).operators :=
    .inl (Arithmetic.Sign.known {} .minus)
  have hproduct : Arithmetic.Connective.product.operator {} ∈ (Arithmetic.grammar {}).operators :=
    .inr (Arithmetic.Connective.known {} .product)
  have hts : IsExpression (Arithmetic.grammar {}).operators powerOfNegation :=
    .expression (.bare (.number _ rfl)) (.infixed rfl hpower rfl
      (.prefixed rfl hminus rfl (.number _ rfl)) (.infixed rfl hproduct rfl
        (.bare (.number _ rfl)) (.done _)))
  obtain ⟨tree, htree, hpost⟩ := postorder_eq_climbed.1 _ _ hops _ hts
  have horder : postorder powerOfNegation = .ok [0, 3, 2, 1, 5, 4] := rfl
  exact ⟨hops, hts, tree, htree, Except.ok.inj (hpost.symm.trans horder)⟩

end Reckon

import Reckon.Grammar.Declaration
import Reckon.Proofs.Result

/-!
# Proofs/Grammar/Built — the operators of a language are made of operations that fit

An operator made of an operation of another arity than its place takes is refused
(`Operator.prefixOp?`, `Operator.infixOp?`).  **A declaration never brings one**: its function has the
operands of its place by type, and the tables that are collected with the check are those of the
grammar (`Grammar.collect?_prefixOps`, `Grammar.collect?_infixOps`).
-/

namespace Reckon

variable {α : Type}

/-- The operator that is declared to stand before its operand, with the check of its arity. -/
def Declaration.prefixOp? (limiter : Limiter α) : Declaration α → Option (Except Misuse (Operator α))
  | .prefixOp symbol precedence f own =>
    some (Operator.prefixOp? symbol precedence ⟨.unary f, own.getD limiter⟩)
  | _ => none

/-- The operator that is declared to stand between its operands, with the check of its arity. -/
def Declaration.infixOp? (limiter : Limiter α) : Declaration α → Option (Except Misuse (Operator α))
  | .infixOp symbol associativity precedence f own =>
    some (Operator.infixOp? symbol associativity precedence ⟨.binary f, own.getD limiter⟩)
  | _ => none

/-- The table of operators, later ones in the place of earlier ones, if all of them are made. -/
def OperatorTable.collect? (operators : List (Except Misuse (Operator α))) :
    Except Misuse (OperatorTable α) :=
  operators.foldlM (fun table op? => op?.map table.insert) .empty

namespace Grammar

variable (convert : String → Except ConversionError α) (ds : List (Declaration α))

/-- A table that each declaration leaves as it is, or enters the operator it makes, is the table that
is collected. -/
theorem collect?_foldl (table : Grammar α → OperatorTable α) {limiter : Limiter α}
    {made : Declaration α → Option (Except Misuse (Operator α))}
    (hnone : ∀ g d, made d = none → table (declare limiter g d) = table g)
    (hsome : ∀ g d op?, made d = some op? →
      op?.map (table g).insert = .ok (table (declare limiter g d))) (g : Grammar α) :
    (ds.filterMap made).foldlM (fun t op? => op?.map t.insert) (table g) =
      .ok (table (ds.foldl (declare limiter) g)) := by
  induction ds generalizing g with
  | nil => rfl
  | cons d ds ih =>
    rw [List.foldl_cons, ← ih]
    cases hmade : made d with
    | none => rw [List.filterMap_cons_none hmade, hnone g d hmade]
    | some op? => rw [List.filterMap_cons_some hmade, List.foldlM_cons, hsome g d op? hmade, ok_bind]

/-- **Every operator before its operand is made of an operation of one operand.** -/
theorem collect?_prefixOps :
    OperatorTable.collect? (ds.filterMap (·.prefixOp? (Declaration.defaultLimiterOf ds))) =
      .ok (ofDeclarations convert ds).prefixOperators := by
  refine collect?_foldl ds prefixOperators (fun g d h => ?_) (fun g d op? h => ?_)
    (blank convert)
  · cases d <;> first | rfl | cases h
  · cases d <;> cases h
    rfl

/-- **Every operator between its operands is made of an operation of two operands.** -/
theorem collect?_infixOps :
    OperatorTable.collect? (ds.filterMap (·.infixOp? (Declaration.defaultLimiterOf ds))) =
      .ok (ofDeclarations convert ds).infixOperators := by
  refine collect?_foldl ds infixOperators (fun g d h => ?_) (fun g d op? h => ?_)
    (blank convert)
  · cases d <;> first | rfl | cases h
  · cases d <;> cases h
    rfl

end Grammar

end Reckon

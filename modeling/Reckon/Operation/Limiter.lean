/-!
# Operation/Limiter — which operands an operation accepts

A limiter bounds the cost of an operation by refusing operands that are too large.  The two-tier
policy `Limiter.boundsBy` refuses operands **if all of them exceed the union bound, or if any exceeds
the bound on each**, so one huge operand passes beside a small one unless it is too large by itself.
-/

namespace Reckon

/-- A predicate over all operands of an operation. -/
structure Limiter (α : Type) where
  permits : List α → Bool

namespace Limiter

variable {α κ : Type}

/-- The limiter that accepts everything. -/
def unbounded : Limiter α := ⟨fun _ => true⟩

/-- The two-tier policy on a key of each operand; a bound that is absent refuses nothing, and no
operands at all are always accepted. -/
def boundsBy [LT κ] [DecidableLT κ] (union each : Option κ) (key : α → κ) : Limiter α where
  permits operands :=
    operands.isEmpty ||
      (union.all fun bound => !operands.all fun x => decide (bound < key x)) &&
      (each.all fun bound => !operands.any fun x => decide (bound < key x))

/-- The two-tier policy on the operands themselves. -/
def bounds [LT α] [DecidableLT α] (union each : Option α) : Limiter α := boundsBy union each id

/-- **The two-tier policy**: operands pass iff there are none, or some operand is not above the union
bound and none is above the bound on each. -/
theorem boundsBy_permits_iff [LT κ] [DecidableLT κ] {union each : Option κ} {key : α → κ}
    {operands : List α} :
    (boundsBy union each key).permits operands = true ↔
      operands = [] ∨ (∀ bound, union = some bound → ∃ x ∈ operands, ¬ bound < key x) ∧
        ∀ bound, each = some bound → ∀ x ∈ operands, ¬ bound < key x := by
  cases union <;> cases each <;> simp [boundsBy]

end Limiter

end Reckon

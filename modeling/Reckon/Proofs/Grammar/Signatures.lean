import Reckon.Proofs.Expression.Finds
import Reckon.Proofs.Grammar.Lookup

/-!
# Proofs/Grammar/Signatures — which limiter guards an operation

A declaration gives an operation its name, its arity and perhaps a limiter (`Signature`).  **Every
operation that stands in a text has been declared** (`Grammar.Located.exists_declaration`), so it is
that of a signature, guarded by the limiter declared there or else by the default one
(`Grammar.Finds.exists_signature`).
-/

namespace Reckon

variable {α : Type}

/-- What is declared of an operation beside its function. -/
structure Signature (α : Type) where
  name : String
  arity : Nat
  /-- The limiter that the operation brings. -/
  limiter? : Option (Limiter α)

/-- What a declaration says of an operation, if it declares one. -/
def Declaration.signature? : Declaration α → Option (Signature α)
  | .prefixOp symbol _ _ own => some ⟨symbol.toString, 1, own⟩
  | .infixOp symbol _ _ _ own => some ⟨symbol.toString, 2, own⟩
  | .function name native own => some ⟨name, native.arity, own⟩
  | .constant .. | .freeVariables _ | .defaultLimiter _ => none
  | .separator _ | .braces .. | .whitespace _ => none

/-- The operation of the name is declared with the signature, where `limiter` guards operations that
bring none. -/
structure Signature.Describes (limiter : Limiter α) (s : Signature α) (name : String)
    (o : Operation α) : Prop where
  name_eq : s.name = name
  arity_eq : o.arity = s.arity
  limiter_eq : o.limiter = s.limiter?.getD limiter

/-- The operation that is declared, with its name, where `limiter` guards operations that bring
none. -/
def Declaration.operation? (limiter : Limiter α) : Declaration α → Option (String × Operation α)
  | .prefixOp symbol _ f own => some (symbol.toString, ⟨.unary f, own.getD limiter⟩)
  | .infixOp symbol _ _ f own => some (symbol.toString, ⟨.binary f, own.getD limiter⟩)
  | .function name native own => some (name, ⟨native, own.getD limiter⟩)
  | .constant .. | .freeVariables _ | .defaultLimiter _ => none
  | .separator _ | .braces .. | .whitespace _ => none

/-- The operation that is declared is described by the signature that is declared. -/
theorem Declaration.exists_signature {limiter : Limiter α} {d : Declaration α} {name : String}
    {o : Operation α} (h : d.operation? limiter = some (name, o)) :
    ∃ s, d.signature? = some s ∧ s.Describes limiter name o := by
  cases d with
  | prefixOp symbol precedence f own =>
    obtain ⟨rfl, rfl⟩ := Prod.mk.inj (Option.some.inj h)
    exact ⟨_, rfl, rfl, rfl, rfl⟩
  | infixOp symbol associativity precedence f own =>
    obtain ⟨rfl, rfl⟩ := Prod.mk.inj (Option.some.inj h)
    exact ⟨_, rfl, rfl, rfl, rfl⟩
  | function own native ownLimiter =>
    obtain ⟨rfl, rfl⟩ := Prod.mk.inj (Option.some.inj h)
    exact ⟨_, rfl, rfl, rfl, rfl⟩
  | _ => cases h

namespace Grammar

variable {convert : String → Except ConversionError α} {ds : List (Declaration α)} {name : String}
  {o : Operation α}

theorem exists_declaration_of_mem_operators {op : Operator α}
    (h : op ∈ (ofDeclarations convert ds).operators) :
    ∃ d ∈ ds, d.operation? (Declaration.defaultLimiterOf ds) = some (op.text, op.operation) := by
  rcases h with h | h
  · rw [prefixOperators_ofDeclarations] at h
    obtain ⟨d, hd, hop⟩ := List.exists_of_findSome?_eq_some h
    obtain ⟨precedence, f, own, rfl, heq⟩ := Declaration.exists_of_prefixAt? hop
    exact ⟨_, List.mem_reverse.1 hd, by rw [heq]; rfl⟩
  · rw [infixOperators_ofDeclarations] at h
    obtain ⟨d, hd, hop⟩ := List.exists_of_findSome?_eq_some h
    obtain ⟨associativity, precedence, f, own, rfl, heq⟩ := Declaration.exists_of_infixAt? hop
    exact ⟨_, List.mem_reverse.1 hd, by rw [heq]; rfl⟩

theorem exists_declaration_of_get? {f : NamedFunction α}
    (h : (ofDeclarations convert ds).functions.get? name = some f) :
    ∃ d ∈ ds, d.operation? (Declaration.defaultLimiterOf ds) = some (f.name, f.operation) := by
  rw [functions_ofDeclarations] at h
  obtain ⟨d, hd, hf⟩ := List.exists_of_findSome?_eq_some h
  cases d with
  | function own native ownLimiter =>
    simp only [Declaration.functionAt?, Option.ite_none_right_eq_some, Option.some.injEq] at hf
    obtain ⟨rfl, rfl⟩ := hf
    exact ⟨_, List.mem_reverse.1 hd, rfl⟩
  | _ => cases hf

/-- **The operation of a token that stands in a text has been declared.** -/
theorem Located.exists_declaration {text : List Char} {t : Token α}
    (h : (ofDeclarations convert ds).Located text t) (ht : t.operation? = some (name, o)) :
    ∃ d ∈ ds, d.operation? (Declaration.defaultLimiterOf ds) = some (name, o) := by
  unfold Token.operation? at ht
  unfold Located at h
  match hc : t.content with
  | .operator op =>
    rw [hc] at ht h
    obtain ⟨rfl, rfl⟩ := Prod.mk.inj (Option.some.inj ht)
    exact exists_declaration_of_mem_operators h.2
  | .function f =>
    rw [hc] at ht h
    obtain ⟨rfl, rfl⟩ := Prod.mk.inj (Option.some.inj ht)
    exact exists_declaration_of_get? h.2
  | .number _ | .variable _ | .openBrace _ | .closeBrace _ | .separator _ =>
    rw [hc] at ht
    cases ht

/-- **An operation that finds operands has been declared.** -/
theorem Finds.exists_signature {text : String} {bindings : Bindings α} {operands : List α}
    (h : (ofDeclarations convert ds).Finds text bindings name o operands) :
    ∃ s ∈ ds.filterMap Declaration.signature?,
      s.Describes (Declaration.defaultLimiterOf ds) name o := by
  obtain ⟨t, ht, hlocated⟩ := h.exists_located
  obtain ⟨d, hd, hoperation⟩ := hlocated.exists_declaration ht
  obtain ⟨s, hs, hdescribes⟩ := Declaration.exists_signature hoperation
  exact ⟨s, List.mem_filterMap.2 ⟨d, hd, hs⟩, hdescribes⟩

end Grammar

end Reckon

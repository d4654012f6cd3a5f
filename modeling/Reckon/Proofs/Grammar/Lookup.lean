import Mathlib.Data.Set.Defs
import Reckon.Grammar.Declaration

/-!
# Proofs/Grammar/Lookup — what is found in a declared grammar

What a list of declarations makes of the blank grammar is found again under its glyph or name, and
**of several declarations of one thing the last one is found** (`Grammar.look_ofDeclarations`).
-/

namespace Reckon

variable {α β : Type} {limiter : Limiter α}

/-! ## What one declaration says of a glyph or a name -/

namespace Declaration

/-- The operator before an operand that is declared for a glyph. -/
def prefixAt? (limiter : Limiter α) (c : Char) : Declaration α → Option (Operator α)
  | .prefixOp symbol precedence f own =>
    if symbol = c then some (.prefixOf symbol precedence f (own.getD limiter)) else none
  | _ => none

/-- The operator between operands that is declared for a glyph. -/
def infixAt? (limiter : Limiter α) (c : Char) : Declaration α → Option (Operator α)
  | .infixOp symbol associativity precedence f own =>
    if symbol = c then some (.infixOf symbol associativity precedence f (own.getD limiter))
    else none
  | _ => none

/-- The function that is declared for a name. -/
def functionAt? (limiter : Limiter α) (name : String) : Declaration α → Option (NamedFunction α)
  | .function own native ownLimiter =>
    if own = name then some ⟨own, native, ownLimiter.getD limiter⟩ else none
  | _ => none

variable {d : Declaration α} {c : Char} {op : Operator α}

theorem exists_of_prefixAt? (h : d.prefixAt? limiter c = some op) :
    ∃ precedence f own, d = .prefixOp c precedence f own ∧
      op = .prefixOf c precedence f (own.getD limiter) := by
  cases d with
  | prefixOp symbol precedence f own =>
    simp only [prefixAt?, Option.ite_none_right_eq_some, Option.some.injEq] at h
    obtain ⟨rfl, rfl⟩ := h
    exact ⟨precedence, f, own, rfl, rfl⟩
  | _ => cases h

theorem exists_of_infixAt? (h : d.infixAt? limiter c = some op) :
    ∃ associativity precedence f own, d = .infixOp c associativity precedence f own ∧
      op = .infixOf c associativity precedence f (own.getD limiter) := by
  cases d with
  | infixOp symbol associativity precedence f own =>
    simp only [infixAt?, Option.ite_none_right_eq_some, Option.some.injEq] at h
    obtain ⟨rfl, rfl⟩ := h
    exact ⟨associativity, precedence, f, own, rfl, rfl⟩
  | _ => cases h

theorem exists_of_functionAt? {name : String} {f : NamedFunction α}
    (h : d.functionAt? limiter name = some f) :
    ∃ native own, d = .function name native own ∧ f = ⟨name, native, own.getD limiter⟩ := by
  cases d with
  | function other native own =>
    simp only [functionAt?, Option.ite_none_right_eq_some, Option.some.injEq] at h
    obtain ⟨rfl, rfl⟩ := h
    exact ⟨native, own, rfl, rfl⟩
  | _ => cases h

end Declaration

namespace Grammar

/-! ## Finding the last declaration -/

/-- If a step puts in place what it states and leaves the rest, then a list of them does so too, the
last one first. -/
theorem look_foldl {σ δ : Type} {step : σ → δ → σ} (look : σ → Option β) (stated : δ → Option β)
    (hstep : ∀ s d, look (step s d) = (stated d).or (look s)) (ds : List δ) (s : σ) :
    look (ds.foldl step s) = (ds.reverse.findSome? stated).or (look s) := by
  induction ds generalizing s with
  | nil => simp
  | cons d ds ih =>
    rw [List.foldl_cons, ih, hstep, List.reverse_cons, List.findSome?_append, Option.or_assoc]
    simp

variable {convert : String → Except ConversionError α} {ds : List (Declaration α)}

theorem look_ofDeclarations (look : Grammar α → Option β)
    (stated : Declaration α → Option β) (hblank : look (blank convert) = none)
    (hstep : ∀ g d, look (declare (Declaration.defaultLimiterOf ds) g d) = (stated d).or (look g)) :
    look (ofDeclarations convert ds) = ds.reverse.findSome? stated := by
  rw [ofDeclarations, look_foldl look stated hstep, hblank, Option.or_none]

theorem prefixOperators_ofDeclarations (c : Char) :
    (ofDeclarations convert ds).prefixOperators.get? c =
      ds.reverse.findSome? (Declaration.prefixAt? (Declaration.defaultLimiterOf ds) c) := by
  refine look_ofDeclarations (fun g => g.prefixOperators.get? c) _ (Catalogue.get?_empty c) ?_
  intro g d
  cases d with
  | prefixOp symbol precedence f own =>
    simp only [declare, Declaration.prefixAt?, Catalogue.get?_insert, Operator.prefixOf]
    split <;> simp
  | _ => simp [declare, Declaration.prefixAt?]

theorem infixOperators_ofDeclarations (c : Char) :
    (ofDeclarations convert ds).infixOperators.get? c =
      ds.reverse.findSome? (Declaration.infixAt? (Declaration.defaultLimiterOf ds) c) := by
  refine look_ofDeclarations (fun g => g.infixOperators.get? c) _ (Catalogue.get?_empty c) ?_
  intro g d
  cases d with
  | infixOp symbol associativity precedence f own =>
    simp only [declare, Declaration.infixAt?, Catalogue.get?_insert, Operator.infixOf]
    split <;> simp
  | _ => simp [declare, Declaration.infixAt?]

/-- An operator that is found before operands has been declared there. -/
theorem exists_declared_prefix {c : Char} {op : Operator α}
    (h : (ofDeclarations convert ds).prefixOperators.get? c = some op) :
    ∃ precedence f own, .prefixOp c precedence f own ∈ ds ∧ op.precedence = precedence := by
  rw [prefixOperators_ofDeclarations] at h
  obtain ⟨d, hd, hop⟩ := List.exists_of_findSome?_eq_some h
  obtain ⟨precedence, f, own, rfl, rfl⟩ := Declaration.exists_of_prefixAt? hop
  exact ⟨precedence, f, own, List.mem_reverse.1 hd, rfl⟩

/-- An operator that is found between operands has been declared there. -/
theorem exists_declared_infix {c : Char} {op : Operator α}
    (h : (ofDeclarations convert ds).infixOperators.get? c = some op) :
    ∃ associativity precedence f own, .infixOp c associativity precedence f own ∈ ds ∧
      op.precedence = precedence := by
  rw [infixOperators_ofDeclarations] at h
  obtain ⟨d, hd, hop⟩ := List.exists_of_findSome?_eq_some h
  obtain ⟨associativity, precedence, f, own, rfl, rfl⟩ := Declaration.exists_of_infixAt? hop
  exact ⟨associativity, precedence, f, own, List.mem_reverse.1 hd, rfl⟩

theorem functions_ofDeclarations (name : String) :
    (ofDeclarations convert ds).functions.get? name =
      ds.reverse.findSome? (Declaration.functionAt? (Declaration.defaultLimiterOf ds) name) := by
  refine look_ofDeclarations (fun g => g.functions.get? name) _ (Catalogue.get?_empty name) ?_
  intro g d
  cases d with
  | function own native ownLimiter =>
    simp only [declare, Declaration.functionAt?, Catalogue.get?_insert]
    split <;> simp
  | _ => simp [declare, Declaration.functionAt?]

/-! ## The operators of a grammar -/

/-- The operators that a glyph of the grammar may stand for. -/
def operators (g : Grammar α) : Set (Operator α) := fun op =>
  g.prefixOperators.get? op.symbol = some op ∨ g.infixOperators.get? op.symbol = some op

end Grammar

/-! ## Precedences -/

namespace Declaration

/-- The precedence of an operator before its operand. -/
def prefixPrecedence? : Declaration α → Option Nat
  | .prefixOp _ precedence _ _ => some precedence
  | _ => none

/-- The precedence of an operator between its operands. -/
def infixPrecedence? : Declaration α → Option Nat
  | .infixOp _ _ precedence _ _ => some precedence
  | _ => none

end Declaration

section Precedences

variable {convert : String → Except ConversionError α} {ds : List (Declaration α)} {op : Operator α}

theorem Grammar.mem_prefixPrecedences (h : op ∈ (Grammar.ofDeclarations convert ds).operators)
    (hop : op.fixity = .prefixOp) : op.precedence ∈ ds.filterMap Declaration.prefixPrecedence? := by
  rcases h with h | h
  · obtain ⟨precedence, f, own, hd, hprecedence⟩ := Grammar.exists_declared_prefix h
    exact List.mem_filterMap.2 ⟨_, hd, congrArg some hprecedence.symm⟩
  · have := (Grammar.ofDeclarations convert ds).infix_fixity _ _ h
    rw [hop] at this
    cases this

theorem Grammar.mem_infixPrecedences (h : op ∈ (Grammar.ofDeclarations convert ds).operators)
    (hop : op.fixity = .infixOp) : op.precedence ∈ ds.filterMap Declaration.infixPrecedence? := by
  rcases h with h | h
  · have := (Grammar.ofDeclarations convert ds).prefix_fixity _ _ h
    rw [hop] at this
    cases this
  · obtain ⟨associativity, precedence, f, own, hd, hprecedence⟩ := Grammar.exists_declared_infix h
    exact List.mem_filterMap.2 ⟨_, hd, congrArg some hprecedence.symm⟩

end Precedences

end Reckon

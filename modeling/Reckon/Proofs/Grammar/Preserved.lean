import Reckon.Grammar.Declaration
import Reckon.Proofs.Expression.Positions

/-!
# Proofs/Grammar/Preserved — what is true of all values of a language

If the numerals and constants of a language have values of some kind, and its functions give values of
the kind for operands of the kind, then **no other value is ever on the stack**
(`Grammar.Preserves.runOn_concludes`).  Each declaration answers for itself
(`Grammar.preserves_ofDeclarations`).
-/

namespace Reckon

variable {α : Type} {P : α → Prop}

/-! ## Functions and declarations -/

/-- For operands of the kind the function gives no value but of the kind. -/
def Native.Preserves (P : α → Prop) (n : Native α) : Prop :=
  ∀ operands h, (∀ x ∈ operands, P x) → Ensures P (n.body operands h)

@[simp] theorem Native.preserves_unary_iff {f : α → Except DomainError α} :
    (unary f).Preserves P ↔ ∀ x, P x → Ensures P (f x) := by
  refine ⟨fun h x hx => h [x] rfl (by simpa using hx), ?_⟩
  rintro hf (_ | ⟨x, _ | ⟨_, _⟩⟩) h hx
  · cases h
  · exact hf x (hx x (by simp))
  · cases h

@[simp] theorem Native.preserves_binary_iff {f : α → α → Except DomainError α} :
    (binary f).Preserves P ↔ ∀ x y, P x → P y → Ensures P (f x y) := by
  refine ⟨fun h x y hx hy => h [x, y] rfl (by simpa using ⟨hx, hy⟩), ?_⟩
  rintro hf (_ | ⟨x, _ | ⟨y, _ | ⟨_, _⟩⟩⟩) h hx
  · cases h
  · cases h
  · exact hf x y (hx x (by simp)) (hx y (by simp))
  · cases h

/-- What is declared has no value but of the kind. -/
def Declaration.Preserves (P : α → Prop) : Declaration α → Prop
  | .prefixOp _ _ f _ => ∀ x, P x → Ensures P (f x)
  | .infixOp _ _ _ f _ => ∀ x y, P x → P y → Ensures P (f x y)
  | .function _ native _ => native.Preserves P
  | .constant _ value => P value
  | .freeVariables _ | .defaultLimiter _ | .separator _ | .braces .. | .whitespace _ => True

namespace Grammar

/-- The language has no value but of the kind. -/
structure Preserves (P : α → Prop) (g : Grammar α) : Prop where
  numerals : ∀ numeral, Ensures P (g.convert numeral)
  defaults : ∀ (name : String) v, g.defaults[name]? = some v → P v
  operators : ∀ op ∈ g.operators, op.operation.native.Preserves P
  functions : ∀ name f, g.functions.get? name = some f → f.operation.native.Preserves P

variable {g : Grammar α} {d : Declaration α} {ds : List (Declaration α)} {limiter : Limiter α}
  {convert : String → Except ConversionError α}

/-- **One more declaration brings no value of another kind.** -/
theorem Preserves.declare (hg : g.Preserves P) (hd : d.Preserves P) :
    (declare limiter g d).Preserves P := by
  cases d with
  | prefixOp symbol precedence f own =>
    refine { hg with operators := fun op hop => ?_ }
    rcases hop with hop | hop
    · exact Catalogue.of_get?_insert (P := fun op => op.operation.native.Preserves P)
        (Native.preserves_unary_iff.2 hd) (fun op h => hg.operators op (.inl h)) hop
    · exact hg.operators op (.inr hop)
  | infixOp symbol associativity precedence f own =>
    refine { hg with operators := fun op hop => ?_ }
    rcases hop with hop | hop
    · exact hg.operators op (.inl hop)
    · exact Catalogue.of_get?_insert (P := fun op => op.operation.native.Preserves P)
        (Native.preserves_binary_iff.2 hd) (fun op h => hg.operators op (.inr h)) hop
  | function name native own =>
    refine { hg with functions := fun name f hf => ?_ }
    exact Catalogue.of_get?_insert (P := fun f => f.operation.native.Preserves P)
      hd (fun f h => hg.functions f.name f h) hf
  | constant name value =>
    refine { hg with defaults := fun name v hv => ?_ }
    have hv : (g.defaults.insert _ value)[name]? = some v := hv
    rw [Std.TreeMap.getElem?_insert] at hv
    split at hv
    · obtain rfl := Option.some.inj hv
      exact hd
    · exact hg.defaults name v hv
  | freeVariables _ | defaultLimiter _ | separator _ | braces _ _ | whitespace _ => exact { hg with }

/-- **A language has no value but of the kind if its numerals and declarations have none.** -/
theorem preserves_ofDeclarations (hconvert : ∀ numeral, Ensures P (convert numeral))
    (hds : ∀ d ∈ ds, d.Preserves P) : (ofDeclarations convert ds).Preserves P := by
  have hfold : ∀ g : Grammar α, g.Preserves P →
      (ds.foldl (Grammar.declare (Declaration.defaultLimiterOf ds)) g).Preserves P := by
    generalize Declaration.defaultLimiterOf ds = limiter
    induction ds with
    | nil => exact fun g hg => hg
    | cons d ds ih =>
      exact fun g hg => ih (fun d hd => hds d (by simp [hd])) _ (hg.declare (hds d (by simp)))
  refine hfold _ ⟨hconvert, ?_, ?_, ?_⟩
  · simp [blank]
  · rintro op (hop | hop) <;> simp [blank] at hop
  · simp [blank]

/-! ## Running -/

variable {text : List Char} {t : Token α} {bindings : Bindings α} {stack : List α}

/-- **A token puts no value but of the kind on a stack of such values.** -/
theorem Preserves.runOn_concludes (hg : g.Preserves P)
    (hbindings : ∀ (name : String) v, bindings[name]? = some v → P v) (ht : g.Located text t)
    (hstack : ∀ x ∈ stack, P x) :
    Ensures (fun after => ∀ x ∈ after, P x) (t.runOn (g.valueOf? bindings) stack) := by
  have hperform : ∀ (o : Operation α) (name : String), o.native.Preserves P →
      Ensures (fun after => ∀ x ∈ after, P x) (o.performOn name stack) := by
    intro o name ho
    refine (o.performOn_concludes name stack).imp ?_ fun _ _ => trivial
    rintro after ⟨h, v, hv, rfl⟩
    have hoperands : ∀ x ∈ (stack.take o.arity).reverse, P x := fun x hx =>
      hstack x (List.mem_of_mem_take (List.mem_reverse.1 hx))
    exact List.forall_mem_cons.2
      ⟨(ho _ h hoperands).of_eq_ok hv, fun x hx => hstack x (List.mem_of_mem_drop hx)⟩
  unfold Token.runOn
  unfold Located at ht
  match hc : t.content with
  | .number value =>
    rw [hc] at ht
    obtain ⟨numeral, -, hvalue⟩ := ht
    exact .ok (List.forall_mem_cons.2 ⟨(hg.numerals numeral).of_eq_ok hvalue, hstack⟩)
  | .variable name =>
    dsimp only
    cases hvalue : g.valueOf? bindings name with
    | none => exact .error trivial
    | some value =>
      have hP : P value := by
        rw [valueOf?, Option.orElse_eq_orElse, Option.orElse_eq_or, Option.or_eq_some_iff] at hvalue
        rcases hvalue with h | ⟨-, h⟩
        · exact hbindings name value h
        · exact hg.defaults name value h
      exact .ok (List.forall_mem_cons.2 ⟨hP, hstack⟩)
  | .operator op =>
    rw [hc] at ht
    exact hperform op.operation op.text (hg.operators op ht.2)
  | .function f =>
    rw [hc] at ht
    exact hperform f.operation f.name (hg.functions f.name f ht.2)
  | .openBrace _ | .closeBrace _ | .separator _ => exact .error trivial

/-- **At no time is another value on the stack**, however far the tokens of a text are run. -/
theorem Preserves.of_runOn (hg : g.Preserves P)
    (hbindings : ∀ (name : String) v, bindings[name]? = some v → P v) {line : String} {e : Expression g}
    (hparse : g.parse line = .ok e) {ts : List (Token α)} (hts : ts <+: e.tokens)
    (hrun : runOn (g.valueOf? bindings) [] ts = .ok stack) : ∀ x ∈ stack, P x := by
  obtain ⟨-, htokens⟩ := (g.parse_concludes line).of_eq_ok hparse
  have hrunning : Ensures (fun after => ∀ x ∈ after, P x) (runOn (g.valueOf? bindings) [] ts) :=
    Concludes.foldlM (fun stack hstack t ht =>
      hg.runOn_concludes hbindings (htokens t (hts.subset ht)).2 hstack) (by simp)
  exact hrunning.of_eq_ok hrun

/-- The value of a text is of the kind. -/
theorem Preserves.of_parseAndRun (hg : g.Preserves P)
    (hbindings : ∀ (name : String) v, bindings[name]? = some v → P v) {line : String} {v : α}
    (h : g.parseAndRun line bindings = .ok v) : P v := by
  obtain ⟨e, hparse, hrun⟩ := exists_run_of_parseAndRun h
  exact hg.of_runOn hbindings hparse (List.prefix_refl _) hrun v (by simp)

end Grammar

end Reckon

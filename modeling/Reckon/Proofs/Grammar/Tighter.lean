import Mathlib.Data.List.Forall2
import Reckon.Grammar.Declaration

/-!
# Proofs/Grammar/Tighter — grammars that differ in what their limiters refuse

One limiter is tighter than another if it accepts nothing that the other one refuses.  So it is with
operations that do the same beyond that, and with grammars that agree in everything but their
limiters; **tighter limiters in the same declarations make a tighter grammar**
(`Grammar.tighter_ofDeclarations`).
-/

namespace Reckon

variable {α : Type}

/-- The first limiter accepts only what the second one accepts. -/
def Limiter.Tighter (l m : Limiter α) : Prop :=
  ∀ operands, l.permits operands = true → m.permits operands = true

/-- The operations do the same, and the first one has the tighter limiter. -/
structure Operation.Tighter (o p : Operation α) : Prop where
  native : o.native = p.native
  limiter : o.limiter.Tighter p.limiter

/-- The operators differ in their operations, and the first one has the tighter one. -/
structure Operator.Tighter (op op' : Operator α) : Prop where
  symbol : op.symbol = op'.symbol
  fixity : op.fixity = op'.fixity
  associativity : op.associativity = op'.associativity
  precedence : op.precedence = op'.precedence
  operation : op.operation.Tighter op'.operation

/-- The functions differ in their operations, and the first one has the tighter one. -/
structure NamedFunction.Tighter (f f' : NamedFunction α) : Prop where
  name : f.name = f'.name
  operation : f.operation.Tighter f'.operation

theorem Limiter.Tighter.refl (l : Limiter α) : l.Tighter l := fun _ h => h

theorem Operation.Tighter.refl (o : Operation α) : o.Tighter o := ⟨rfl, .refl _⟩

theorem Operator.Tighter.refl (op : Operator α) : op.Tighter op := ⟨rfl, rfl, rfl, rfl, .refl _⟩

theorem NamedFunction.Tighter.refl (f : NamedFunction α) : f.Tighter f := ⟨rfl, .refl _⟩

/-- The grammars differ in their limiters alone, and the first one has the tighter ones. -/
structure Grammar.Tighter (g g' : Grammar α) : Prop where
  prefixOperators : ∀ c,
    Option.Rel Operator.Tighter (g.prefixOperators.get? c) (g'.prefixOperators.get? c)
  infixOperators : ∀ c,
    Option.Rel Operator.Tighter (g.infixOperators.get? c) (g'.infixOperators.get? c)
  functions : ∀ name,
    Option.Rel NamedFunction.Tighter (g.functions.get? name) (g'.functions.get? name)
  freeVariables : g.freeVariables = g'.freeVariables
  defaults : g.defaults = g'.defaults
  whitespace : g.whitespace = g'.whitespace
  separator : g.separator = g'.separator
  openBrace : g.openBrace = g'.openBrace
  closeBrace : g.closeBrace = g'.closeBrace
  convert : g.convert = g'.convert

/-! ## Tighter declarations -/

/-- The declarations say the same but for the limiters of their operations, of which the first one
has the tighter one; `l` and `m` are the limiters of operations that bring none. -/
inductive Declaration.Tighter (l m : Limiter α) : Declaration α → Declaration α → Prop
  | prefixOp {symbol : Char} {precedence : Nat} {f : α → Except DomainError α}
      {own own' : Option (Limiter α)} (limiter : (own.getD l).Tighter (own'.getD m)) :
      Tighter l m (.prefixOp symbol precedence f own) (.prefixOp symbol precedence f own')
  | infixOp {symbol : Char} {associativity : Associativity} {precedence : Nat}
      {f : α → α → Except DomainError α} {own own' : Option (Limiter α)}
      (limiter : (own.getD l).Tighter (own'.getD m)) :
      Tighter l m (.infixOp symbol associativity precedence f own)
        (.infixOp symbol associativity precedence f own')
  | function {name : String} {native : Native α} {own own' : Option (Limiter α)}
      (limiter : (own.getD l).Tighter (own'.getD m)) :
      Tighter l m (.function name native own) (.function name native own')
  | constant (name : String) (value : α) : Tighter l m (.constant name value) (.constant name value)
  | freeVariables (allowed : Bool) : Tighter l m (.freeVariables allowed) (.freeVariables allowed)
  | defaultLimiter (l' m' : Limiter α) : Tighter l m (.defaultLimiter l') (.defaultLimiter m')
  | separator (c : Char) : Tighter l m (.separator c) (.separator c)
  | braces (opening closing : Char) :
      Tighter l m (.braces opening closing) (.braces opening closing)
  | whitespace (characters : List Char) :
      Tighter l m (.whitespace characters) (.whitespace characters)

/-- Entries filed in related catalogues leave them related. -/
theorem Catalogue.rel_insert {κ β : Type} [Ord κ] [Std.TransOrd κ] [Std.LawfulEqOrd κ]
    [DecidableEq κ] {key : β → κ} {R : β → β → Prop} {t t' : Catalogue key}
    (ht : ∀ k, Option.Rel R (t.get? k) (t'.get? k)) {b b' : β} (hkey : key b = key b')
    (hb : R b b') (k : κ) : Option.Rel R ((t.insert b).get? k) ((t'.insert b').get? k) := by
  rw [get?_insert, get?_insert, ← hkey]
  split
  · exact .some hb
  · exact ht k

namespace Grammar

variable {l m : Limiter α} {g g' : Grammar α} {d d' : Declaration α}
  {convert : String → Except ConversionError α}

theorem Tighter.refl (g : Grammar α) : g.Tighter g := by
  have hrel : ∀ {β : Type} {R : β → β → Prop}, (∀ b, R b b) → ∀ b? : Option β,
      Option.Rel R b? b? := by
    intro β R hR b?
    cases b? with
    | none => exact .none
    | some b => exact .some (hR b)
  exact ⟨fun _ => hrel .refl _, fun _ => hrel .refl _, fun _ => hrel .refl _, rfl, rfl, rfl, rfl,
    rfl, rfl, rfl⟩

/-- **One more declaration keeps a grammar tighter.** -/
theorem Tighter.declare (hg : g.Tighter g') (hd : d.Tighter l m d') :
    (declare l g d).Tighter (declare m g' d') := by
  cases hd with
  | prefixOp limiter =>
    exact { hg with
      prefixOperators :=
        Catalogue.rel_insert hg.prefixOperators rfl ⟨rfl, rfl, rfl, rfl, rfl, limiter⟩ }
  | infixOp limiter =>
    exact { hg with
      infixOperators :=
        Catalogue.rel_insert hg.infixOperators rfl ⟨rfl, rfl, rfl, rfl, rfl, limiter⟩ }
  | function limiter =>
    exact { hg with
      functions := Catalogue.rel_insert hg.functions rfl ⟨rfl, rfl, limiter⟩ }
  | constant name value => exact { hg with defaults := congrArg (·.insert name value) hg.defaults }
  | freeVariables allowed => exact { hg with freeVariables := rfl }
  | defaultLimiter l' m' => exact hg
  | separator c => exact { hg with separator := rfl }
  | braces opening closing => exact { hg with openBrace := rfl, closeBrace := rfl }
  | whitespace characters => exact { hg with whitespace := rfl }

/-- **Declarations with tighter limiters declare a tighter grammar.** -/
theorem tighter_ofDeclarations {ds ds' : List (Declaration α)}
    (h : List.Forall₂ (Declaration.Tighter (Declaration.defaultLimiterOf ds)
      (Declaration.defaultLimiterOf ds')) ds ds') :
    (ofDeclarations convert ds).Tighter (ofDeclarations convert ds') := by
  rw [ofDeclarations, ofDeclarations]
  generalize Declaration.defaultLimiterOf ds = l, Declaration.defaultLimiterOf ds' = m at h
  have hfold : ∀ g g' : Grammar α, g.Tighter g' →
      (ds.foldl (Grammar.declare l) g).Tighter (ds'.foldl (Grammar.declare m) g') := by
    induction h with
    | nil => exact fun g g' hg => hg
    | cons hd _ ih => exact fun g g' hg => ih _ _ (hg.declare hd)
  exact hfold _ _ (.refl _)

end Grammar

end Reckon

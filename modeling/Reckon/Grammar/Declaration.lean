import Reckon.Grammar.Basic

/-!
# Grammar/Declaration — grammars built from declarations

A grammar is what its declarations make of the blank one, **each later one replacing what an earlier
one said of the same thing**.  A limiter for all operations that bring none of their own may be
declared anywhere: the last such declaration holds for the whole list.
-/

namespace Reckon

variable {α : Type}

/-- One statement about a grammar. -/
inductive Declaration (α : Type) where
  /-- A glyph before its operand. -/
  | prefixOp (symbol : Char) (precedence : Nat) (f : α → Except DomainError α)
      (limiter : Option (Limiter α))
  /-- A glyph between its operands. -/
  | infixOp (symbol : Char) (associativity : Associativity) (precedence : Nat)
      (f : α → α → Except DomainError α) (limiter : Option (Limiter α))
  /-- An operation called by name. -/
  | function (name : String) (native : Native α) (limiter : Option (Limiter α))
  /-- A variable with a default value. -/
  | constant (name : String) (value : α)
  /-- Whether other variables are allowed. -/
  | freeVariables (allowed : Bool)
  /-- The limiter of the operations that bring none. -/
  | defaultLimiter (limiter : Limiter α)
  /-- The character between the arguments of a function. -/
  | separator (c : Char)
  /-- The characters that open and close a group. -/
  | braces (opening closing : Char)
  /-- The characters between tokens. -/
  | whitespace (characters : List Char)

/-- The limiter of operations that bring none: the last one declared, or one that accepts all. -/
def Declaration.defaultLimiterOf (ds : List (Declaration α)) : Limiter α :=
  ds.foldl (fun l d => match d with | .defaultLimiter m => m | _ => l) .unbounded

namespace Grammar

/-- The grammar with one more declaration, and `limiter` for an operation that brings none. -/
def declare (limiter : Limiter α) (g : Grammar α) : Declaration α → Grammar α
  | .prefixOp symbol precedence f own =>
    { g with
      prefixOperators :=
        g.prefixOperators.insert (.prefixOf symbol precedence f (own.getD limiter))
      prefix_fixity := fun c op h => by
        rw [Catalogue.get?_insert] at h
        split at h
        · exact Option.some.inj h ▸ rfl
        · exact g.prefix_fixity c op h }
  | .infixOp symbol associativity precedence f own =>
    { g with
      infixOperators :=
        g.infixOperators.insert (.infixOf symbol associativity precedence f (own.getD limiter))
      infix_fixity := fun c op h => by
        rw [Catalogue.get?_insert] at h
        split at h
        · exact Option.some.inj h ▸ rfl
        · exact g.infix_fixity c op h }
  | .function name native own =>
    { g with functions := g.functions.insert ⟨name, native, own.getD limiter⟩ }
  | .constant name value => { g with defaults := g.defaults.insert name value }
  | .freeVariables allowed => { g with freeVariables := allowed }
  | .defaultLimiter _ => g
  | .separator c => { g with separator := c }
  | .braces opening closing => { g with openBrace := opening, closeBrace := closing }
  | .whitespace characters => { g with whitespace := characters }

/-- The grammar that a list of declarations makes. -/
def ofDeclarations (convert : String → Except ConversionError α) (ds : List (Declaration α)) :
    Grammar α :=
  ds.foldl (declare (Declaration.defaultLimiterOf ds)) (blank convert)

end Grammar

end Reckon

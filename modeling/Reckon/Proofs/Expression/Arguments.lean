import Mathlib.Algebra.Order.BigOperators.Group.List
import Mathlib.Algebra.Order.Group.Nat
import Reckon.Proofs.Expression.Balance

/-!
# Proofs/Expression/Arguments — how many arguments the functions of a text are given

A call does not remember how many arguments stand in its braces; its function takes as many values
off the stack as it needs.  So one call may use up what another one leaves, and only **the number of
arguments of all calls together** is that which their functions take
(`Phrase.arguments_of_parseAndRun`).
-/

namespace Reckon

variable {α : Type}

namespace Phrase

/-- What stands in the phrase stands for itself in the grammar, and each operator with its operands
stands in braces. -/
inductive Braced (g : Grammar α) : Phrase α → Prop
  | number {numeral : String} {v : α} (lexeme : Token.IsNumeral numeral)
      (value : g.convert numeral = .ok v) : Braced g (.number numeral v)
  | «variable» {name : String} (lexeme : Token.IsName name) (free : g.functions.get? name = none)
      (admitted : g.admitsVariable name = true) : Braced g (.variable name)
  | prefixed {op : Operator α} {p : Phrase α}
      (known : g.prefixOperators.get? op.symbol = some op) (operand : Braced g p) :
      Braced g (.group (.prefixed op p))
  | infixed {op : Operator α} {l r : Phrase α}
      (known : g.infixOperators.get? op.symbol = some op) (first : Braced g l)
      (second : Braced g r) : Braced g (.group (.infixed op l r))
  | call {f : NamedFunction α} {ps : List (Phrase α)} (lexeme : Token.IsName f.name)
      (known : g.functions.get? f.name = some f) (arguments : ∀ p ∈ ps, Braced g p) :
      Braced g (.call f ps)

mutual

/-- The calls in a phrase, each with the number of arguments that it is given. -/
def calls : Phrase α → List (NamedFunction α × Nat)
  | number _ _ => []
  | «variable» _ => []
  | prefixed _ p => calls p
  | infixed _ l r => calls l ++ calls r
  | group p => calls p
  | call f ps => (f, ps.length) :: callsAll ps

/-- The calls in phrases. -/
def callsAll : List (Phrase α) → List (NamedFunction α × Nat)
  | [] => []
  | p :: ps => calls p ++ callsAll ps

end

/-- The number of arguments that calls are given. -/
def argumentsGiven (calls : List (NamedFunction α × Nat)) : Nat := (calls.map (·.2)).sum

/-- The number of arguments that the functions of calls take. -/
def argumentsTaken (calls : List (NamedFunction α × Nat)) : Nat := (calls.map (·.1.arity)).sum

variable {g : Grammar α} {p : Phrase α}

/-- A braced phrase starts with no operator and ends with none. -/
theorem Braced.edges (hp : p.Braced g) :
    p.startsBare = true ∧ p.leftEdge = [] ∧ p.rightEdge = [] := by
  cases hp <;> exact ⟨rfl, rfl, rfl⟩

theorem Braced.legible (hp : p.Braced g) : p.Legible g := by
  induction hp with
  | number lexeme value => exact .number lexeme value
  | «variable» lexeme free admitted => exact .variable lexeme free admitted
  | prefixed known operand ih =>
    obtain ⟨hbare, hleft, -⟩ := operand.edges
    exact .group (.prefixed known hbare (by simp [hleft]) ih)
  | infixed known first second ihl ihr =>
    obtain ⟨-, -, hright⟩ := first.edges
    obtain ⟨-, hleft, -⟩ := second.edges
    exact .group (.infixed known (by simp [hright]) (by simp [hleft]) ihl ihr)
  | call lexeme known _ ih => exact .call lexeme known ih

/-! ## The tokens of a phrase, counted -/

open Token.Content

/-- The tokens have `n` leaves and calls more than operators between operands and arguments, and
call what is listed. -/
structure Counted (contents : List (Token.Content α)) (calls : List (NamedFunction α × Nat))
    (n : Nat) : Prop where
  leaves : (contents.map kind).count .leaf + (contents.map kind).count .function =
    (contents.map kind).count .infixOp + argumentsGiven calls + n
  arities : (contents.map callArity).sum = argumentsTaken calls

theorem Counted.append {cs ds : List (Token.Content α)} {c d : List (NamedFunction α × Nat)}
    {m n : Nat} (hc : Counted cs c m) (hd : Counted ds d n) :
    Counted (cs ++ ds) (c ++ d) (m + n) := by
  obtain ⟨hleaves, harities⟩ := hc
  obtain ⟨hleaves', harities'⟩ := hd
  simp only [argumentsGiven, argumentsTaken] at hleaves harities hleaves' harities'
  constructor <;> simp [argumentsGiven, argumentsTaken] <;> omega

/-- A number or a variable is one leaf. -/
theorem counted_leaf {content : Token.Content α} (h : content.kind = .leaf) :
    Counted [content] [] 1 := by
  constructor
  · simp [h, argumentsGiven]
  · cases content <;> simp_all [kind, callArity, argumentsTaken]

/-- A brace or separator counts for nothing, nor does an operator before its operand. -/
theorem counted_neutral {content : Token.Content α}
    (h : content.kind ∈ [Token.Kind.prefixOp, .openBrace, .closeBrace, .separator]) :
    Counted [content] [] 0 := by
  constructor
  · simp only [List.map_singleton]
    revert h
    cases content.kind <;> simp [argumentsGiven]
  · cases content <;> simp_all [kind, callArity, argumentsTaken]

/-- Arguments are as many leaves and calls more as there are arguments. -/
theorem counted_arguments {ps : List (Phrase α)}
    (hps : ∀ p ∈ ps, Counted (p.contents g) p.calls 1) {lead : List (Token.Content α)}
    (hlead : Counted lead [] 0) : Counted (contentsAll g lead ps) (callsAll ps) ps.length := by
  induction ps generalizing lead with
  | nil => exact ⟨by simp [contentsAll, callsAll, argumentsGiven], by
      simp [contentsAll, callsAll, argumentsTaken]⟩
  | cons p ps ih =>
    have hrest : Counted (contentsAll g [.separator g.separator] ps) (callsAll ps) ps.length :=
      ih (fun q hq => hps q (by simp [hq])) (counted_neutral (by simp [kind]))
    have hall := hlead.append ((hps p (by simp)).append hrest)
    rw [contentsAll, callsAll, List.length_cons]
    simpa [Nat.add_comm] using hall

/-- **A phrase has one leaf or call more than operators between operands and arguments.** -/
theorem Legible.counted (hp : p.Legible g) : Counted (p.contents g) p.calls 1 := by
  induction hp with
  | number _ _ =>
    rw [contents, calls]
    exact counted_leaf rfl
  | «variable» _ _ _ =>
    rw [contents, calls]
    exact counted_leaf rfl
  | @prefixed op p known _ _ _ ih =>
    have hkind : (Token.Content.operator op).kind = .prefixOp := by
      simp [kind, g.prefix_fixity _ _ known]
    rw [contents, calls]
    exact (counted_neutral (by simp [hkind])).append ih
  | @infixed op l r known _ _ _ _ ihl ihr =>
    have hkind : (Token.Content.operator op).kind = .infixOp := by
      simp [kind, g.infix_fixity _ _ known]
    obtain ⟨hleaves, harities⟩ := ihl.append ihr
    rw [contents, calls]
    constructor
    · simp only [List.map_append, List.map_cons, List.count_append, List.count_cons, hkind]
        at hleaves ⊢
      simp only [beq_iff_eq, reduceCtorEq, if_false, if_true]
      omega
    · simpa [callArity] using harities
  | @group p _ ih =>
    have hopen : Counted (α := α) [.openBrace g.openBrace] [] 0 := counted_neutral (by simp [kind])
    have hclose : Counted (α := α) [.closeBrace g.closeBrace] [] 0 :=
      counted_neutral (by simp [kind])
    rw [contents, calls]
    simpa using hopen.append (ih.append hclose)
  | @call f ps _ _ _ ih =>
    have hlead : Counted ([] : List (Token.Content α)) [] 0 := ⟨rfl, rfl⟩
    have hclose : Counted (α := α) [.closeBrace g.closeBrace] [] 0 :=
      counted_neutral (by simp [kind])
    obtain ⟨hleaves, harities⟩ := (counted_arguments ih hlead).append hclose
    rw [contents, calls]
    simp only [argumentsGiven, argumentsTaken, List.append_nil] at hleaves harities
    constructor
    · simp [argumentsGiven, kind] at hleaves ⊢
      omega
    · simpa [argumentsTaken, callArity] using harities

/-! ## The arguments of all calls together -/

/-- Terms that are each at most as large as others, and in all as large, are the same. -/
theorem eq_of_le_of_sum_eq {β : Type} {l : List β} {m n : β → Nat} (hle : ∀ b ∈ l, m b ≤ n b)
    (hsum : (l.map m).sum = (l.map n).sum) : ∀ b ∈ l, m b = n b := by
  intro b hb
  by_contra hne
  have hlt : m b < n b := Nat.lt_of_le_of_ne (hle b hb) hne
  exact (List.sum_lt_sum m n hle ⟨b, hb, hlt⟩).ne hsum

/-- **The calls of a text with a value have as many arguments as their functions take, all calls
together.**  The rendering of a braced phrase is read as its tokens, and this holds of every text
that is read so, whatever white space stands between them.  So if no call has too many arguments, or
none too few, each has as many as its function takes. -/
theorem arguments_of_parseAndRun (hg : g.MarksApart) {gap : List Char}
    (hgap : ∀ c ∈ gap, g.isWhitespace c = true) (hp : p.Braced g) :
    g.Reads (String.ofList (p.chars g gap)) (p.contents g) ∧
      ∀ (text : String) (bindings : Bindings α) (v : α), g.Reads text (p.contents g) →
        g.parseAndRun text bindings = .ok v →
        argumentsGiven p.calls = argumentsTaken p.calls ∧
        ((∀ c ∈ p.calls, c.2 ≤ c.1.arity) → ∀ c ∈ p.calls, c.2 = c.1.arity) ∧
        ((∀ c ∈ p.calls, c.1.arity ≤ c.2) → ∀ c ∈ p.calls, c.2 = c.1.arity) := by
  have hlegible := hp.legible
  refine ⟨?_, fun text bindings v hreads hvalue => ?_⟩
  · refine Grammar.reads_iff.2 ⟨by simp [hlegible.chars_ne_nil], ?_⟩
    rw [String.toList_ofList, ← List.append_nil (p.chars g gap), ← List.append_nil (p.contents g)]
    exact hlegible.isSpelled hg hgap .operand [] [] (.inl rfl) Grammar.breaks_nil
      Grammar.spells_nil
  · obtain ⟨hleaves, harities⟩ := hlegible.counted
    obtain ⟨cs, hcs, hstack⟩ := Grammar.leaves_of_parseAndRun hvalue
    obtain rfl : cs = p.contents g := hcs.unique hreads
    have htotal : argumentsGiven p.calls = argumentsTaken p.calls := by omega
    exact ⟨htotal, fun h => eq_of_le_of_sum_eq h htotal, fun h c hc =>
      (eq_of_le_of_sum_eq h htotal.symm c hc).symm⟩

/-- The integers with a maximum, a negation, and a function of one argument named by a numeral. -/
private def called : Grammar Int :=
  .ofDeclarations (fun numeral => if numeral = "2" then .ok 2 else .error ⟨"unknown numeral"⟩)
    [.function "max" (.binary fun a b => .ok (max a b)) none,
      .function "neg" (.unary fun a => .ok (-a)) none,
      .function "2" (.unary fun a => .ok (-a)) none]

private def larger : NamedFunction Int := ⟨"max", .binary fun a b => .ok (max a b), .unbounded⟩

private def negated : NamedFunction Int := ⟨"neg", .unary fun a => .ok (-a), .unbounded⟩

private theorem called_marksApart : called.MarksApart :=
  .of_lists [] (fun _ hc => Grammar.mem_glyphs hc) rfl rfl rfl rfl

private theorem braced_larger {ps : List (Phrase Int)} (hps : ∀ p ∈ ps, p.Braced called) :
    (call larger ps).Braced called :=
  .call ⟨'m', ['a', 'x'], by decide, by decide, List.all_eq_true.1 rfl⟩ rfl hps

private theorem braced_negated {ps : List (Phrase Int)} (hps : ∀ p ∈ ps, p.Braced called) :
    (call negated ps).Braced called :=
  .call ⟨'n', ['e', 'g'], by decide, by decide, List.all_eq_true.1 rfl⟩ rfl hps

private theorem braced_two : (number "2" 2 : Phrase Int).Braced called :=
  .number ⟨'2', [], by decide, by decide, by simp⟩ rfl

/-- `max(neg(2),2)`. -/
private def exactCalls : Phrase Int :=
  .call larger [.call negated [.number "2" 2], .number "2" 2]

/-- `max(neg(2,2))`. -/
private def inexactCalls : Phrase Int :=
  .call larger [.call negated [.number "2" 2, .number "2" 2]]

theorem arguments_of_parseAndRun_called :
    called.MarksApart ∧ (∀ c ∈ [' '], called.isWhitespace c = true) ∧ exactCalls.Braced called ∧
      String.ofList (exactCalls.chars called [' ']) = "max(neg(2),2)" ∧
      called.parseAndRun "max(neg(2),2)" ∅ = .ok 2 ∧
      argumentsGiven exactCalls.calls = argumentsTaken exactCalls.calls := by
  have hbraced : exactCalls.Braced called :=
    braced_larger (by simpa using ⟨braced_negated (by simpa using braced_two), braced_two⟩)
  have hgap : ∀ c ∈ [' '], called.isWhitespace c = true := List.all_eq_true.1 rfl
  have htext : String.ofList (exactCalls.chars called [' ']) = "max(neg(2),2)" := by decide
  obtain ⟨hreads, hread⟩ := arguments_of_parseAndRun called_marksApart hgap hbraced
  rw [htext] at hreads
  have hvalue : called.parseAndRun "max(neg(2),2)" ∅ = .ok 2 := by decide +kernel
  exact ⟨called_marksApart, hgap, hbraced, htext, hvalue, (hread _ _ _ hreads hvalue).1⟩

/-- A function of one argument that bears a numeral as its name. -/
private def numbered : NamedFunction Int := ⟨"2", .unary fun a => .ok (-a), .unbounded⟩

/-- Texts with a function of one argument, and points between arguments. -/
private def pointed : Grammar String :=
  .ofDeclarations .ok [.separator '.', .function "neg" (.unary fun a => .ok s!"(neg {a})") none]

private def quoted : NamedFunction String := ⟨"neg", .unary fun a => .ok s!"(neg {a})", .unbounded⟩

/-- In `max(neg(2,2))` one function uses up what the other one leaves.  The name `2` is read as a
number, and where the separator is a point, so is `2.2`; then the numbers of arguments do not agree
even in all. -/
theorem arguments_of_parseAndRun_inexact :
    (called.MarksApart ∧ inexactCalls.Braced called ∧
      String.ofList (inexactCalls.chars called []) = "max(neg(2,2))" ∧
      called.parseAndRun "max(neg(2,2))" ∅ = .ok 2 ∧
      inexactCalls.calls = [(larger, 1), (negated, 2)] ∧ larger.arity = 2 ∧ negated.arity = 1) ∧
    (String.ofList ((call numbered []).chars called []) = "2()" ∧
      called.functions.get? "2" = some numbered ∧ numbered.arity = 1 ∧
      called.parseAndRun "2()" ∅ = .ok 2) ∧
    (call quoted [.number "2" "2", .number "2" "2"]).Braced pointed ∧
      String.ofList ((call quoted [.number "2" "2", .number "2" "2"]).chars pointed []) =
        "neg(2.2)" ∧
      quoted.arity = 1 ∧ pointed.parseAndRun "neg(2.2)" ∅ = .ok "(neg 2.2)" := by
  have hinexact : inexactCalls.Braced called :=
    braced_larger (by simpa using braced_negated (by simpa using braced_two))
  have htwo : (number "2" "2").Braced pointed :=
    .number ⟨'2', [], by decide, by decide, by simp⟩ rfl
  have hquoted : (call quoted [.number "2" "2", .number "2" "2"]).Braced pointed :=
    .call ⟨'n', ['e', 'g'], by decide, by decide, List.all_eq_true.1 rfl⟩ rfl (by simpa using htwo)
  exact ⟨⟨called_marksApart, hinexact, by decide, by decide +kernel, rfl, rfl, rfl⟩,
    ⟨by decide, rfl, rfl, by decide +kernel⟩, hquoted, by decide, rfl, by decide +kernel⟩

end Phrase

end Reckon

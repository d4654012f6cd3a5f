import Reckon.Proofs.Calculator.Glyphs
import Reckon.Proofs.Calculator.TruthTable
import Reckon.Proofs.Expression.PhraseValue

/-!
# Proofs/Calculator/Formula — truth tables mean what the formula means

A formula is written with as few braces as the priorities of the connectives allow.  **The truth
table of that text holds the truth value of the formula under every valuation of its variables**
(`Logic.ofText_formula`).
-/

namespace Reckon

namespace Logic

/-- A formula of propositional logic. -/
inductive Formula where
  | atom (name : String)
  | constant (value : Bool)
  | not (φ : Formula)
  | joined (k : Connective) (φ ψ : Formula)
deriving DecidableEq, Repr

theorem Connective.precedence_lt (k : Connective) : k.precedence < negation.precedence := by
  cases k <;> decide

namespace Formula

/-! ## Meaning -/

/-- The truth value of a formula when its variables have theirs. -/
def holds (v : String → Bool) : Formula → Bool
  | atom name => v name
  | constant value => value
  | not φ => !holds v φ
  | joined k φ ψ => k.holds (holds v φ) (holds v ψ)

/-- The names of the variables, from left to right. -/
def names : Formula → List String
  | atom name => [name]
  | constant _ => []
  | not φ => names φ
  | joined _ φ ψ => names φ ++ names ψ

/-! ## Text -/

/-- The formula is a variable or a constant. -/
def isAtom : Formula → Bool
  | atom _ | constant _ => true
  | not _ | joined _ _ _ => false

/-- On the left of a connective, a formula is in braces if its own binds less tightly. -/
def bracedBefore (k : Connective) : Formula → Bool
  | joined j _ _ => decide (j.precedence < k.precedence)
  | _ => false

/-- On the right of a connective, a formula is in braces if its own does not bind tighter. -/
def bracedAfter (k : Connective) : Formula → Bool
  | joined j _ _ => decide (j.precedence ≤ k.precedence)
  | _ => false

/-- The text in braces, if it needs them. -/
def braced (needed : Bool) (cs : List Char) : List Char :=
  if needed then '(' :: (cs ++ [')']) else cs

/-- The text of a formula with the fewest braces, and white space `gap` on both sides of a
connective. -/
def chars (gap : List Char) : Formula → List Char
  | atom name => name.toList
  | constant value => [if value then '1' else '0']
  | not φ => '~' :: braced (!φ.isAtom) (chars gap φ)
  | joined k φ ψ => braced (φ.bracedBefore k) (chars gap φ) ++ (gap ++ k.glyph ::
      (gap ++ braced (ψ.bracedAfter k) (chars gap ψ)))

/-- The line of a formula. -/
def text (gap : List Char) (φ : Formula) : String := String.ofList (φ.chars gap)

/-! ## The phrase of a formula -/

/-- The phrase in braces, if it needs them. -/
def grouped (needed : Bool) (p : Phrase Bool) : Phrase Bool := if needed then .group p else p

/-- The formula as a phrase. -/
def phrase : Formula → Phrase Bool
  | atom name => .variable name
  | constant value => .number (if value then "1" else "0") value
  | not φ => .prefixed negation (grouped (!φ.isAtom) φ.phrase)
  | joined k φ ψ => .infixed k.operator (grouped (φ.bracedBefore k) φ.phrase)
      (grouped (ψ.bracedAfter k) ψ.phrase)

theorem chars_grouped (gap : List Char) (needed : Bool) (p : Phrase Bool) :
    (grouped needed p).chars grammar gap = braced needed (p.chars grammar gap) := by
  cases needed with
  | false => rfl
  | true =>
    simp only [grouped, braced, if_pos, Phrase.chars]
    rfl

theorem chars_phrase (gap : List Char) (φ : Formula) :
    φ.phrase.chars grammar gap = φ.chars gap := by
  induction φ with
  | atom name => simp [phrase, Phrase.chars, chars]
  | constant value => cases value <;> simp [phrase, Phrase.chars, chars]
  | not φ ih =>
    simp only [phrase, Phrase.chars, chars, chars_grouped, ih]
    rfl
  | joined k φ ψ ihφ ihψ =>
    simp only [phrase, Phrase.chars, chars, chars_grouped, ihφ, ihψ]
    rfl

/-! ## How tightly a formula binds -/

/-- How tightly the outermost operator of a formula binds. -/
def level : Formula → Nat
  | joined k _ _ => k.precedence
  | _ => negation.precedence

/-- Nothing at the edges of the phrase binds less tightly than `n`. -/
def EdgesFrom (n : Nat) (p : Phrase Bool) : Prop :=
  (∀ o ∈ p.leftEdge, n ≤ o.precedence) ∧ ∀ o ∈ p.rightEdge, n ≤ o.precedence

theorem edgesFrom_grouped {needed : Bool} {n : Nat} {p : Phrase Bool}
    (h : needed = false → EdgesFrom n p) : EdgesFrom n (grouped needed p) := by
  cases needed with
  | false => exact h rfl
  | true => simp [EdgesFrom, grouped, Phrase.leftEdge, Phrase.rightEdge]

theorem EdgesFrom.mono {m n : Nat} {p : Phrase Bool} (h : EdgesFrom n p) (hmn : m ≤ n) :
    EdgesFrom m p :=
  ⟨fun o ho => Nat.le_trans hmn (h.1 o ho), fun o ho => Nat.le_trans hmn (h.2 o ho)⟩

theorem level_of_bracedBefore {k : Connective} {φ : Formula} (h : φ.bracedBefore k = false) :
    k.precedence ≤ φ.level := by
  cases φ with
  | joined j φ ψ => simpa [bracedBefore, level] using h
  | atom | constant | not => exact Nat.le_of_lt (k.precedence_lt)

theorem level_of_bracedAfter {k : Connective} {φ : Formula} (h : φ.bracedAfter k = false) :
    k.precedence < φ.level := by
  cases φ with
  | joined j φ ψ => simpa [bracedAfter, level] using h
  | atom | constant | not => exact k.precedence_lt

/-- On the left of a connective nothing binds less tightly than the connective. -/
theorem edgesFrom_before {φ : Formula} (h : EdgesFrom φ.level φ.phrase) (k : Connective) :
    EdgesFrom k.precedence (grouped (φ.bracedBefore k) φ.phrase) :=
  edgesFrom_grouped fun hbraced => h.mono (level_of_bracedBefore hbraced)

/-- On the right of a connective all binds tighter than the connective. -/
theorem edgesFrom_after {φ : Formula} (h : EdgesFrom φ.level φ.phrase) (k : Connective) :
    EdgesFrom (k.precedence + 1) (grouped (φ.bracedAfter k) φ.phrase) :=
  edgesFrom_grouped fun hbraced => h.mono (level_of_bracedAfter hbraced)

/-- The operand of a negation has no operator at its edges and starts with none. -/
theorem edges_operand (φ : Formula) :
    (grouped (!φ.isAtom) φ.phrase).leftEdge = [] ∧ (grouped (!φ.isAtom) φ.phrase).rightEdge = [] ∧
      (grouped (!φ.isAtom) φ.phrase).startsBare = true := by
  cases φ <;> exact ⟨rfl, rfl, rfl⟩

/-- **What is at the edges of a formula binds at least as tightly as the formula.** -/
theorem edgesFrom_level (φ : Formula) : EdgesFrom φ.level φ.phrase := by
  induction φ with
  | atom name => simp [EdgesFrom, phrase, Phrase.leftEdge, Phrase.rightEdge]
  | constant value => simp [EdgesFrom, phrase, Phrase.leftEdge, Phrase.rightEdge]
  | not φ ih =>
    obtain ⟨-, hright, -⟩ := φ.edges_operand
    simp [EdgesFrom, phrase, Phrase.leftEdge, Phrase.rightEdge, hright, level]
  | joined k φ ψ ihφ ihψ =>
    constructor
    · intro o ho
      rcases List.mem_append.1 ho with ho | ho
      · exact (edgesFrom_before ihφ k).1 o ho
      · rw [List.mem_singleton.1 ho]
        exact Nat.le_refl _
    · intro o ho
      rcases List.mem_cons.1 ho with rfl | ho
      · exact Nat.le_refl _
      · exact Nat.le_of_succ_le ((edgesFrom_after ihψ k).2 o ho)

/-! ## Reading a formula -/

/-- An operator that binds at least as tightly goes before a connective. -/
theorem goesBefore_operator {o : Operator Bool} {k : Connective} (h : k.precedence ≤ o.precedence) :
    o.goesBefore k.operator = true := by
  have hprecedence : k.operator.precedence = k.precedence := rfl
  have hplace : k.operator.isPrefixOp = false := rfl
  have hleft : k.operator.associativity.groupsLeft = true := rfl
  rw [Operator.goesBefore, hprecedence, hplace, hleft]
  rcases Nat.lt_or_eq_of_le h with hlt | heq
  · simp [hlt]
  · simp [heq]

/-- A connective does not go before an operator that binds tighter. -/
theorem operator_goesBefore {o : Operator Bool} {k : Connective} (h : k.precedence < o.precedence) :
    k.operator.goesBefore o = false := by
  have hprecedence : k.operator.precedence = k.precedence := rfl
  have hlt : ¬ o.precedence < k.precedence := by omega
  have hne : k.precedence ≠ o.precedence := by omega
  simp [Operator.goesBefore, hprecedence, hlt, hne]

theorem legible_grouped {needed : Bool} {p : Phrase Bool} (h : p.Legible grammar) :
    (grouped needed p).Legible grammar := by
  cases needed with
  | false => exact h
  | true => exact .group h

/-- The names of the variables are names. -/
def WellNamed (φ : Formula) : Prop := ∀ name ∈ φ.names, Token.IsName name

theorem convert_constant (value : Bool) :
    convert (if value then "1" else "0") = .ok value := by
  cases value <;> rfl

theorem isNumeral_constant (value : Bool) : Token.IsNumeral (if value then "1" else "0") := by
  cases value with
  | false => exact ⟨'0', [], by decide, by decide, by simp⟩
  | true => exact ⟨'1', [], by decide, by decide, by simp⟩

/-- **The phrase of a formula is legible.** -/
theorem legible_phrase {φ : Formula} (hφ : φ.WellNamed) : φ.phrase.Legible grammar := by
  induction φ with
  | atom name =>
    refine .variable (hφ name (by simp [names])) ?_ rfl
    rw [grammar, Grammar.functions_ofDeclarations]
    rfl
  | constant value => exact .number (isNumeral_constant value) (convert_constant value)
  | not φ ih =>
    obtain ⟨hleft, -, hbare⟩ := φ.edges_operand
    exact .prefixed negation_known hbare (by simp [hleft]) (legible_grouped (ih hφ))
  | joined k φ ψ ihφ ihψ =>
    have hbefore := (edgesFrom_before φ.edgesFrom_level k).2
    have hafter := (edgesFrom_after ψ.edgesFrom_level k).1
    exact .infixed k.known (fun o ho => goesBefore_operator (hbefore o ho))
      (fun o ho => operator_goesBefore (hafter o ho))
      (legible_grouped (ihφ fun name h => hφ name (by simp [names, h])))
      (legible_grouped (ihψ fun name h => hφ name (by simp [names, h])))

theorem complete_grouped {needed : Bool} {p : Phrase Bool} (h : p.Complete) :
    (grouped needed p).Complete := by
  cases needed with
  | false => exact h
  | true => exact .group h

theorem complete_phrase (φ : Formula) : φ.phrase.Complete := by
  induction φ with
  | atom name => exact .variable name
  | constant value => exact .number _ _
  | not φ ih => exact .prefixed rfl (complete_grouped ih)
  | joined k φ ψ ihφ ihψ => exact .infixed rfl (complete_grouped ihφ) (complete_grouped ihψ)

@[simp] theorem names_grouped (needed : Bool) (p : Phrase Bool) :
    (grouped needed p).names = p.names := by
  cases needed <;> rfl

theorem names_phrase (φ : Formula) : φ.phrase.names = φ.names := by
  induction φ with
  | atom name => rfl
  | constant value => rfl
  | not φ ih => simp [phrase, Phrase.names, names, ih]
  | joined k φ ψ ihφ ihψ => simp [phrase, Phrase.names, names, ihφ, ihψ]

@[simp] theorem value_grouped (v : String → Bool) (needed : Bool) (p : Phrase Bool) :
    (grouped needed p).value v = p.value v := by
  cases needed <;> rfl

/-- **The phrase of a formula has its truth value.** -/
theorem value_phrase (v : String → Bool) (φ : Formula) : φ.phrase.value v = .ok (φ.holds v) := by
  induction φ with
  | atom name => rfl
  | constant value => rfl
  | not φ ih =>
    rw [phrase, Phrase.value, value_grouped, ih]
    rfl
  | joined k φ ψ ihφ ihψ =>
    rw [phrase, Phrase.value, value_grouped, value_grouped, ihφ, ihψ]
    rfl

/-- **The text of a formula is read as an expression of its variables with its truth value.** -/
theorem exists_parse {φ : Formula} (hφ : φ.WellNamed) {gap : List Char}
    (hgap : ∀ c ∈ gap, c = ' ' ∨ c = '\t' ∨ c = '\n') :
    ∃ e : Expression grammar, grammar.parse (φ.text gap) = .ok e ∧ e.names = .ofList φ.names ∧
      ∀ (bindings : Bindings Bool) (v : String → Bool),
        (∀ name ∈ e.variableNames, grammar.valueOf? bindings name = some (v name)) →
        e.evaluate bindings = .ok (φ.holds v) := by
  obtain ⟨e, tree, hparse, hphase, htokens, htree, hnames⟩ :=
    (legible_phrase hφ).parse marksApart fun c hc => isWhitespace_iff.2 (hgap c hc)
  rw [chars_phrase] at hparse
  rw [names_phrase] at hnames
  refine ⟨e, hparse, hnames, ?_⟩
  intro bindings v hv
  rw [φ.complete_phrase.evaluate v hphase htokens htree, value_phrase]
  intro name hname
  rw [names_phrase] at hname
  exact hv name ((Expression.mem_variableNames hnames).2 hname)

/-- The truth table of a formula's text is that of an expression with its variables and its value. -/
theorem exists_expression {φ : Formula} (hφ : φ.WellNamed) {gap : List Char}
    (hgap : ∀ c ∈ gap, c = ' ' ∨ c = '\t' ∨ c = '\n') {limit : Nat}
    (hlimit : φ.names.dedup.length ≤ limit) (hmost : φ.names.dedup.length ≤ 63) :
    ∃ e : Expression grammar,
      TruthTable.ofText grammar limit (φ.text gap) = TruthTable.ofExpression e ∧
      e.names = .ofList φ.names ∧ e.variableNames.length = φ.names.dedup.length ∧
      ∀ (bindings : Bindings Bool) (v : String → Bool),
        (∀ name ∈ e.variableNames, grammar.valueOf? bindings name = some (v name)) →
        e.evaluate bindings = .ok (φ.holds v) := by
  obtain ⟨e, hparse, hnames, hvalue⟩ := exists_parse hφ hgap
  have hcount : e.variableNames.length = φ.names.dedup.length :=
    Expression.length_variableNames hnames
  refine ⟨e, TruthTable.ofText_of_parse hparse ?_ ?_, hnames, hcount, hvalue⟩
  · rwa [hcount]
  · rwa [hcount]

/-- **There is no table of a formula with more than 58 variables**, even if the limits allow them. -/
theorem ofText_of_lt {φ : Formula} (hφ : φ.WellNamed) {gap : List Char}
    (hgap : ∀ c ∈ gap, c = ' ' ∨ c = '\t' ∨ c = '\n') {limit : Nat}
    (hlimit : φ.names.dedup.length ≤ limit) (hmost : φ.names.dedup.length ≤ 63)
    (hmany : 58 < φ.names.dedup.length) :
    TruthTable.ofText grammar limit (φ.text gap) = .error (.misuse .capacityOverflow) := by
  obtain ⟨e, htable, -, hcount, -⟩ := exists_expression hφ hgap hlimit hmost
  rw [htable, TruthTable.ofExpression_of_lt (by rwa [hcount])]

end Formula

/-- **Truth tables mean what the formula means.**  The table of a formula with up to 58 variables, no
more than the limits allow, is made; its variables are those of the formula in ascending order, and row
`i` ends in the truth value of the formula under the valuation of that row.  For more variables there is
no table, though the limits may allow up to 63. -/
theorem ofText_formula (φ : Formula) (hφ : φ.WellNamed) (gap : List Char)
    (hgap : ∀ c ∈ gap, c = ' ' ∨ c = '\t' ∨ c = '\n') (limit : Nat)
    (hlimit : φ.names.dedup.length ≤ limit) (hmost : φ.names.dedup.length ≤ 63) :
    (φ.names.dedup.length ≤ 58 →
      ∃ table, TruthTable.ofText grammar limit (φ.text gap) = .ok table ∧
        table.names.Pairwise (· < ·) ∧ (∀ name, name ∈ table.names ↔ name ∈ φ.names) ∧
        table.names.length = φ.names.dedup.length ∧
        table.rows.length = 2 ^ φ.names.dedup.length ∧
        ∀ i < 2 ^ φ.names.dedup.length, ∃ row, table.rows[i]? = some row ∧
          row.value = φ.holds (TruthTable.valuation table.names i)) ∧
    (58 < φ.names.dedup.length →
      TruthTable.ofText grammar limit (φ.text gap) = .error (.misuse .capacityOverflow)) := by
  refine ⟨fun hroom => ?_, Formula.ofText_of_lt hφ hgap hlimit hmost⟩
  obtain ⟨e, htable, hnames, hcount, hvalue⟩ := Formula.exists_expression hφ hgap hlimit hmost
  rw [TruthTable.ofExpression_eq_ok (by rwa [hcount]) hvalue] at htable
  refine ⟨_, htable, e.variableNames_sorted, fun name => Expression.mem_variableNames hnames,
    hcount, by simp [hcount], ?_⟩
  intro i hi
  refine ⟨⟨TruthTable.assignment e.variableNames.length i,
    φ.holds (TruthTable.valuation e.variableNames i)⟩, ?_, rfl⟩
  rw [List.getElem?_map, List.getElem?_range (by rwa [hcount]), Option.map_some]

/-- The formula `(x | y) & ~(y > x)`. -/
private def greater : Formula :=
  .joined .and (.joined .or (.atom "x") (.atom "y"))
    (.not (.joined .implies (.atom "y") (.atom "x")))

theorem ofText_formula_greater :
    greater.WellNamed ∧ greater.names.dedup.length = 2 ∧
      ∃ table, TruthTable.ofText grammar 7 "(x | y) & ~(y > x)" = .ok table ∧
        table.names.length = 2 ∧ table.rows.length = 4 ∧
        ∀ i < 4, ∃ row, table.rows[i]? = some row ∧
          row.value = greater.holds (TruthTable.valuation table.names i) := by
  have hx : Token.IsName "x" := ⟨'x', [], by decide, by decide, by simp⟩
  have hy : Token.IsName "y" := ⟨'y', [], by decide, by decide, by simp⟩
  have hnames : greater.WellNamed := by
    simp only [Formula.WellNamed, greater, Formula.names]
    simp [hx, hy]
  have hcount : greater.names.dedup.length = 2 := by decide
  have htext : greater.text [' '] = "(x | y) & ~(y > x)" := by decide
  obtain ⟨hfew, -⟩ := ofText_formula greater hnames [' '] (by simp) 7 (by rw [hcount]; decide)
    (by rw [hcount]; decide)
  obtain ⟨table, htable, -, -, hlength, hrows, hvalues⟩ := hfew (by rw [hcount]; decide)
  rw [htext] at htable
  rw [hcount] at hlength hrows hvalues
  exact ⟨hnames, hcount, table, htable, hlength, hrows, hvalues⟩

/-- The conjunction of sixty variables. -/
private def wide : Formula :=
  TruthTable.sixtyNames.tail.foldl (fun φ name => .joined .and φ (.atom name)) (.atom "a0")

/-- A conjunction of sixty variables has no table, though the limit is 63. -/
theorem ofText_formula_wide :
    wide.WellNamed ∧ wide.text [] = "&".intercalate TruthTable.sixtyNames ∧ wide.names.dedup.length = 60 ∧
      TruthTable.ofText grammar 63 (wide.text []) = .error (.misuse .capacityOverflow) := by
  have hnames : wide.names = TruthTable.sixtyNames := by decide +kernel
  have hcount : wide.names.dedup.length = 60 := by decide +kernel
  have hletters : ∀ name ∈ TruthTable.sixtyNames, name.toList.head?.any Token.isNameStart = true ∧
      name.toList.tail.all Token.isNamePart = true := by
    decide +kernel
  have hwide : wide.WellNamed := by
    intro name hname
    obtain ⟨hstart, hpart⟩ := hletters name (hnames ▸ hname)
    cases hchars : name.toList with
    | nil => simp [hchars] at hstart
    | cons c cs =>
      rw [hchars] at hstart hpart
      exact ⟨c, cs, hchars, hstart, List.all_eq_true.1 hpart⟩
  refine ⟨hwide, by decide +kernel, hcount, ?_⟩
  exact Formula.ofText_of_lt hwide (by simp) (by rw [hcount]; decide) (by rw [hcount]; decide)
    (by rw [hcount]; decide)

end Logic

end Reckon

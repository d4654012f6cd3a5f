import Reckon.Proofs.Calculator.Glyphs
import Reckon.Proofs.Expression.PhraseValue
import Reckon.Proofs.Number.Reading

/-!
# Proofs/Calculator/IntegerTree — exact integers from end to end

A tree of integer operations is written with braces around every operation.  As long as no power has
a negative exponent, **the calculator gives the exact value of the tree or the first fault in it**
(`Arithmetic.calculate_text`), whatever the limits are.
-/

namespace Reckon

namespace Arithmetic

/-! ## Operations on integers -/

/-- The magnitude is above the bound; an absent bound is above everything. -/
def exceeds (bound : Option Int) (n : Int) : Bool := bound.any fun b : Int => decide (b < n.natAbs)

/-- The value of a sign before an integer. -/
def Sign.onInteger : Sign → Int → Int
  | minus, a => -a
  | plus, a => a

/-- The operands are refused. -/
def Connective.refuses (limits : Limits) : Connective → Int → Int → Bool
  | power, a, b =>
    exceeds limits.powerUnionLimit a && exceeds limits.powerUnionLimit b ||
      (exceeds limits.powerEachLimit a || exceeds limits.powerEachLimit b)
  | _, a, b => exceeds limits.operandLimit a || exceeds limits.operandLimit b

/-- The value of a connective between integers; powers are meant with exponents of zero or more. -/
def Connective.onIntegers : Connective → Int → Int → Except DomainError Int
  | sum, a, b => .ok (a + b)
  | difference, a, b => .ok (a - b)
  | product, a, b => .ok (a * b)
  | floorQuotient, a, b => if b = 0 then .error .divisionByZero else .ok (a.fdiv b)
  | remainder, a, b => if b = 0 then .error .divisionByZero else .ok (a.fmod b)
  | power, a, b => if 2 ^ 32 ≤ b then .error (.overflow "^") else .ok (a ^ b.toNat)

/-! ## The operators on integers -/

section Operators

variable (limits : Limits) (union each : Option Int) (a b : Int)

theorem integer_lt_integer {m n : Int} : Number.integer m < .integer n ↔ m < n := Iff.rfl

theorem magnitudeLimiter_permits_one :
    (magnitudeLimiter none each).permits [.integer a] = !exceeds each a := by
  cases each <;>
    simp [magnitudeLimiter, Limiter.boundsBy, exceeds, Number.abs, integer_lt_integer]

theorem magnitudeLimiter_permits_two :
    (magnitudeLimiter union each).permits [.integer a, .integer b] =
      !(exceeds union a && exceeds union b || (exceeds each a || exceeds each b)) := by
  cases union <;> cases each <;>
    simp [magnitudeLimiter, Limiter.boundsBy, exceeds, Number.abs, integer_lt_integer]

theorem Sign.onNumber_integer (s : Sign) :
    s.onNumber (.integer a) = .ok (.integer (s.onInteger a)) := by
  cases s <;> rfl

/-- A connective keeps integers, unless it is a power with a negative exponent. -/
theorem Connective.onNumbers_integers (k : Connective) (hpower : k = .power → 0 ≤ b) :
    k.onNumbers (.integer a) (.integer b) = (k.onIntegers a b).map Number.integer := by
  cases k with
  | sum | difference | product => rfl
  | floorQuotient =>
    by_cases hb : b = 0
    · simp [onNumbers, onIntegers, Number.floorDivide, Number.isZero, hb]
    · simp [onNumbers, onIntegers, Number.floorDivide, Number.isZero, Number.pair, hb]
  | remainder =>
    by_cases hb : b = 0
    · simp [onNumbers, onIntegers, Number.floorModulo, Number.isZero, hb]
    · simp [onNumbers, onIntegers, Number.floorModulo, Number.isZero, Number.pair, hb]
  | power =>
    simp only [onNumbers, onIntegers, Number.power, Number.pair, Number.integerPower,
      if_pos (hpower rfl)]
    by_cases hb : b < Number.exponentBound
    · have hbound : ¬ 2 ^ 32 ≤ b := Int.not_le.2 hb
      rw [if_pos hb, if_neg hbound, map_ok]
    · have hbound : 2 ^ 32 ≤ b := Int.not_lt.1 hb
      rw [if_neg hb, if_pos hbound, map_error]

/-- A sign before an integer is refused or gives an integer. -/
theorem Sign.outcome (s : Sign) :
    (s.operator limits).operation.outcome (s.operator limits).text [.integer a] =
      if exceeds limits.operandLimit a then
        .error (.calculationLimit (.operandsRefused s.glyph.toString))
      else .ok (.integer (s.onInteger a)) := by
  have hpermits : (operandLimiter limits).permits [.integer a] = !exceeds limits.operandLimit a :=
    magnitudeLimiter_permits_one limits.operandLimit a
  have hnative := s.onNumber_integer a
  cases hrefuses : exceeds limits.operandLimit a <;>
    simp [Operation.outcome, operator, Operator.prefixOf, Operator.text, Native.unary, hpermits,
      hrefuses, hnative]

/-- A connective between integers is refused, fails, or gives an integer. -/
theorem Connective.outcome (k : Connective)
    (hpower : k = .power → k.refuses limits a b = false → 0 ≤ b) :
    (k.operator limits).operation.outcome (k.operator limits).text [.integer a, .integer b] =
      if k.refuses limits a b then .error (.calculationLimit (.operandsRefused k.glyph.toString))
      else ((k.onIntegers a b).map Number.integer).mapError Error.domain := by
  have hpermits : (k.limiter limits).permits [.integer a, .integer b] = !k.refuses limits a b := by
    cases k <;> exact magnitudeLimiter_permits_two _ _ a b
  cases hrefuses : k.refuses limits a b with
  | true => simp [Operation.outcome, operator, Operator.infixOf, Operator.text, hpermits, hrefuses]
  | false =>
    have hnative := k.onNumbers_integers a b fun h => hpower h hrefuses
    cases hvalue : k.onIntegers a b <;>
      simp [Operation.outcome, operator, Operator.infixOf, Native.binary, hpermits, hrefuses,
        hnative, hvalue, Except.mapError]

end Operators

/-! ## Trees of integer operations -/

/-- A tree of operations on natural numbers. -/
inductive IntegerTree where
  | leaf (n : Nat)
  | signed (s : Sign) (operand : IntegerTree)
  | joined (k : Connective) (left right : IntegerTree)
deriving DecidableEq, Repr

namespace IntegerTree

/-- The text of a tree: digits, and every operation in braces of its own, with white space `gap` on
both sides of a connective. -/
def chars (gap : List Char) : IntegerTree → List Char
  | leaf n => Nat.toDigits 10 n
  | signed s t => '(' :: s.glyph :: (chars gap t ++ [')'])
  | joined k l r => '(' :: (chars gap l ++ (gap ++ k.glyph :: (gap ++ chars gap r)) ++ [')'])

/-- The line of a tree. -/
def text (gap : List Char) (t : IntegerTree) : String := String.ofList (t.chars gap)

/-- The value of a tree, the operands of each operation from left to right, then its limits, then
what it fails on. -/
def value (limits : Limits) : IntegerTree → Except Error Int
  | leaf n => .ok n
  | signed s t => do
    let a ← value limits t
    if exceeds limits.operandLimit a then
      .error (.calculationLimit (.operandsRefused s.glyph.toString))
    else .ok (s.onInteger a)
  | joined k l r => do
    let a ← value limits l
    let b ← value limits r
    if k.refuses limits a b then .error (.calculationLimit (.operandsRefused k.glyph.toString))
    else (k.onIntegers a b).mapError Error.domain

/-- No power in the tree is ever applied to a negative exponent. -/
def ExponentsNonneg (limits : Limits) : IntegerTree → Prop
  | leaf _ => True
  | signed _ t => t.ExponentsNonneg limits
  | joined k l r => l.ExponentsNonneg limits ∧ ∀ a, l.value limits = .ok a →
      r.ExponentsNonneg limits ∧ ∀ b, r.value limits = .ok b →
        k = .power → k.refuses limits a b = false → 0 ≤ b

/-- The tree as a phrase. -/
def phrase (limits : Limits) : IntegerTree → Phrase Number
  | leaf n => .number n.repr (.integer n)
  | signed s t => .group (.prefixed (s.operator limits) (phrase limits t))
  | joined k l r => .group (.infixed (k.operator limits) (phrase limits l) (phrase limits r))

variable {limits : Limits} {gap : List Char}

theorem chars_phrase (t : IntegerTree) :
    (t.phrase limits).chars (grammar limits) gap = t.chars gap := by
  induction t with
  | leaf n => simp [phrase, Phrase.chars, chars, Nat.toList_repr]
  | signed s t ih =>
    simp only [phrase, Phrase.chars, chars, ih]
    rfl
  | joined k l r ihl ihr =>
    simp only [phrase, Phrase.chars, chars, ihl, ihr]
    rfl

@[simp] theorem startsBare_phrase (t : IntegerTree) : (t.phrase limits).startsBare = true := by
  cases t <;> rfl

@[simp] theorem leftEdge_phrase (t : IntegerTree) : (t.phrase limits).leftEdge = [] := by
  cases t <;> rfl

@[simp] theorem rightEdge_phrase (t : IntegerTree) : (t.phrase limits).rightEdge = [] := by
  cases t <;> rfl

theorem isNumeral_repr (n : Nat) : Token.IsNumeral n.repr := by
  obtain ⟨c, cs, hcs, hdigit, hdigits⟩ := Decimal.exists_toDigits_eq_cons n
  refine ⟨c, cs, by rw [Nat.toList_repr, hcs], hdigit, ?_⟩
  intro d hd
  simp [Token.isNumeralPart, hdigits d hd]

theorem convert_repr (limits : Limits) (n : Nat) :
    (grammar limits).convert n.repr = .ok (.integer n) := by
  have hconvert : (grammar limits).convert = convert := rfl
  rw [hconvert, convert, Number.read_repr]
  rfl

theorem legible_phrase (t : IntegerTree) : (t.phrase limits).Legible (grammar limits) := by
  induction t with
  | leaf n => exact .number (isNumeral_repr n) (convert_repr limits n)
  | signed s t ih => exact .group (.prefixed (s.known limits) (by simp) (by simp) ih)
  | joined k l r ihl ihr => exact .group (.infixed (k.known limits) (by simp) (by simp) ihl ihr)

theorem complete_phrase (t : IntegerTree) : (t.phrase limits).Complete := by
  induction t with
  | leaf n => exact .number _ _
  | signed s t ih => exact .group (.prefixed rfl ih)
  | joined k l r ihl ihr => exact .group (.infixed rfl ihl ihr)

theorem names_phrase (t : IntegerTree) : (t.phrase limits).names = [] := by
  induction t with
  | leaf n => rfl
  | signed s t ih => exact ih
  | joined k l r ihl ihr => simp [phrase, Phrase.names, ihl, ihr]

/-- **The phrase has the value of the tree.** -/
theorem value_phrase (valueOf : String → Number) {t : IntegerTree} (ht : t.ExponentsNonneg limits) :
    (t.phrase limits).value valueOf = (t.value limits).map Number.integer := by
  induction t with
  | leaf n => rfl
  | signed s t ih =>
    simp only [phrase, Phrase.value, value, ih ht]
    cases t.value limits with
    | error e => rfl
    | ok a =>
      simp only [map_ok, ok_bind, s.outcome limits a]
      cases exceeds limits.operandLimit a <;> rfl
  | joined k l r ihl ihr =>
    obtain ⟨hl, hright⟩ := ht
    simp only [phrase, Phrase.value, value, ihl hl]
    cases ha : l.value limits with
    | error e => rfl
    | ok a =>
      obtain ⟨hr, hexponent⟩ := hright a ha
      simp only [map_ok, ok_bind, ihr hr]
      cases hb : r.value limits with
      | error e => rfl
      | ok b =>
        simp only [map_ok, ok_bind, k.outcome limits a b (hexponent b hb)]
        cases k.refuses limits a b with
        | true => rfl
        | false => cases k.onIntegers a b <;> rfl

end IntegerTree

/-- **The calculator is exact on integers.**  A line that is short enough has the value of the tree
it writes, faults and refusals included; any other is refused by its length. -/
theorem calculate_text (limits : Limits) (t : IntegerTree) (gap : List Char)
    (hgap : ∀ c ∈ gap, c = ' ' ∨ c = '\t' ∨ c = '\n') (ht : t.ExponentsNonneg limits) :
    calculate limits (t.text gap) =
      if (t.text gap).length < limits.lineLimit then (t.value limits).map Number.integer
      else .error (.calculationLimit (.lineTooLong (t.text gap).length limits.lineLimit)) := by
  rw [calculate, Limits.checkLine]
  split
  · obtain ⟨e, tree, hparse, hphase, htokens, htree, -⟩ := t.legible_phrase.parse
      (marksApart limits) (fun c hc => (isWhitespace_iff limits).2 (hgap c hc))
    rw [IntegerTree.chars_phrase] at hparse
    rw [ok_bind, Grammar.parseAndRun, IntegerTree.text, hparse, ok_bind,
      t.complete_phrase.evaluate (fun _ => .integer 0) hphase htokens htree
        (by simp [IntegerTree.names_phrase]), IntegerTree.value_phrase _ ht]
  · rfl

/-- The tree of `((-7) : 2) ^ 3`. -/
private def cubeOfQuotient : IntegerTree :=
  .joined .power (.joined .floorQuotient (.signed .minus (.leaf 7)) (.leaf 2)) (.leaf 3)

theorem calculate_text_cubeOfQuotient :
    (∀ c ∈ [' '], c = ' ' ∨ c = '\t' ∨ c = '\n') ∧ cubeOfQuotient.ExponentsNonneg {} ∧
      calculate {} "(((-7) : 2) ^ 3)" = .ok (.integer (-64)) := by
  have hgap : ∀ c ∈ [' '], c = ' ' ∨ c = '\t' ∨ c = '\n' := by simp
  have htree : cubeOfQuotient.ExponentsNonneg {} := by
    refine ⟨⟨trivial, fun a _ => ⟨trivial, fun b _ h => nomatch h⟩⟩, fun a _ => ⟨trivial, ?_⟩⟩
    intro b hb _ _
    obtain rfl : (3 : Int) = b := Except.ok.inj hb
    decide
  have htext : cubeOfQuotient.text [' '] = "(((-7) : 2) ^ 3)" := by decide
  have hvalue : cubeOfQuotient.value {} = .ok (-64) := by decide
  have hline := calculate_text {} cubeOfQuotient [' '] hgap htree
  rw [htext, hvalue] at hline
  exact ⟨hgap, htree, hline⟩

end Arithmetic

end Reckon

import Reckon.Proofs.Calculator.IntegerTree

/-!
# Proofs/Calculator/ReadBack — answers that are given back

The text of an integer is read as that integer (`Number.read_text_integer`).  The calculator has no
negative numerals: to it a text with a minus sign is the sign before a magnitude, which the limit on
operands may refuse (`Arithmetic.value_answer`).  **Unless it does, an integer that is given back has
itself as its value** (`Arithmetic.calculate_text_integer`).
-/

namespace Reckon.Arithmetic

variable {limits : Limits}

/-- A line that is short enough has the value of the phrase that it writes, if that is without
variables. -/
theorem calculate_phrase {p : Phrase Number} (hp : p.Legible (grammar limits)) (hcomplete : p.Complete)
    (hnames : p.names = []) {line : String} (hline : line.toList = p.chars (grammar limits) [])
    (hshort : line.length < limits.lineLimit) (valueOf : String → Number) :
    calculate limits line = p.value valueOf := by
  have hgap : ∀ c ∈ ([] : List Char), (grammar limits).isWhitespace c = true := nofun
  obtain ⟨e, tree, hparse, hphase, htokens, htree, -⟩ := hp.parse (marksApart limits) hgap
  rw [← hline, String.ofList_toList] at hparse
  rw [calculate, Limits.checkLine, if_pos hshort, ok_bind, Grammar.parseAndRun, hparse, ok_bind,
    hcomplete.evaluate valueOf hphase htokens htree (by simp [hnames])]

theorem exceeds_eq_false_iff {bound : Option Int} {n : Int} :
    exceeds bound n = false ↔ ∀ m, bound = some m → n.natAbs ≤ m := by
  cases bound <;> simp [exceeds]

/-- The phrase that the text of an integer is to the calculator. -/
def answer (limits : Limits) : Int → Phrase Number
  | .ofNat n => .number n.repr (.integer n)
  | .negSucc n =>
    .prefixed (Sign.minus.operator limits) (.number (n + 1).repr (.integer (n + 1 : Nat)))

theorem chars_answer (n : Int) :
    (answer limits n).chars (grammar limits) [] = (Number.integer n).text.toList := by
  cases n with
  | ofNat n =>
    rw [answer, Phrase.chars, Nat.toList_repr, Number.text, Int.ofNat_eq_natCast,
      Decimal.toList_signedNumeral_natCast]
  | negSucc n =>
    rw [answer, Phrase.chars, Phrase.chars, Nat.toList_repr, Number.text,
      Decimal.toList_signedNumeral_negSucc]
    rfl

theorem legible_answer (n : Int) : (answer limits n).Legible (grammar limits) := by
  cases n with
  | ofNat n => exact (IntegerTree.leaf n).legible_phrase
  | negSucc n =>
    exact .prefixed (Sign.minus.known limits) rfl nofun (IntegerTree.leaf (n + 1)).legible_phrase

theorem complete_answer (n : Int) : (answer limits n).Complete := by
  cases n with
  | ofNat n => exact .number _ _
  | negSucc n => exact .prefixed rfl (.number _ _)

theorem names_answer (n : Int) : (answer limits n).names = [] := by
  cases n <;> rfl

/-- The sign of a negative answer is an operation on its magnitude, with the limit of operations. -/
theorem value_answer (valueOf : String → Number) (n : Int) :
    (answer limits n).value valueOf =
      if n < 0 ∧ exceeds limits.operandLimit n then
        .error (.calculationLimit (.operandsRefused "-"))
      else .ok (.integer n) := by
  cases n with
  | ofNat n =>
    have hnonneg : ¬ (Int.ofNat n < 0 ∧ exceeds limits.operandLimit (Int.ofNat n)) :=
      fun h => Int.not_lt.2 (Int.natCast_nonneg n) h.1
    rw [answer, Phrase.value, if_neg hnonneg]
    rfl
  | negSucc n =>
    have hbound : exceeds limits.operandLimit (n + 1 : Nat) =
        exceeds limits.operandLimit (.negSucc n) := rfl
    rw [answer, Phrase.value, Phrase.value, ok_bind, Sign.outcome, hbound]
    simp only [Int.negSucc_lt_zero, true_and]
    rfl

/-- **An integer that is given back is itself.**  Its text is read as the number, of its kind too; and
it is a line of which the calculator makes that integer, unless the integer is negative and of a
magnitude above the limit on operands: then the sign is refused. -/
theorem calculate_text_integer (n : Int) :
    (∃ x, Number.read (Number.integer n).text = .ok x ∧ x.strictEqv (.integer n) = true) ∧
      ∀ limits : Limits, (Number.integer n).text.length < limits.lineLimit →
        ((0 ≤ n ∨ ∀ m, limits.operandLimit = some m → n.natAbs ≤ m) →
          calculate limits (Number.integer n).text = .ok (.integer n)) ∧
        (¬ (0 ≤ n ∨ ∀ m, limits.operandLimit = some m → n.natAbs ≤ m) →
          calculate limits (Number.integer n).text =
            .error (.calculationLimit (.operandsRefused "-"))) := by
  refine ⟨⟨.integer n, Number.read_text_integer n, Number.strictEqv_integer_iff.2 rfl⟩,
    fun limits hshort => ?_⟩
  have hvalue := calculate_phrase (legible_answer n) (complete_answer n) (names_answer n)
    (chars_answer n).symm hshort fun _ => .integer 0
  rw [value_answer] at hvalue
  have hwithin : (0 ≤ n ∨ ∀ m, limits.operandLimit = some m → n.natAbs ≤ m) ↔
      ¬ (n < 0 ∧ exceeds limits.operandLimit n = true) := by
    rw [not_and, Bool.not_eq_true, exceeds_eq_false_iff]
    exact ⟨fun h hn => h.resolve_left (Int.not_le.2 hn),
      fun h => (Int.lt_or_le n 0).elim (fun hn => .inr (h hn)) .inl⟩
  constructor
  · intro h
    rw [hvalue, if_neg (hwithin.1 h)]
  · intro h
    rw [hvalue, if_pos (Decidable.not_not.1 fun hnot => h (hwithin.2 hnot))]

/-- The default limits, but no operand above seven. -/
private def upToSeven : Limits where
  operandLimit := some 7

theorem calculate_text_integer_negative :
    (Number.integer (-7)).text.length < upToSeven.lineLimit ∧
      calculate upToSeven "-7" = .ok (.integer (-7)) ∧
      ¬ (0 ≤ (-8 : Int) ∨ ∀ m, upToSeven.operandLimit = some m → (-8 : Int).natAbs ≤ m) ∧
      calculate upToSeven "-8" = .error (.calculationLimit (.operandsRefused "-")) := by
  have hseven : (Number.integer (-7)).text = "-7" := by decide +kernel
  have height : (Number.integer (-8)).text = "-8" := by decide +kernel
  have hshort : (Number.integer (-7)).text.length < upToSeven.lineLimit := by rw [hseven]; decide
  have hshort' : (Number.integer (-8)).text.length < upToSeven.lineLimit := by rw [height]; decide
  have habove : ¬ (0 ≤ (-8 : Int) ∨ ∀ m, upToSeven.operandLimit = some m →
      (-8 : Int).natAbs ≤ m) := by
    rintro (h | h)
    · exact absurd h (by decide)
    · exact absurd (h 7 rfl) (by decide)
  have hwithin : ∀ m, upToSeven.operandLimit = some m → ((-7 : Int).natAbs : Int) ≤ m := by
    intro m hm
    obtain rfl : (7 : Int) = m := Option.some.inj hm
    decide
  refine ⟨hshort, ?_, habove, ?_⟩
  · rw [← hseven]
    exact ((calculate_text_integer (-7)).2 upToSeven hshort).1 (.inr hwithin)
  · rw [← height]
    exact ((calculate_text_integer (-8)).2 upToSeven hshort').2 habove

end Reckon.Arithmetic

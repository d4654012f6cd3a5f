import Mathlib.Data.List.Induction
import Reckon.Calculator.Logic
import Reckon.Proofs.Calculator.TruthTable
import Reckon.Proofs.Expression.Resolved

/-!
# Proofs/Calculator/Enumeration — each assignment in one row

Row `i` of a table assigns the digits of `i`, and **digits and number determine each other**
(`TruthTable.number_assignment`, `TruthTable.assignment_number`), so there is one row for each
assignment, and the rows ascend (`TruthTable.Enumerates.existsUnique`,
`TruthTable.Enumerates.ascending`).  The bindings of a row are those of its digits
(`TruthTable.assigns_zip`), and the error of a table for which there is room is that of its least row
that has one (`TruthTable.ofExpression_concludes`).
-/

namespace Reckon

/-! ## A loop over numbers -/

/-- **A loop over numbers has the result of each, or the error of the least that has one.** -/
theorem mapM_range_concludes {ε β : Type} (f : Nat → Except ε β) (n : Nat) :
    Concludes (fun bs => bs.length = n ∧ ∀ i b, bs[i]? = some b → f i = .ok b)
      (fun e => ∃ i < n, f i = .error e ∧ ∀ j < i, ∃ b, f j = .ok b) ((List.range n).mapM f) := by
  induction n with
  | zero => exact .ok ⟨rfl, by simp⟩
  | succ n ih =>
    rw [List.range_succ, List.mapM_append]
    cases hbefore : (List.range n).mapM f with
    | error e =>
      obtain ⟨i, hi, herror, hleast⟩ := ih.of_eq_error hbefore
      exact .error ⟨i, by omega, herror, hleast⟩
    | ok bs =>
      obtain ⟨hlength, hbs⟩ := ih.of_eq_ok hbefore
      rw [List.mapM_cons, List.mapM_nil]
      cases hlast : f n with
      | error e =>
        refine .error ⟨n, by omega, hlast, fun j hj => ⟨bs[j], ?_⟩⟩
        exact hbs j _ (List.getElem?_eq_getElem (by omega))
      | ok b =>
        refine .ok ⟨by simp [hlength], fun i c hi => ?_⟩
        rcases Nat.lt_trichotomy i n with hlt | rfl | hgt
        · rw [List.getElem?_append_left (by omega)] at hi
          exact hbs i c hi
        · rw [← hlength, List.getElem?_concat_length] at hi
          rw [hlast, Option.some.inj hi]
        · rw [List.getElem?_eq_none (by simp; omega)] at hi
          cases hi

namespace TruthTable

/-! ## Digits -/

/-- The number that the binary digits write, the highest first. -/
def number (bits : List Bool) : Nat := bits.foldl (fun n b => 2 * n + b.toNat) 0

variable {n i : Nat}

theorem number_concat (bits : List Bool) (b : Bool) :
    number (bits ++ [b]) = 2 * number bits + b.toNat := by
  rw [number, List.foldl_append]
  rfl

@[simp] theorem length_assignment (n i : Nat) : (assignment n i).length = n := by simp [assignment]

theorem getElem?_assignment {j : Nat} (h : j < n) :
    (assignment n i)[j]? = some (i.testBit (n - 1 - j)) := by
  simp [assignment, h]

/-- The last digit is the remainder, and the others are those of the half. -/
theorem assignment_succ (n i : Nat) :
    assignment (n + 1) i = assignment n (i / 2) ++ [i.testBit 0] := by
  have hothers : ∀ j ∈ List.range n, i.testBit (n + 1 - 1 - j) = (i / 2).testBit (n - 1 - j) := by
    intro j hj
    rw [List.mem_range] at hj
    rw [← Nat.testBit_succ]
    congr 1
    omega
  rw [assignment, List.range_succ, List.map_append, List.map_congr_left hothers]
  simp [assignment]

/-- **The digits of a number write it.** -/
theorem number_assignment (h : i < 2 ^ n) : number (assignment n i) = i := by
  induction n generalizing i with
  | zero =>
    obtain rfl : i = 0 := by simpa using h
    rfl
  | succ n ih =>
    have hhalf : i / 2 < 2 ^ n := by omega
    rw [assignment_succ, number_concat, ih hhalf, Nat.testBit_zero]
    rcases Nat.mod_two_eq_zero_or_one i with hi | hi <;> simp [hi] <;> omega

theorem number_lt (bits : List Bool) : number bits < 2 ^ bits.length := by
  induction bits using List.reverseRecOn with
  | nil => decide
  | append_singleton bits b ih =>
    have hb := b.toNat_le
    rw [number_concat, List.length_append, List.length_singleton, Nat.pow_succ]
    omega

/-- **A number has the digits that write it.** -/
theorem assignment_number (bits : List Bool) : assignment bits.length (number bits) = bits := by
  induction bits using List.reverseRecOn with
  | nil => rfl
  | append_singleton bits b ih =>
    have hhalf : (2 * number bits + b.toNat) / 2 = number bits := by
      have hb := b.toNat_le
      omega
    have hlast : (2 * number bits + b.toNat).testBit 0 = b := by cases b <;> simp [Nat.testBit_zero]
    rw [List.length_append, List.length_singleton, assignment_succ, number_concat, hhalf, ih, hlast]

/-! ## Rows -/

section Rows

variable {g : Grammar Bool} {e : Expression g} {ts : List (Token Bool)} {names : List String}
  {bindings : Bindings Bool}

/-- The bindings give each name its digit of the number, the first name having the highest. -/
def Assigns (bindings : Bindings Bool) (names : List String) (i : Nat) : Prop :=
  ∀ j name, names[j]? = some name → bindings[name]? = some (i.testBit (names.length - 1 - j))

/-- The expression comes to this where each of its variables has its digit of the number, whatever
other bindings there are. -/
def Yields (e : Expression g) (i : Nat) (result : Except Error Bool) : Prop :=
  (∃ bindings, Assigns bindings e.variableNames i) ∧
    ∀ bindings, Assigns bindings e.variableNames i → e.evaluate bindings = result

/-- **The bindings of a row give each variable its digit.** -/
theorem assigns_zip (hnames : names.Nodup) (i : Nat) :
    Assigns (.ofList (names.zip (assignment names.length i))) names i := by
  intro j name hname
  obtain ⟨hj, rfl⟩ := List.getElem?_eq_some_iff.1 hname
  rw [getElem?_ofList_zip hnames (List.getElem_mem hj), valuation, hnames.idxOf_getElem]

/-- **What a row comes to**, whatever other bindings there are. -/
theorem yields_evaluate (h : e.Sound ts) (i : Nat) :
    Yields e i
      (e.evaluate (.ofList (e.variableNames.zip (assignment e.variableNames.length i)))) := by
  have hzip := assigns_zip e.variableNames_nodup i
  refine ⟨⟨_, hzip⟩, fun bindings hbindings => Expression.evaluate_congr h fun name hname => ?_⟩
  obtain ⟨j, hj⟩ := List.getElem?_of_mem hname
  rw [Grammar.valueOf?, Grammar.valueOf?, hbindings j name hj, hzip j name hj]

/-- The table holds the values of the expression, one row for each number. -/
structure Enumerates (t : TruthTable) (e : Expression g) : Prop where
  names_eq : t.names = e.variableNames
  length_rows : t.rows.length = 2 ^ t.names.length
  row : ∀ (i : Nat) (row : Row), t.rows[i]? = some row →
    row.assignment = assignment t.names.length i ∧ Yields e i (.ok row.value)

namespace Enumerates

variable {t : TruthTable} {row : Row}

theorem number_row (h : t.Enumerates e) (hrow : t.rows[i]? = some row) :
    number row.assignment = i := by
  have hi := (List.getElem?_eq_some_iff.1 hrow).1
  rw [(h.row i row hrow).1]
  exact number_assignment (by rwa [← h.length_rows])

/-- **Each assignment stands in one row.** -/
theorem existsUnique (h : t.Enumerates e) {bits : List Bool}
    (hbits : bits.length = t.names.length) :
    ∃! i : Nat, ∃ row, t.rows[i]? = some row ∧ row.assignment = bits := by
  have hlt : number bits < t.rows.length := by
    rw [h.length_rows, ← hbits]
    exact number_lt bits
  have hrow : t.rows[number bits]? = some t.rows[number bits] := List.getElem?_eq_getElem hlt
  refine ⟨number bits, ⟨_, hrow, ?_⟩, ?_⟩
  · rw [(h.row _ _ hrow).1, ← hbits, assignment_number]
  · rintro j ⟨row, hj, rfl⟩
    exact (h.number_row hj).symm

/-- **The rows ascend**, as the numbers that their digits write. -/
theorem ascending (h : t.Enumerates e) :
    t.rows.Pairwise fun r s =>
      number (r.assignment ++ [r.value]) < number (s.assignment ++ [s.value]) := by
  refine List.pairwise_iff_getElem.2 fun i j hi hj hij => ?_
  have hr := h.number_row (List.getElem?_eq_getElem hi)
  have hs := h.number_row (List.getElem?_eq_getElem hj)
  have hvalue := Bool.toNat_le t.rows[i].value
  rw [number_concat, number_concat, hr, hs]
  omega

end Enumerates

/-- The error of the least row that has one. -/
def FailsFirst (e : Expression g) (fault : Error) : Prop :=
  ∃ i < 2 ^ e.variableNames.length, Yields e i (.error fault) ∧ ∀ j < i, ∃ v, Yields e j (.ok v)

/-- **The rows enumerate the assignments, or fail at the least one that does.** -/
theorem rowsOf_concludes (h : e.Sound ts) :
    Concludes (fun t : TruthTable => t.Enumerates e) (FailsFirst e)
      ((rowsOf e).map (⟨e.variableNames, ·⟩)) := by
  have hyields := yields_evaluate h
  refine ((mapM_range_concludes _ _).imp (fun rows hrows => hrows) ?_).map fun rows hrows => ?_
  · rintro fault ⟨i, hi, herror, hleast⟩
    rw [rowOf, map_eq_error_iff] at herror
    refine ⟨i, hi, herror ▸ hyields i, fun j hj => ?_⟩
    obtain ⟨row, hrow⟩ := hleast j hj
    obtain ⟨v, hv, -⟩ := map_eq_ok_iff.1 hrow
    exact ⟨v, hv ▸ hyields j⟩
  · refine ⟨rfl, hrows.1, fun i row hrow => ?_⟩
    obtain ⟨v, hv, rfl⟩ := map_eq_ok_iff.1 (hrows.2 i row hrow)
    exact ⟨rfl, hv ▸ hyields i⟩

/-- **A table enumerates the assignments, or fails at the least row that does**, if there is room for
its rows. -/
theorem ofExpression_concludes (h : e.Sound ts) :
    Concludes (fun t => t.Enumerates e ∧ e.variableNames.length ≤ 58)
      (fun fault => 58 < e.variableNames.length ∧ fault = .misuse .capacityOverflow ∨
        e.variableNames.length ≤ 58 ∧ FailsFirst e fault) (ofExpression e) := by
  rcases Nat.lt_or_ge 58 e.variableNames.length with hmany | hroom
  · rw [ofExpression_of_lt hmany]
    exact .error (.inl ⟨hmany, rfl⟩)
  · rw [ofExpression_of_le hroom]
    exact (rowsOf_concludes h).imp (fun t ht => ⟨ht, hroom⟩) fun fault hfault =>
      .inr ⟨hroom, hfault⟩

end Rows

/-! ## From a text to its table -/

section First

variable {g : Grammar Bool} {text : String} {limit count : Nat} {result : Except Error Bool}

/-- **A misuse is that there is no room for the rows**, and that there are not too many variables. -/
theorem ofText_eq_misuse_iff {fault : Misuse} :
    ofText g limit text = .error (.misuse fault) ↔
      fault = .capacityOverflow ∧ ∃ e, g.parse text = .ok e ∧ 58 < e.variableNames.length ∧
        e.variableNames.length ≤ limit ∧ e.variableNames.length ≤ 63 := by
  constructor
  · intro h
    have hno (bindings : Bindings Bool) := g.parseAndRun_ne_misuse text bindings fault
    cases hparse : g.parse text with
    | error fault' =>
      obtain rfl : fault' = .misuse fault := by
        rw [ofText, hparse] at h
        exact Except.error.inj h
      exact absurd (by rw [Grammar.parseAndRun, hparse, error_bind]) (hno ∅)
    | ok e =>
      obtain ⟨ts, -, hsound, -⟩ := Grammar.exists_sound_of_parse hparse
      by_cases hmany : limit < e.variableNames.length ∨ 63 < e.variableNames.length
      · rw [ofText_eq_error hparse hmany] at h
        cases h
      · rw [ofText_of_parse hparse (by omega) (by omega)] at h
        rcases (ofExpression_concludes hsound).of_eq_error h with ⟨hwide, hfault⟩ | ⟨-, hrow⟩
        · exact ⟨by injection hfault, e, rfl, hwide, by omega, by omega⟩
        · obtain ⟨i, -, ⟨⟨bindings, hbindings⟩, hvalue⟩, -⟩ := hrow
          refine absurd ?_ (hno bindings)
          rw [Grammar.parseAndRun, hparse, ok_bind, hvalue bindings hbindings]
  · rintro ⟨rfl, e, hparse, hwide, hlimit, hmost⟩
    exact ofText_of_lt hparse hlimit hmost hwide

/-- The number of variables, and what the first row comes to. -/
def countAndFirst (e : Expression g) : Nat × Except Error Bool :=
  (e.variableNames.length,
    e.evaluate (.ofList (e.variableNames.zip (assignment e.variableNames.length 0))))

/-- Whatever the first row comes to, there is no table without room for its rows. -/
theorem exists_yields_of_wide (h : (g.parse text).map countAndFirst = .ok (count, result))
    (hlimit : count ≤ limit) (hmost : count ≤ 63) (hmany : 58 < count) :
    ∃ e, g.parse text = .ok e ∧ e.variableNames.length = count ∧ Yields e 0 result ∧
      ofText g limit text = .error (.misuse .capacityOverflow) := by
  obtain ⟨e, hparse, he⟩ := map_eq_ok_iff.1 h
  obtain ⟨rfl, rfl⟩ := Prod.mk.inj he
  obtain ⟨ts, -, hsound, -⟩ := Grammar.exists_sound_of_parse hparse
  exact ⟨e, hparse, rfl, yields_evaluate hsound 0, ofText_of_lt hparse hlimit hmost hmany⟩

/-- Sixty variables with no connective are parsed, but have no value. -/
theorem parse_sixtyNames : (Logic.grammar.parse (" ".intercalate sixtyNames)).map countAndFirst =
    .ok (60, .error (.invalidSyntax .valuesLeftOver none)) := by
  decide +kernel

end First

/-- **A truth table enumerates every assignment once, in order.**  Its names ascend and are those of
the variables in the text, no more than the limit and 58; with `n` of them there are `2 ^ n` rows,
and row `i` consists of the `n` digits of `i`, the highest first, and of the value that the
expression has where each variable has its digit.  So each assignment stands in one row, and the
rows ascend.  The error of a text without a table is that of the parse; else that there are too many
variables, if there are more than the limit or 63; else that there is no room for the rows, if there
are more than 58; else that of the least row without a value. -/
theorem ofText_enumerates (g : Grammar Bool) (limit : Nat) (text : String) :
    Concludes
      (fun t => ∃ ts e, g.tokens text = .ok ts ∧ g.parse text = .ok e ∧ t.names = e.variableNames ∧
        t.names.Pairwise (· < ·) ∧
        (∀ name, name ∈ t.names ↔ ∃ u ∈ ts, u.content = .variable name) ∧
        t.names.length ≤ limit ∧ t.names.length ≤ 58 ∧ t.rows.length = 2 ^ t.names.length ∧
        (∀ (i : Nat) (row : Row), t.rows[i]? = some row →
          row.assignment.length = t.names.length ∧
          (∀ j < t.names.length, row.assignment[j]? = some (i.testBit (t.names.length - 1 - j))) ∧
          Yields e i (.ok row.value)) ∧
        (∀ bits : List Bool, bits.length = t.names.length →
          ∃! i : Nat, ∃ row, t.rows[i]? = some row ∧ row.assignment = bits) ∧
        t.rows.Pairwise fun r s =>
          number (r.assignment ++ [r.value]) < number (s.assignment ++ [s.value]))
      (fun fault => g.parse text = .error fault ∨
        ∃ e, g.parse text = .ok e ∧
          ((limit < e.variableNames.length ∨ 63 < e.variableNames.length) ∧
              fault = .calculationLimit (.tooManyVariables e.variableNames.length limit) ∨
            e.variableNames.length ≤ limit ∧ e.variableNames.length ≤ 63 ∧
              (58 < e.variableNames.length ∧ fault = .misuse .capacityOverflow ∨
                e.variableNames.length ≤ 58 ∧ FailsFirst e fault)))
      (ofText g limit text) := by
  cases hparse : g.parse text with
  | error fault =>
    rw [ofText, hparse]
    exact .error (.inl rfl)
  | ok e =>
    obtain ⟨ts, hts, hsound, -⟩ := Grammar.exists_sound_of_parse hparse
    by_cases hmany : limit < e.variableNames.length ∨ 63 < e.variableNames.length
    · rw [ofText_eq_error hparse hmany]
      exact .error (.inr ⟨e, rfl, .inl ⟨hmany, rfl⟩⟩)
    · obtain ⟨hlimit, hmost⟩ : e.variableNames.length ≤ limit ∧ e.variableNames.length ≤ 63 := by
        omega
      rw [ofText_of_parse hparse hlimit hmost]
      refine (ofExpression_concludes hsound).imp (fun t htable => ?_) fun fault hfault =>
        .inr ⟨e, rfl, .inr ⟨hlimit, hmost, hfault⟩⟩
      obtain ⟨ht, hroom⟩ := htable
      refine ⟨ts, e, hts, rfl, ht.names_eq, ?_, fun name => ?_, ?_, ?_, ht.length_rows, ?_,
        fun bits => ht.existsUnique, ht.ascending⟩
      · rw [ht.names_eq]
        exact e.variableNames_sorted
      · rw [ht.names_eq]
        exact hsound.mem_variableNames_iff
      · rwa [ht.names_eq]
      · rwa [ht.names_eq]
      · intro i row hrow
        obtain ⟨hassignment, hyields⟩ := ht.row i row hrow
        rw [hassignment]
        exact ⟨length_assignment _ _, fun j hj => getElem?_assignment hj, hyields⟩

/-- The four rows of an implication, whose names stand in the text the other way round. -/
theorem ofText_enumerates_implication :
    ofText Logic.grammar 7 "b>a" = .ok ⟨["a", "b"], [⟨[false, false], true⟩,
        ⟨[false, true], false⟩, ⟨[true, false], true⟩, ⟨[true, true], true⟩]⟩ ∧
      ∃ e, Logic.grammar.parse "b>a" = .ok e ∧ Yields e 1 (.ok false) := by
  have htable : ofText Logic.grammar 7 "b>a" = .ok ⟨["a", "b"], [⟨[false, false], true⟩,
      ⟨[false, true], false⟩, ⟨[true, false], true⟩, ⟨[true, true], true⟩]⟩ := by
    decide +kernel
  obtain ⟨ts, e, -, hparse, -, -, -, -, -, -, hrow, -⟩ :=
    (ofText_enumerates Logic.grammar 7 "b>a").of_eq_ok htable
  exact ⟨htable, e, hparse, (hrow 1 _ rfl).2.2⟩

/-- A conjunction of sixty variables has no table, though the limit is 63 and its first row a value. -/
theorem ofText_enumerates_wide :
    ∃ e, Logic.grammar.parse ("&".intercalate sixtyNames) = .ok e ∧ e.variableNames.length = 60 ∧
      Yields e 0 (.ok false) ∧
      ofText Logic.grammar 63 ("&".intercalate sixtyNames) = .error (.misuse .capacityOverflow) := by
  have hfirst : (Logic.grammar.parse ("&".intercalate sixtyNames)).map countAndFirst =
      .ok (60, .ok false) := by
    decide +kernel
  exact exists_yields_of_wide hfirst (by decide) (by decide) (by decide)

end TruthTable

end Reckon

import Mathlib.Data.List.Dedup
import Reckon.Calculator.TruthTable
import Reckon.Proofs.Result

/-!
# Proofs/Calculator/TruthTable — the rows of a truth table

The variables of a table are those of the expression, each once and in ascending order
(`Expression.variableNames_sorted`, `Expression.mem_variableNames`).  Row `i` gives each variable
its digit of `i` in base two (`TruthTable.valuation`), and **where the expression has a value under
every valuation, the table holds all of them** (`TruthTable.ofExpression_eq_ok`), if there is room for
them: there is up to 58 variables (`TruthTable.makeRoom_of_le`, `TruthTable.makeRoom_of_lt`).
-/

namespace Reckon

/-! ## The variables of an expression -/

theorem compare_eq_lt {a b : String} : compare a b = .lt ↔ a < b := compareOfLessAndEq_eq_lt

namespace Expression

variable {α : Type} {g : Grammar α} {e : Expression g} {names : List String}

/-- The names of the variables ascend in the order of their code points. -/
theorem variableNames_sorted (e : Expression g) : e.variableNames.Pairwise (· < ·) :=
  e.names.ordered_toList.imp compare_eq_lt.1

theorem variableNames_nodup (e : Expression g) : e.variableNames.Nodup :=
  e.variableNames_sorted.imp String.ne_of_lt

theorem mem_variableNames (h : e.names = .ofList names) {name : String} :
    name ∈ e.variableNames ↔ name ∈ names := by
  rw [variableNames, h, Std.TreeSet.mem_toList, Std.TreeSet.mem_ofList, List.contains_iff_mem]

/-- There are as many names as different ones were noted. -/
theorem length_variableNames (h : e.names = .ofList names) :
    e.variableNames.length = names.dedup.length := by
  refine List.Perm.length_eq ((List.perm_ext_iff_of_nodup e.variableNames_nodup
    names.nodup_dedup).2 fun name => ?_)
  rw [mem_variableNames h, List.mem_dedup]

end Expression

namespace TruthTable

/-! ## Room for the rows -/

section Room

variable {g : Grammar Bool} {e : Expression g} {limit count : Nat} {text : String}

/-- There is room for the rows of up to 58 variables. -/
theorem makeRoom_of_le (h : count ≤ 58) : makeRoom count = .ok () := by
  have hrows : 2 ^ count ≤ 2 ^ 58 := Nat.pow_le_pow_right (by decide) h
  exact if_neg (by rw [mostBytes, rowBytes]; omega)

/-- **There is none for the rows of more.** -/
theorem makeRoom_of_lt (h : 58 < count) : makeRoom count = .error (.misuse .capacityOverflow) := by
  have hrows : 2 ^ 59 ≤ 2 ^ count := Nat.pow_le_pow_right (by decide) h
  exact if_pos (by rw [mostBytes, rowBytes]; omega)

/-- Where there is room for the rows, the table is made of them. -/
theorem ofExpression_of_le (h : e.variableNames.length ≤ 58) :
    ofExpression e = (rowsOf e).map (⟨e.variableNames, ·⟩) := by
  rw [ofExpression, makeRoom_of_le h]
  cases rowsOf e <;> rfl

theorem ofExpression_of_lt (h : 58 < e.variableNames.length) :
    ofExpression e = .error (.misuse .capacityOverflow) := by
  rw [ofExpression, makeRoom_of_lt h, error_bind]

/-- A text with no more variables than the limits allow has the table of its expression. -/
theorem ofText_of_parse (h : g.parse text = .ok e) (hlimit : e.variableNames.length ≤ limit)
    (hmost : e.variableNames.length ≤ 63) : ofText g limit text = ofExpression e := by
  rw [ofText, h, ok_bind]
  exact if_neg (by rw [mostVariables]; omega)

/-- **A text with more variables than there is room for has none.** -/
theorem ofText_of_lt (h : g.parse text = .ok e) (hlimit : e.variableNames.length ≤ limit)
    (hmost : e.variableNames.length ≤ 63) (hmany : 58 < e.variableNames.length) :
    ofText g limit text = .error (.misuse .capacityOverflow) := by
  rw [ofText_of_parse h hlimit hmost, ofExpression_of_lt hmany]

theorem ofText_eq_error (h : g.parse text = .ok e)
    (hmany : limit < e.variableNames.length ∨ 63 < e.variableNames.length) :
    ofText g limit text =
      .error (.calculationLimit (.tooManyVariables e.variableNames.length limit)) := by
  rw [ofText, h, ok_bind]
  exact if_pos hmany

/-- Sixty names of a letter and a digit, `a0` to `f9`: more than there is room for. -/
def sixtyNames : List String :=
  "abcdef".toList.flatMap fun c => "0123456789".toList.map fun d => String.ofList [c, d]

end Room

/-! ## Valuations -/

/-- The value that row `i` gives a name: its digit of `i` in base two, the first name having the
highest. -/
def valuation (names : List String) (i : Nat) (name : String) : Bool :=
  i.testBit (names.length - 1 - names.idxOf name)

variable {g : Grammar Bool} {e : Expression g} {names : List String}

/-- The bindings of a row give each name its value in the row. -/
theorem getElem?_ofList_zip (hnames : names.Nodup) {name : String} (hname : name ∈ names)
    (i : Nat) :
    (Std.TreeMap.ofList (names.zip (assignment names.length i)))[name]? =
      some (valuation names i name) := by
  have hlt : names.idxOf name < names.length := List.idxOf_lt_length_of_mem hname
  refine Std.TreeMap.getElem?_ofList_of_mem (k := name) Std.ReflOrd.compare_self ?_ ?_
  · have hfst : (names.zip (assignment names.length i)).map Prod.fst = names :=
      List.map_fst_zip (by simp [assignment])
    rw [← hfst] at hnames
    exact (List.pairwise_map.1 hnames).imp fun hne heq => hne (Std.LawfulEqOrd.eq_of_compare heq)
  · rw [List.mem_iff_getElem]
    refine ⟨names.idxOf name, by simpa [assignment] using hlt, ?_⟩
    simp [assignment, valuation]

/-- The value of a variable under the bindings of a row is its value in the row. -/
theorem valueOf?_assignment (hnames : names.Nodup) {name : String} (hname : name ∈ names)
    (i : Nat) :
    g.valueOf? (.ofList (names.zip (assignment names.length i))) name =
      some (valuation names i name) := by
  rw [Grammar.valueOf?, getElem?_ofList_zip hnames hname]
  rfl

/-- **A table of an expression that always has a value** holds its value under each valuation. -/
theorem ofExpression_eq_ok {holds : (String → Bool) → Bool} (hroom : e.variableNames.length ≤ 58)
    (h : ∀ (bindings : Bindings Bool) (v : String → Bool),
      (∀ name ∈ e.variableNames, g.valueOf? bindings name = some (v name)) →
      e.evaluate bindings = .ok (holds v)) :
    ofExpression e = .ok ⟨e.variableNames, (List.range (2 ^ e.variableNames.length)).map fun i =>
      ⟨assignment e.variableNames.length i, holds (valuation e.variableNames i)⟩⟩ := by
  have hrow : ∀ i, rowOf e (assignment e.variableNames.length i) =
      .ok ⟨assignment e.variableNames.length i, holds (valuation e.variableNames i)⟩ := fun i => by
    rw [rowOf, h _ _ fun name hname => valueOf?_assignment e.variableNames_nodup hname i, map_ok]
  have hrows : rowsOf e = .ok ((List.range (2 ^ e.variableNames.length)).map fun i =>
      ⟨assignment e.variableNames.length i, holds (valuation e.variableNames i)⟩) := by
    simp only [rowsOf, hrow]
    exact List.mapM_pure
  rw [ofExpression_of_le hroom, hrows, map_ok]

end TruthTable

end Reckon

import Reckon.Expression.Run
import Reckon.Power

/-!
# Calculator/TruthTable — a formula under all assignments of its variables

The variables stand in ascending order, and row `i` assigns them **the digits of `i` in base two, the
first variable the highest** (`assignment`); so each assignment stands in one row, and the rows
ascend.  Room for all rows is made before the first one (`makeRoom`).
-/

namespace Reckon

/-- An assignment and the value under it. -/
structure TruthTable.Row where
  assignment : List Bool
  value : Bool
deriving DecidableEq, Repr

/-- The values of a formula under all assignments of its variables. -/
structure TruthTable where
  /-- The names of the variables. -/
  names : List String
  rows : List TruthTable.Row
deriving DecidableEq, Repr

namespace TruthTable

/-- The name of the column of values. -/
def valueColumn : String := "F"

/-- No table has more variables than this, whatever the limit. -/
def mostVariables : Nat := 63

/-- The lowest `n` binary digits of `i`, the highest of them first. -/
def assignment (n i : Nat) : List Bool := (List.range n).map fun j => i.testBit (n - 1 - j)

variable {g : Grammar Bool}

/-- The row of an assignment. -/
def rowOf (e : Expression g) (assignment : List Bool) : Except Error Row :=
  (e.evaluate (.ofList (e.variableNames.zip assignment))).map (⟨assignment, ·⟩)

/-- The bytes of a list that each row takes up. -/
def rowBytes : Nat := 24

/-- The most bytes that a list can have. -/
def mostBytes : Nat := 2 ^ 63 - 1

/-- Makes room for the rows of so many variables; it breaks the call off if no list can hold them. -/
def makeRoom (count : Nat) : Except Error Unit :=
  if mostBytes < rowBytes * 2 ^ count then .error (.misuse .capacityOverflow) else .ok ()

/-- The rows of an expression; the first one that has no value is the error. -/
def rowsOf (e : Expression g) : Except Error (List Row) :=
  let names := e.variableNames
  (List.range (2 ^ names.length)).mapM fun i => rowOf e (assignment names.length i)

/-- The table of an expression, for whose rows room is made at once. -/
def ofExpression (e : Expression g) : Except Error TruthTable := do
  makeRoom e.variableNames.length
  return ⟨e.variableNames, ← rowsOf e⟩

/-- The table of a text, if it has no more variables than the limit. -/
def ofText (g : Grammar Bool) (limit : Nat) (text : String) : Except Error TruthTable := do
  let e ← g.parse text
  let count := e.variableNames.length
  if limit < count ∨ mostVariables < count then
    throw (.calculationLimit (.tooManyVariables count limit))
  ofExpression e

/-- The column of values. -/
def values (t : TruthTable) : List Bool := t.rows.map (·.value)

/-- A truth value as a digit. -/
def digit (b : Bool) : String := if b then "1" else "0"

/-- The cells of a row as digits, the value last. -/
def Row.cells (r : Row) : List String := (r.assignment ++ [r.value]).map digit

/-- A line of cells. -/
def lineOf (cells : List String) : String := "  ".intercalate cells ++ "\n"

/-- The table as lines of cells under the names of its columns. -/
def text (t : TruthTable) : String :=
  String.join (lineOf (t.names ++ [valueColumn]) :: t.rows.map fun r => lineOf r.cells)

end TruthTable

end Reckon

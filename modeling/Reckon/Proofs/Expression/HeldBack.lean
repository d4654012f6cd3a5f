import Reckon.Expression.Postorder
import Reckon.Proofs.Expression.Tree
import Reckon.Proofs.Result

/-!
# Proofs/Expression/HeldBack — when a token that is held back is given out

What is on top of the stack stays there until a token comes that it yields to (`Held.YieldsTo`), and
then it is given out **before anything below it is looked at** (`postorderFrom_of_yieldsTo`).  So a
stretch of tokens can be read on any stack that keeps its operators (`Keeps`), and what lies below
does not matter.
-/

namespace Reckon

variable {α : Type}

/-- A token and its index. -/
abbrev Placed (α : Type) := Token α × Nat

/-- What a token stands for, whatever its index. -/
abbrev Placed.content (x : Placed α) : Token.Content α := x.1.content

/-! ## Giving out indices -/

/-- The indices of a tree in postorder. -/
def Tree.indices (tree : Tree (Placed α)) : List Nat := tree.postorder.map Prod.snd

/-- The indices of trees in postorder. -/
def Tree.indicesAll (trees : List (Tree (Placed α))) : List Nat :=
  (Tree.postorderAll trees).map Prod.snd

@[simp] theorem Tree.indices_node (t : Placed α) (trees : List (Tree (Placed α))) :
    (Tree.node t trees).indices = Tree.indicesAll trees ++ [t.2] := by
  simp [Tree.indices, Tree.indicesAll]

@[simp] theorem Tree.indicesAll_nil : Tree.indicesAll ([] : List (Tree (Placed α))) = [] := by
  simp [Tree.indicesAll]

@[simp] theorem Tree.indicesAll_cons (tree : Tree (Placed α)) (trees : List (Tree (Placed α))) :
    Tree.indicesAll (tree :: trees) = tree.indices ++ Tree.indicesAll trees := by
  simp [Tree.indices, Tree.indicesAll]

/-- The order in which `given` stands before the rest. -/
def emit (given : List Nat) (rest : Except Error (List Nat)) : Except Error (List Nat) :=
  rest.map (given ++ ·)

@[simp] theorem emit_nil (rest : Except Error (List Nat)) : emit [] rest = rest := by
  cases rest <;> rfl

@[simp] theorem emit_ok (given order : List Nat) : emit given (.ok order) = .ok (given ++ order) :=
  rfl

@[simp] theorem emit_emit (first second : List Nat) (rest : Except Error (List Nat)) :
    emit first (emit second rest) = emit (first ++ second) rest := by
  cases rest <;> simp [emit]

/-! ## What is held back on top -/

namespace Held

/-- What is held back on top is given out when the next token is read, or at the end. -/
def YieldsTo (h : Held α) : List (Placed α) → Prop
  | [] => h.isCall = true
  | (t, _) :: _ =>
    match t.content with
    | .operator op => h.goesBefore op = true
    | .separator _ | .closeBrace _ => h.isCall = true
    | .number _ | .variable _ | .function _ | .openBrace _ => False

@[simp] theorem closeGroup?_openBrace (start : Nat) (stack : List (Held α)) :
    closeGroup? (.openBrace start :: stack) = some ([], .openBrace start :: stack) := rfl

theorem closeGroup?_cons {h : Held α} (hh : h.isCall = true) (stack : List (Held α)) :
    closeGroup? (h :: stack) = (closeGroup? stack).map fun p => (h :: p.1, p.2) := by
  simp only [closeGroup?, List.dropWhile_cons_of_pos hh, List.takeWhile_cons_of_pos hh]
  cases stack.dropWhile isCall <;> rfl

theorem filterMap_index?_cons (h : Held α) (given : List (Held α)) :
    (h :: given).filterMap index? = h.index?.toList ++ given.filterMap index? := by
  rw [List.filterMap_cons]
  cases h.index? <;> rfl

end Held

/-- The list ends here, or a brace or separator ends the group. -/
def Closes (r : List (Placed α)) : Prop :=
  ∀ t ∈ r.head?, (∃ c, t.1.content = .closeBrace c) ∨ ∃ c, t.1.content = .separator c

@[simp] theorem closes_nil : Closes ([] : List (Placed α)) := by simp [Closes]

theorem closes_of_closeBrace {x : Placed α} {c : Char} (h : x.content = .closeBrace c)
    (r : List (Placed α)) : Closes (x :: r) := by
  simpa [Closes] using .inl ⟨c, h⟩

theorem closes_of_separator {x : Placed α} {c : Char} (h : x.content = .separator c)
    (r : List (Placed α)) : Closes (x :: r) := by
  simpa [Closes] using .inr ⟨c, h⟩

/-- At the end of a group all goes out but its brace. -/
theorem Held.yieldsTo_of_closes {h : Held α} (hh : h.isCall = true) {r : List (Placed α)}
    (hr : Closes r) : h.YieldsTo r := by
  match r with
  | [] => exact hh
  | (t, i) :: r =>
    rcases hr (t, i) rfl with ⟨c, hc⟩ | ⟨c, hc⟩
    · simpa [YieldsTo, show t.content = _ from hc] using hh
    · simpa [YieldsTo, show t.content = _ from hc] using hh

/-! ## Giving out -/

/-- **The top of the stack goes first**, when it yields to what comes next. -/
theorem postorderFrom_of_yieldsTo {h : Held α} {s : List (Placed α)} (hs : h.YieldsTo s)
    (stack : List (Held α)) :
    postorderFrom (h :: stack) s = emit h.index?.toList (postorderFrom stack s) := by
  match s with
  | [] =>
    cases h with
    | operator i op => rfl
    | function i => rfl
    | openBrace start => cases hs
  | (t, i) :: s =>
    simp only [postorderFrom]
    match hc : t.content with
    | .operator op =>
      have hop : h.goesBefore op = true := by simpa [Held.YieldsTo, hc] using hs
      simp only [List.takeWhile_cons_of_pos hop, List.dropWhile_cons_of_pos hop,
        Held.filterMap_index?_cons, emit, map_map, List.append_assoc]
    | .separator c =>
      have hcall : h.isCall = true := by simpa [Held.YieldsTo, hc] using hs
      simp only [Held.closeGroup?_cons hcall]
      cases Held.closeGroup? stack with
      | none => rfl
      | some p => simp only [Option.map_some, Held.filterMap_index?_cons, emit, map_map,
          List.append_assoc]
    | .closeBrace c =>
      have hcall : h.isCall = true := by simpa [Held.YieldsTo, hc] using hs
      simp only [Held.closeGroup?_cons hcall]
      cases Held.closeGroup? stack with
      | none => rfl
      | some p => simp only [Option.map_some, Held.filterMap_index?_cons, emit, map_map,
          List.append_assoc]
    | .number _ => simp [Held.YieldsTo, hc] at hs
    | .variable _ => simp [Held.YieldsTo, hc] at hs
    | .function _ => simp [Held.YieldsTo, hc] at hs
    | .openBrace _ => simp [Held.YieldsTo, hc] at hs

/-! ## Holding back -/

/-- The operator is held back on top of the stack and nothing is given out before it. -/
def Keeps (stack : List (Held α)) (op : Operator α) : Prop :=
  ∀ h ∈ stack.head?, h.goesBefore op = false

@[simp] theorem keeps_nil (op : Operator α) : Keeps [] op := by simp [Keeps]

@[simp] theorem keeps_openBrace (start : Nat) (stack : List (Held α)) (op : Operator α) :
    Keeps (.openBrace start :: stack) op := by
  simp [Keeps, Held.goesBefore]

@[simp] theorem keeps_operator_iff {i : Nat} {held op : Operator α} {stack : List (Held α)} :
    Keeps (.operator i held :: stack) op ↔ held.goesBefore op = false := by
  simp [Keeps, Held.goesBefore]

variable {t : Token α} {i start : Nat} {stack : List (Held α)} {s : List (Placed α)}

theorem postorderFrom_number {v : α} (h : t.content = .number v) :
    postorderFrom stack ((t, i) :: s) = emit [i] (postorderFrom stack s) := by
  simp only [postorderFrom, h]
  rfl

theorem postorderFrom_variable {name : String} (h : t.content = .variable name) :
    postorderFrom stack ((t, i) :: s) = emit [i] (postorderFrom stack s) := by
  simp only [postorderFrom, h]
  rfl

theorem postorderFrom_operator {op : Operator α} (h : t.content = .operator op)
    (hkeeps : Keeps stack op) :
    postorderFrom stack ((t, i) :: s) = postorderFrom (.operator i op :: stack) s := by
  simp only [postorderFrom, h]
  cases stack with
  | nil => exact emit_nil _
  | cons held stack =>
    have hheld : ¬ held.goesBefore op = true := by simpa using hkeeps held (by simp)
    rw [List.takeWhile_cons_of_neg hheld, List.dropWhile_cons_of_neg hheld]
    exact emit_nil _

theorem postorderFrom_function {f : NamedFunction α} (h : t.content = .function f) :
    postorderFrom stack ((t, i) :: s) = postorderFrom (.function i :: stack) s := by
  simp only [postorderFrom, h]

theorem postorderFrom_openBrace {c : Char} (h : t.content = .openBrace c) :
    postorderFrom stack ((t, i) :: s) = postorderFrom (.openBrace t.span.start :: stack) s := by
  simp only [postorderFrom, h]

/-- A brace that closes a group with nothing held back takes its open brace away. -/
theorem postorderFrom_closeBrace {c : Char} (h : t.content = .closeBrace c) :
    postorderFrom (.openBrace start :: stack) ((t, i) :: s) = postorderFrom stack s := by
  simp only [postorderFrom, h, Held.closeGroup?_openBrace, List.tail_cons]
  exact emit_nil _

/-- A separator in a group with nothing held back leaves the stack as it is. -/
theorem postorderFrom_separator {c : Char} (h : t.content = .separator c) :
    postorderFrom (.openBrace start :: stack) ((t, i) :: s) =
      postorderFrom (.openBrace start :: stack) s := by
  simp only [postorderFrom, h, Held.closeGroup?_openBrace]
  exact emit_nil _

end Reckon

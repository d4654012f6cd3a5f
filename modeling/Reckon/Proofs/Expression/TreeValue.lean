import Mathlib.Data.List.Induction
import Reckon.Expression.Value
import Reckon.Proofs.Expression.Tree
import Reckon.Proofs.Result

/-!
# Proofs/Expression/TreeValue — the value on the stack is the value of the tree

A list of tokens with operators behind their operands stands for a tree in which every node has as
many children as its token takes operands (`Tree.Fits`).  **Running the postorder of such a tree
puts the value of the tree on the stack, or fails as the tree does** (`runOn_postorder`).  Every
list that runs from the empty stack is the postorder of trees (`exists_trees_of_runOn`), and of no
others (`Tree.postorderAll_injective`).
-/

namespace Reckon

variable {α : Type}

/-! ## Trees of operations -/

/-- How many operands a token takes; a brace or separator stands in no tree. -/
def Token.arity? (t : Token α) : Option Nat :=
  match t.content with
  | .number _ | .variable _ => some 0
  | .operator op => some op.operation.arity
  | .function f => some f.operation.arity
  | .openBrace _ | .closeBrace _ | .separator _ => none

/-- Every node has as many children as its token takes operands. -/
inductive Tree.Fits : Tree (Token α) → Prop
  | node {t : Token α} {ts : List (Tree (Token α))} (arity : t.arity? = some ts.length)
      (children : ∀ c ∈ ts, Fits c) : Fits (.node t ts)

/-! ## The value of a tree -/

/-- The outcome of an operation on its operands: refused by the limiter, or what the native function
says. -/
def Operation.outcome (o : Operation α) (name : String) (operands : List α) : Except Error α :=
  if o.limiter.permits operands = false then .error (.calculationLimit (.operandsRefused name))
  else if h : operands.length = o.native.arity then
    match o.native.body operands h with
    | .ok value => .ok value
    | .error fault => .error (.domain fault)
  else .error (.invalidArguments name o.native.arity operands.length)

/-- The value of a node whose children have the given values. -/
def Token.outcome (g : Grammar α) (bindings : Bindings α) (t : Token α) (operands : List α) :
    Except Error α :=
  match t.content with
  | .number value => .ok value
  | .variable name =>
    match bindings[name]? with
    | some value => .ok value
    | none =>
      match g.defaults[name]? with
      | some value => .ok value
      | none => .error (.invalidName name (some t.span.start))
  | .operator op => op.operation.outcome op.text operands
  | .function f => f.operation.outcome f.name operands
  | .openBrace c | .closeBrace c | .separator c =>
    .error (.invalidSyntax (.unexpectedInPostfix c) (some t.span.start))

namespace Tree

variable (g : Grammar α) (bindings : Bindings α)

mutual

/-- The value of a tree: that of its node, after those of the children from left to right. -/
def value : Tree (Token α) → Except Error α
  | node t ts => do
    let operands ← values ts
    t.outcome g bindings operands

/-- The values of trees from left to right, up to the first that has none. -/
def values : List (Tree (Token α)) → Except Error (List α)
  | [] => .ok []
  | t :: ts => do
    let v ← value t
    let vs ← values ts
    return v :: vs

end

variable {g bindings}

theorem value_node (t : Token α) (ts : List (Tree (Token α))) :
    (node t ts).value g bindings = values g bindings ts >>= t.outcome g bindings := by rw [value]

@[simp] theorem values_nil : values g bindings [] = .ok [] := by rw [values]

theorem values_cons (t : Tree (Token α)) (ts : List (Tree (Token α))) :
    values g bindings (t :: ts) = (do
      let v ← t.value g bindings
      let vs ← values g bindings ts
      return v :: vs) := by rw [values]

theorem values_append (ts us : List (Tree (Token α))) :
    values g bindings (ts ++ us) = (do
      let vs ← values g bindings ts
      let ws ← values g bindings us
      return vs ++ ws) := by
  induction ts with
  | nil => simp [bind, Except.bind, pure, Except.pure]; cases values g bindings us <;> rfl
  | cons t ts ih =>
    rw [List.cons_append, values_cons, ih, values_cons]
    simp only [bind_assoc, pure_bind, List.cons_append]

theorem values_singleton (t : Tree (Token α)) :
    values g bindings [t] = (t.value g bindings).map ([·]) := by
  rw [values_cons, values_nil]
  cases t.value g bindings <;> rfl

/-- Trees have as many values as there are trees. -/
theorem length_of_values_eq_ok {ts : List (Tree (Token α))} {vs : List α}
    (h : values g bindings ts = .ok vs) : vs.length = ts.length := by
  induction ts generalizing vs with
  | nil => simp_all
  | cons t ts ih =>
    rw [values_cons] at h
    obtain ⟨v, -, h⟩ := bind_eq_ok_iff.1 h
    obtain ⟨ws, hws, h⟩ := bind_eq_ok_iff.1 h
    obtain rfl : v :: ws = vs := Except.ok.inj h
    rw [List.length_cons, List.length_cons, ih hws]

end Tree

/-! ## A node on the stack -/

/-- On as many operands as its arity, an operation is performed as its outcome says. -/
theorem Operation.perform_eq_outcome (o : Operation α) (name : String) {operands : List α}
    (h : operands.length = o.arity) : o.perform name operands = o.outcome name operands := by
  have hpermits : o.permits operands = o.limiter.permits operands := rfl
  have harity : operands.length = o.native.arity := h
  rw [perform, outcome, o.call_of_length_eq h, hpermits, dif_pos harity]
  cases o.limiter.permits operands
  · rfl
  · cases o.native.body operands h <;> rfl

/-- An operation takes its operands off the stack, the last one first. -/
theorem Operation.performOn_append (o : Operation α) (name : String) {operands : List α}
    (h : operands.length = o.arity) (stack : List α) :
    o.performOn name (operands.reverse ++ stack) =
      (o.outcome name operands).map (· :: stack) := by
  have hlen : operands.reverse.length = o.arity := by rw [List.length_reverse, h]
  rw [performOn, if_neg (by simp [h]), List.take_left' hlen, List.drop_left' hlen,
    List.reverse_reverse, o.perform_eq_outcome name h]

/-- An operation that finds its operands on the stack leaves their outcome there. -/
theorem Operation.performOn_eq_ok {o : Operation α} {name : String} {stack after : List α}
    (h : o.performOn name stack = .ok after) :
    o.arity ≤ stack.length ∧ ∃ v, o.outcome name (stack.take o.arity).reverse = .ok v ∧
      after = v :: stack.drop o.arity := by
  rw [performOn] at h
  split at h
  · cases h
  · next hlen =>
    have hlen : o.arity ≤ stack.length := Nat.le_of_not_lt hlen
    rw [o.perform_eq_outcome name (by simp [hlen])] at h
    obtain ⟨v, hv, rfl⟩ := map_eq_ok_iff.1 h
    exact ⟨hlen, v, hv, rfl⟩

variable {g : Grammar α} {bindings : Bindings α}

/-- A variable has the value it is given, or else the one by default. -/
theorem Token.outcome_variable {t : Token α} {name : String} (h : t.content = .variable name)
    (operands : List α) :
    t.outcome g bindings operands =
      match g.valueOf? bindings name with
      | some value => .ok value
      | none => .error (.invalidName name (some t.span.start)) := by
  simp only [outcome, h, Grammar.valueOf?]
  cases bindings[name]? <;> rfl

/-- **A token that finds the values of its children on the stack leaves its own value there.** -/
theorem Token.runOn_append {t : Token α} {operands : List α} (h : t.arity? = some operands.length)
    (stack : List α) :
    t.runOn (g.valueOf? bindings) (operands.reverse ++ stack) =
      (t.outcome g bindings operands).map (· :: stack) := by
  match hc : t.content with
  | .number value =>
    obtain rfl : operands = [] := by simpa [arity?, hc, eq_comm] using h
    simp [runOn, outcome, hc]
  | .variable name =>
    obtain rfl : operands = [] := by simpa [arity?, hc, eq_comm] using h
    rw [outcome_variable hc]
    cases hv : g.valueOf? bindings name <;> simp [runOn, hc, hv]
  | .operator op =>
    have ho : operands.length = op.operation.arity := by simpa [arity?, hc, eq_comm] using h
    simp only [runOn, outcome, hc, op.operation.performOn_append op.text ho]
  | .function f =>
    have ho : operands.length = f.operation.arity := by simpa [arity?, hc, eq_comm] using h
    simp only [runOn, outcome, hc, f.operation.performOn_append f.name ho]
  | .openBrace c => simp [arity?, hc] at h
  | .closeBrace c => simp [arity?, hc] at h
  | .separator c => simp [arity?, hc] at h

/-- **A token that runs on a stack finds as many values there as it takes operands.** -/
theorem Token.runOn_eq_ok {t : Token α} {stack after : List α}
    (h : t.runOn (g.valueOf? bindings) stack = .ok after) :
    ∃ n v, t.arity? = some n ∧ n ≤ stack.length ∧
      t.outcome g bindings (stack.take n).reverse = .ok v ∧ after = v :: stack.drop n := by
  match hc : t.content with
  | .number value =>
    refine ⟨0, value, by simp [arity?, hc], by simp, by simp [outcome, hc], ?_⟩
    simpa [runOn, hc, eq_comm] using h
  | .variable name =>
    simp only [runOn, hc] at h
    cases hv : g.valueOf? bindings name with
    | none => simp [hv] at h
    | some value =>
      refine ⟨0, value, by simp [arity?, hc], by simp, by simp [outcome_variable hc, hv], ?_⟩
      simpa [hv, eq_comm] using h
  | .operator op =>
    simp only [runOn, hc] at h
    obtain ⟨hlen, v, hv, rfl⟩ := Operation.performOn_eq_ok h
    exact ⟨_, v, by simp [arity?, hc], hlen, by simpa [outcome, hc] using hv, rfl⟩
  | .function f =>
    simp only [runOn, hc] at h
    obtain ⟨hlen, v, hv, rfl⟩ := Operation.performOn_eq_ok h
    exact ⟨_, v, by simp [arity?, hc], hlen, by simpa [outcome, hc] using hv, rfl⟩
  | .openBrace c => simp [runOn, hc] at h
  | .closeBrace c => simp [runOn, hc] at h
  | .separator c => simp [runOn, hc] at h

/-! ## Runs of postorders -/

@[simp] theorem runOn_nil (value? : String → Option α) (stack : List α) :
    runOn value? stack [] = .ok stack := rfl

theorem runOn_append (value? : String → Option α) (stack : List α) (ts us : List (Token α)) :
    runOn value? stack (ts ++ us) = runOn value? stack ts >>= (runOn value? · us) :=
  List.foldlM_append

theorem runOn_singleton (value? : String → Option α) (stack : List α) (t : Token α) :
    runOn value? stack [t] = t.runOn value? stack := by
  rw [runOn, List.foldlM_cons]
  cases t.runOn value? stack <;> rfl

/-- Trees one after the other put their values on the stack, if each of them does so alone. -/
theorem runOn_postorderAll {ts : List (Tree (Token α))}
    (h : ∀ t ∈ ts, ∀ stack, runOn (g.valueOf? bindings) stack t.postorder =
      (t.value g bindings).map (· :: stack)) (stack : List α) :
    runOn (g.valueOf? bindings) stack (Tree.postorderAll ts) =
      (Tree.values g bindings ts).map (·.reverse ++ stack) := by
  induction ts generalizing stack with
  | nil => simp
  | cons t ts ih =>
    rw [Tree.postorderAll_cons, runOn_append, h t (by simp), Tree.values_cons]
    cases t.value g bindings with
    | error e => rfl
    | ok v =>
      rw [map_ok, ok_bind, ok_bind, ih fun u hu => h u (by simp [hu])]
      cases Tree.values g bindings ts with
      | error e => rfl
      | ok vs => simp [pure, Except.pure]

/-- **The postorder of a tree puts its value on the stack, or fails as the tree does.** -/
theorem runOn_postorder {t : Tree (Token α)} (h : t.Fits) (stack : List α) :
    runOn (g.valueOf? bindings) stack t.postorder = (t.value g bindings).map (· :: stack) := by
  induction h generalizing stack with
  | @node t ts harity _ ih =>
    rw [Tree.postorder_node, runOn_append, runOn_postorderAll fun c hc stack => ih c hc stack,
      Tree.value_node]
    cases hvs : Tree.values g bindings ts with
    | error e => rfl
    | ok vs =>
      rw [map_ok, ok_bind, ok_bind, runOn_singleton, Token.runOn_append]
      rw [harity, Tree.length_of_values_eq_ok hvs]

/-- Values from two lists of trees are those of the first list and those of the second. -/
theorem Tree.values_append_eq_ok {ts us : List (Tree (Token α))} {vs ws : List α}
    (h : values g bindings (ts ++ us) = .ok (vs ++ ws)) (hlen : us.length = ws.length) :
    values g bindings ts = .ok vs ∧ values g bindings us = .ok ws := by
  rw [values_append] at h
  obtain ⟨vs', hvs, h⟩ := bind_eq_ok_iff.1 h
  obtain ⟨ws', hws, h⟩ := bind_eq_ok_iff.1 h
  obtain ⟨rfl, rfl⟩ := List.append_inj' (Except.ok.inj h)
    (by rw [length_of_values_eq_ok hws, hlen])
  exact ⟨hvs, hws⟩

/-- **What runs from the empty stack is the postorder of trees**, whose values it leaves there. -/
theorem exists_trees_of_runOn {ts : List (Token α)} {stack : List α}
    (h : runOn (g.valueOf? bindings) [] ts = .ok stack) :
    ∃ trees : List (Tree (Token α)), (∀ t ∈ trees, t.Fits) ∧ Tree.postorderAll trees = ts ∧
      Tree.values g bindings trees = .ok stack.reverse := by
  induction ts using List.reverseRecOn generalizing stack with
  | nil => exact ⟨[], by simp_all⟩
  | append_singleton ts t ih =>
    rw [runOn_append] at h
    obtain ⟨below, hbelow, h⟩ := bind_eq_ok_iff.1 h
    rw [runOn_singleton] at h
    obtain ⟨n, v, harity, hn, hv, rfl⟩ := Token.runOn_eq_ok h
    obtain ⟨trees, hfits, hpost, hvalues⟩ := ih hbelow
    -- the last `n` trees become the children of the new node
    have hlen : trees.length = below.length := by
      rw [← Tree.length_of_values_eq_ok hvalues, List.length_reverse]
    generalize hk : trees.length - n = k
    have hsplit : below.reverse = (below.drop n).reverse ++ (below.take n).reverse := by
      rw [← List.reverse_append, List.take_append_drop]
    have hchildren : (trees.drop k).length = n := by simp; omega
    rw [← List.take_append_drop k trees, hsplit] at hvalues
    obtain ⟨hkept, hgiven⟩ := Tree.values_append_eq_ok hvalues (by simp [hchildren, hn])
    refine ⟨trees.take k ++ [.node t (trees.drop k)], ?_, ?_, ?_⟩
    · intro u hu
      rcases List.mem_append.1 hu with hu | hu
      · exact hfits u (List.mem_of_mem_take hu)
      · rw [List.mem_singleton.1 hu]
        exact .node (by rw [harity, hchildren]) fun c hc => hfits c (List.mem_of_mem_drop hc)
    · rw [Tree.postorderAll_append, Tree.postorderAll_cons, Tree.postorder_node,
        Tree.postorderAll_nil, List.append_nil, ← List.append_assoc, ← Tree.postorderAll_append,
        List.take_append_drop, hpost]
    · rw [Tree.values_append, hkept, ok_bind, Tree.values_singleton, Tree.value_node, hgiven,
        ok_bind, hv]
      simp [pure, Except.pure]

/-- **Trees of operations are determined by their postorder**; read from the last token. -/
theorem Tree.postorderAll_injective {ts us : List (Tree (Token α))} (hts : ∀ t ∈ ts, t.Fits)
    (hus : ∀ u ∈ us, u.Fits) (h : postorderAll ts = postorderAll us) : ts = us := by
  generalize hn : (postorderAll ts).length = n
  induction n using Nat.strongRecOn generalizing ts us with
  | ind n ih =>
    rcases List.eq_nil_or_concat ts with rfl | ⟨ts, ⟨t, cs⟩, rfl⟩
    · cases us with
      | nil => rfl
      | cons u us =>
        rw [postorderAll_nil, postorderAll_cons] at h
        exact absurd (List.append_eq_nil_iff.1 h.symm).1 u.postorder_ne_nil
    rcases List.eq_nil_or_concat us with rfl | ⟨us, ⟨u, ds⟩, rfl⟩
    · simp at h
    have hlast : ∀ (ts : List (Tree (Token α))) (t : Token α) (cs : List (Tree (Token α))),
        postorderAll (ts.concat (.node t cs)) = postorderAll (ts ++ cs) ++ [t] := by simp
    rw [hlast, hlast] at h
    rw [hlast, List.length_append, List.length_singleton] at hn
    obtain ⟨hbefore, htu⟩ := List.append_inj' h rfl
    obtain rfl : t = u := by simpa using htu
    obtain ⟨harity, hcs⟩ := hts (.node t cs) (by simp)
    obtain ⟨harity', hds⟩ := hus (.node t ds) (by simp)
    have hlen : cs.length = ds.length := Option.some.inj (harity.symm.trans harity')
    have hall : ts ++ cs = us ++ ds := by
      refine ih _ (by omega) ?_ ?_ hbefore rfl
      · intro t' ht'
        rcases List.mem_append.1 ht' with ht' | ht'
        · exact hts t' (by simp [ht'])
        · exact hcs t' ht'
      · intro u' hu'
        rcases List.mem_append.1 hu' with hu' | hu'
        · exact hus u' (by simp [hu'])
        · exact hds u' hu'
    obtain ⟨rfl, rfl⟩ := List.append_inj' hall hlen
    rfl

/-! ## The value of an expression -/

namespace Expression

/-- The postorder of a tree has the value of the tree. -/
theorem evaluate_of_fits {e : Expression g} (hphase : e.phase = .operandsFirst)
    {tree : Tree (Token α)} (hfits : tree.Fits) (htokens : e.tokens = tree.postorder) :
    e.evaluate bindings = tree.value g bindings := by
  rw [evaluate, hphase, htokens]
  change runOn _ _ _ >>= onlyValue = _
  rw [runOn_postorder hfits, map_bind]
  cases tree.value g bindings <;> rfl

/-- An expression with a value is the postorder of a tree with that value. -/
theorem exists_tree_of_evaluate {e : Expression g} {v : α} (h : e.evaluate bindings = .ok v) :
    ∃ tree : Tree (Token α), tree.Fits ∧ tree.postorder = e.tokens ∧
      tree.value g bindings = .ok v := by
  rw [evaluate] at h
  split at h
  · cases h
  · obtain ⟨stack, hrun, hv⟩ := bind_eq_ok_iff.1 h
    obtain rfl : stack = [v] := by
      match stack, hv with
      | [w], hv => exact congrArg ([·]) (Except.ok.inj hv)
    obtain ⟨trees, hfits, hpost, hvalues⟩ := exists_trees_of_runOn hrun
    obtain ⟨tree, rfl⟩ : ∃ tree, trees = [tree] :=
      List.length_eq_one_iff.1 (Tree.length_of_values_eq_ok hvalues).symm
    rw [Tree.values_singleton, map_eq_ok_iff] at hvalues
    obtain ⟨w, hw, hwv⟩ := hvalues
    obtain rfl : w = v := by simpa using hwv
    exact ⟨tree, hfits tree (by simp), by simpa using hpost, hw⟩

/-- **The stack machine is recursive evaluation.**  An expression has a value iff its tokens are the
postorder of a tree of operations with that value, and then of one tree alone; and the postorder of
any tree has the result of the tree, a fault included, on top of any stack. -/
theorem evaluate_eq_ok_iff_tree (e : Expression g) (hphase : e.phase = .operandsFirst)
    (bindings : Bindings α) :
    (∀ v, e.evaluate bindings = .ok v ↔
      ∃ tree : Tree (Token α), (tree.Fits ∧ tree.postorder = e.tokens ∧
        tree.value g bindings = .ok v) ∧
        ∀ other : Tree (Token α), other.Fits → other.postorder = e.tokens → other = tree) ∧
    ∀ tree : Tree (Token α), tree.Fits →
      (e.tokens = tree.postorder → e.evaluate bindings = tree.value g bindings) ∧
      ∀ stack, runOn (g.valueOf? bindings) stack tree.postorder =
        (tree.value g bindings).map (· :: stack) := by
  refine ⟨fun v => ⟨fun h => ?_, ?_⟩, fun tree hfits =>
    ⟨evaluate_of_fits hphase hfits, runOn_postorder hfits⟩⟩
  · obtain ⟨tree, hfits, hpost, hv⟩ := exists_tree_of_evaluate h
    refine ⟨tree, ⟨hfits, hpost, hv⟩, fun other hother hopost => ?_⟩
    have hall : [other] = [tree] := Tree.postorderAll_injective (by simpa using hother)
      (by simpa using hfits) (by simp [hopost, hpost])
    simpa using hall
  · rintro ⟨tree, ⟨hfits, hpost, hv⟩, -⟩
    rw [evaluate_of_fits hphase hfits hpost.symm, hv]

/-- The expression `3 4 -` over the integers. -/
private def difference :
    Expression (Grammar.blank fun _ => .error ⟨"no numerals"⟩ : Grammar Int) where
  tokens := [⟨.number 3, .single 0⟩, ⟨.number 4, .single 2⟩,
    ⟨.operator (.infixOf '-' .left 1 (fun a b => .ok (a - b)) .unbounded), .single 1⟩]
  phase := .operandsFirst
  names := ∅

theorem evaluate_eq_ok_iff_tree_difference :
    difference.phase = .operandsFirst ∧ difference.evaluate ∅ = .ok (-1) ∧
      ∃ tree : Tree (Token Int), tree.Fits ∧ tree.postorder = difference.tokens := by
  obtain ⟨htree, -⟩ := evaluate_eq_ok_iff_tree difference rfl ∅
  have hvalue : difference.evaluate ∅ = .ok (-1) := rfl
  obtain ⟨tree, ⟨hfits, hpost, -⟩, -⟩ := (htree (-1)).1 hvalue
  exact ⟨rfl, hvalue, tree, hfits, hpost⟩

end Expression

end Reckon

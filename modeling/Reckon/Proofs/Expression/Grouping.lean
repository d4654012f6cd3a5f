import Reckon.Proofs.Expression.Balance
import Reckon.Proofs.Expression.Reading

/-!
# Proofs/Expression/Grouping — when the grouping of an operator before its operand tells

Such an operator has nothing on its left to group with, and what is held back is not asked for its
own grouping (`postorderFrom_congr`).  All the same the grouping tells **iff the operator meets one
of its own precedence**, right below the functions on top of the stack (`MeetsAlike`): grouped to
the left it lets that operator go first, which has an operand still to come.
-/

namespace Reckon

variable {α : Type}

/-! ## Another grouping -/

/-- The operator with another grouping, if it stands before its operand. -/
def Operator.regroup (a : Associativity) (op : Operator α) : Operator α :=
  if op.isPrefixOp = true then { op with associativity := a } else op

/-- The content with another grouping, if it is an operator before its operand. -/
def Token.Content.regroup (a : Associativity) : Token.Content α → Token.Content α
  | operator op => operator (op.regroup a)
  | number v => number v
  | .variable name => .variable name
  | function f => function f
  | openBrace c => openBrace c
  | closeBrace c => closeBrace c
  | separator c => separator c

/-- The token with another grouping, if it is an operator before its operand. -/
def Token.regroup (a : Associativity) (t : Token α) : Token α :=
  { t with content := t.content.regroup a }

/-- The token with another grouping, at its place. -/
def Placed.regroup (a : Associativity) (x : Placed α) : Placed α := (x.1.regroup a, x.2)

section Regroup

variable (a : Associativity)

variable {op : Operator α}

theorem Operator.regroup_of_isPrefixOp (h : op.isPrefixOp = true) :
    op.regroup a = { op with associativity := a } := if_pos h

theorem Operator.regroup_of_not_isPrefixOp (h : op.isPrefixOp = false) : op.regroup a = op :=
  if_neg (by simp [h])

theorem Operator.isPrefixOp_regroup (h : op.isPrefixOp = true) :
    (op.regroup a).isPrefixOp = true := by
  rw [regroup_of_isPrefixOp a h]
  exact h

theorem Token.content_regroup {t : Token α} (h : t.content = .operator op) :
    (t.regroup a).content = .operator (op.regroup a) := by
  simp only [regroup, h, Token.Content.regroup]

theorem Token.needsGroup_regroup (t : Token α) :
    (t.regroup a).content.needsGroup = t.content.needsGroup := by
  rw [regroup]
  cases t.content <;> rfl

theorem Token.lone?_regroup (t : Token α) : (t.regroup a).lone? = t.lone? := by
  rw [lone?, lone?, regroup]
  cases t.content <;> rfl

theorem zipIdx_map_regroup (ts : List (Token α)) :
    (ts.map (Token.regroup a)).zipIdx = ts.zipIdx.map (Placed.regroup a) := by
  rw [List.zipIdx_map]
  rfl

theorem Held.starts_after_regroup (stack : List (Held α)) (x : Placed α) :
    starts (after stack (x.regroup a)) = starts (after stack x) := by
  rw [starts_after, starts_after, Placed.regroup, Token.regroup]
  cases x.1.content <;> rfl

end Regroup

/-! ## What is held back -/

namespace Held

/-- What is held back, with another grouping if it is an operator. -/
def regroup (a : Associativity) : Held α → Held α
  | operator i op => operator i { op with associativity := a }
  | function i => function i
  | openBrace start => openBrace start

/-- Whether it is a function. -/
def isFunction : Held α → Bool
  | function _ => true
  | operator .. | openBrace _ => false

variable (a : Associativity) {stack stack' : List (Held α)}

theorem goesBefore_comp_regroup (op : Operator α) :
    goesBefore op ∘ regroup a = (goesBefore op : Held α → Bool) :=
  funext fun h => by cases h <;> rfl

theorem isCall_comp_regroup : isCall ∘ regroup a = (isCall : Held α → Bool) :=
  funext fun h => by cases h <;> rfl

theorem index?_comp_regroup : index? ∘ regroup a = (index? : Held α → Option Nat) :=
  funext fun h => by cases h <;> rfl

theorem start?_comp_regroup : start? ∘ regroup a = (start? : Held α → Option Nat) :=
  funext fun h => by cases h <;> rfl

theorem regroup_comp_regroup : regroup a ∘ regroup a = (regroup a : Held α → Held α) :=
  funext fun h => by cases h <;> rfl

theorem starts_map_regroup (stack : List (Held α)) :
    starts (stack.map (regroup a)) = starts stack := by
  rw [starts, List.filterMap_map, start?_comp_regroup, starts]

theorem indices_map_regroup (stack : List (Held α)) :
    (stack.map (regroup a)).filterMap index? = stack.filterMap index? := by
  rw [List.filterMap_map, index?_comp_regroup]

theorem givenAt_map_regroup (stack : List (Held α)) (x : Placed α) :
    givenAt (stack.map (regroup a)) x = givenAt stack x := by
  unfold givenAt
  match x.1.content with
  | .number _ | .variable _ | .function _ | .openBrace _ => rfl
  | .operator op =>
    simp only [List.takeWhile_map, goesBefore_comp_regroup, indices_map_regroup]
  | .closeBrace _ | .separator _ =>
    simp only [List.takeWhile_map, isCall_comp_regroup, indices_map_regroup]

theorem after_map_regroup (stack : List (Held α)) (x : Placed α) :
    (after (stack.map (regroup a)) x).map (regroup a) = (after stack x).map (regroup a) := by
  unfold after
  match x.1.content with
  | .number _ | .variable _ => simp only [List.map_map, regroup_comp_regroup]
  | .function _ | .openBrace _ => simp only [List.map_cons, List.map_map, regroup_comp_regroup]
  | .operator op =>
    simp only [List.map_cons, List.dropWhile_map, goesBefore_comp_regroup, List.map_map,
      regroup_comp_regroup]
  | .closeBrace _ =>
    simp only [List.dropWhile_map, isCall_comp_regroup, ← List.map_tail, List.map_map,
      regroup_comp_regroup]
  | .separator _ =>
    simp only [List.dropWhile_map, isCall_comp_regroup, List.map_map, regroup_comp_regroup]

end Held

open Held

section TwoStacks

variable {stack stack' : List (Held α)}

/-- Two tokens without a partner end the reading alike, and two others both go on. -/
theorem postorderFrom_cons_pair (hstarts : starts stack = starts stack') {x x' : Placed α}
    (hneeds : x.1.content.needsGroup = x'.1.content.needsGroup) (hlone : x.1.lone? = x'.1.lone?)
    (ts ts' : List (Placed α)) :
    (∃ e, postorderFrom stack (x :: ts) = .error e ∧ postorderFrom stack' (x' :: ts') = .error e) ∨
      (postorderFrom stack (x :: ts) = emit (givenAt stack x) (postorderFrom (after stack x) ts) ∧
        postorderFrom stack' (x' :: ts') =
          emit (givenAt stack' x') (postorderFrom (after stack' x') ts')) := by
  rcases postorderFrom_cons stack x ts with ⟨hgroup, hnil, e, he, herror⟩ | ⟨hopen, hstep⟩ <;>
    rcases postorderFrom_cons stack' x' ts' with
      ⟨hgroup', hnil', e', he', herror'⟩ | ⟨hopen', hstep'⟩
  · obtain rfl := Option.some.inj (he.symm.trans (hlone.trans he'))
    exact .inl ⟨e, herror, herror'⟩
  · exact absurd (hstarts ▸ hnil) (hopen' (hneeds ▸ hgroup))
  · exact absurd (hstarts ▸ hnil') (hopen (hneeds ▸ hgroup'))
  · exact .inr ⟨hstep, hstep'⟩

/-- Whether all can go out at the end, and what is blamed if not, shows in the braces. -/
theorem giveOutAll_pair (hstarts : starts stack = starts stack') :
    (∃ e, giveOutAll stack = .error e ∧ giveOutAll stack' = .error e) ∨
      (giveOutAll stack = .ok (stack.filterMap index?) ∧
        giveOutAll stack' = .ok (stack'.filterMap index?)) := by
  rcases giveOutAll_cases stack with ⟨hnil, hok⟩ | ⟨start, rest, hcons, herror⟩ <;>
    rcases giveOutAll_cases stack' with ⟨hnil', hok'⟩ | ⟨start', rest', hcons', herror'⟩
  · exact .inr ⟨hok, hok'⟩
  · simp [hstarts, hcons'] at hnil
  · simp [hstarts, hnil'] at hcons
  · obtain ⟨rfl, -⟩ := List.cons.inj (hcons.symm.trans (hstarts.trans hcons'))
    exact .inl ⟨_, herror, herror'⟩

/-- **What is held back is not asked for its grouping.** -/
theorem postorderFrom_congr {a : Associativity}
    (h : stack.map (Held.regroup a) = stack'.map (Held.regroup a)) (ts : List (Placed α)) :
    postorderFrom stack ts = postorderFrom stack' ts := by
  induction ts generalizing stack stack' with
  | nil =>
    have hstarts : starts stack = starts stack' := by
      rw [← starts_map_regroup a, h, starts_map_regroup]
    have hindices : stack.filterMap index? = stack'.filterMap index? := by
      rw [← indices_map_regroup a, h, indices_map_regroup]
    rw [postorderFrom, postorderFrom]
    rcases giveOutAll_pair hstarts with ⟨e, herror, herror'⟩ | ⟨hok, hok'⟩
    · rw [herror, herror']
    · rw [hok, hok', hindices]
  | cons x ts ih =>
    have hstarts : starts stack = starts stack' := by
      rw [← starts_map_regroup a, h, starts_map_regroup]
    have hgiven : givenAt stack x = givenAt stack' x := by
      rw [← givenAt_map_regroup a, h, givenAt_map_regroup]
    have hafter : (after stack x).map (Held.regroup a) = (after stack' x).map (Held.regroup a) := by
      rw [← after_map_regroup, h, after_map_regroup]
    rcases postorderFrom_cons_pair hstarts rfl rfl ts ts with ⟨e, herror, herror'⟩ | ⟨hstep, hstep'⟩
    · rw [herror, herror']
    · rw [hstep, hstep', hgiven, ih hafter]

/-- **Whether there is an order, and what is blamed if not, does not depend on the grouping.** -/
theorem postorderFrom_regroup_alike (a b : Associativity) (hstarts : starts stack = starts stack')
    (ts : List (Placed α)) :
    Alike (fun _ _ => True) (postorderFrom stack (ts.map (Placed.regroup a)))
      (postorderFrom stack' (ts.map (Placed.regroup b))) := by
  induction ts generalizing stack stack' with
  | nil =>
    rw [List.map_nil, List.map_nil, postorderFrom, postorderFrom]
    rcases giveOutAll_pair hstarts with ⟨e, herror, herror'⟩ | ⟨hok, hok'⟩
    · rw [herror, herror']
      exact .error e
    · rw [hok, hok']
      exact .ok trivial
  | cons x ts ih =>
    have hneeds : (x.regroup a).1.content.needsGroup = (x.regroup b).1.content.needsGroup :=
      (x.1.needsGroup_regroup a).trans (x.1.needsGroup_regroup b).symm
    have hlone : (x.regroup a).1.lone? = (x.regroup b).1.lone? :=
      (x.1.lone?_regroup a).trans (x.1.lone?_regroup b).symm
    have hafter : starts (after stack (x.regroup a)) = starts (after stack' (x.regroup b)) := by
      rw [starts_after_regroup, starts_after_regroup, starts_after, starts_after, hstarts]
    rw [List.map_cons, List.map_cons]
    rcases postorderFrom_cons_pair hstarts hneeds hlone (ts.map (Placed.regroup a))
      (ts.map (Placed.regroup b)) with ⟨e, herror, herror'⟩ | ⟨hstep, hstep'⟩
    · rw [herror, herror']
      exact .error e
    · rw [hstep, hstep']
      exact (ih hafter).map fun _ _ _ => trivial

/-- What is held back comes out in the order it is on the stack. -/
theorem postorderFrom_indices (stack : List (Held α)) (ts : List (Placed α)) :
    Ensures (fun order => (stack.filterMap index?).Sublist order) (postorderFrom stack ts) := by
  induction ts generalizing stack with
  | nil =>
    rw [postorderFrom]
    rcases giveOutAll_cases stack with ⟨-, hok⟩ | ⟨_, _, -, herror⟩
    · rw [hok]
      exact .ok (List.Sublist.refl _)
    · rw [herror]
      exact .error trivial
  | cons x ts ih =>
    rcases postorderFrom_cons stack x ts with ⟨-, -, e, -, herror⟩ | ⟨-, hstep⟩
    · rw [herror]
      exact .error trivial
    · rw [hstep]
      refine (ih (after stack x)).map fun order horder => ?_
      cases moves stack x with
      | operand _ hgiven hafter =>
        rw [hgiven, ← hafter]
        exact horder.cons x.2
      | call _ hgiven hafter =>
        rw [hafter] at horder
        rw [hgiven]
        exact ((List.sublist_cons_self ..).trans horder).append_left _
      | mark _ hgiven =>
        rw [hgiven]
        exact horder.append_left _

end TwoStacks

/-! ## Operators that meet -/

/-- The token is an operator before its operand, and right below the functions on top of the stack
is an operator of its precedence. -/
def Token.MeetsAlike (stack : List (Held α)) (t : Token α) : Prop :=
  ∃ op, t.content = .operator op ∧ op.isPrefixOp = true ∧
    ∃ i held below, stack.dropWhile isFunction = .operator i held :: below ∧
      held.precedence = op.precedence

/-- While the tokens are read, an operator before its operand meets one of its precedence. -/
inductive MeetsAlike : List (Held α) → List (Placed α) → Prop
  | now {stack : List (Held α)} {x : Placed α} {ts : List (Placed α)} (h : x.1.MeetsAlike stack) :
      MeetsAlike stack (x :: ts)
  | later {stack : List (Held α)} {x : Placed α} {ts : List (Placed α)}
      (h : MeetsAlike (after stack x) ts) : MeetsAlike stack (x :: ts)

section Meets

variable {stack below : List (Held α)} {x : Placed α} {ts : List (Placed α)} {op held : Operator α}
  {i : Nat}

theorem meetsAlike_cons_iff :
    MeetsAlike stack (x :: ts) ↔ x.1.MeetsAlike stack ∨ MeetsAlike (after stack x) ts := by
  constructor
  · rintro (h | h)
    · exact .inl h
    · exact .inr h
  · rintro (h | h)
    · exact .now h
    · exact .later h

/-- The functions on top of the stack go out before any operator. -/
theorem takeWhile_goesBefore (op : Operator α) (stack : List (Held α)) :
    stack.takeWhile (goesBefore op) =
      stack.takeWhile isFunction ++ (stack.dropWhile isFunction).takeWhile (goesBefore op) := by
  induction stack with
  | nil => rfl
  | cons h stack ih =>
    cases h with
    | function i => exact congrArg (Held.function i :: ·) ih
    | operator _ _ | openBrace _ => rfl

theorem dropWhile_goesBefore (op : Operator α) (stack : List (Held α)) :
    stack.dropWhile (goesBefore op) = (stack.dropWhile isFunction).dropWhile (goesBefore op) := by
  induction stack with
  | nil => rfl
  | cons h stack ih =>
    cases h with
    | function _ => exact ih
    | operator _ _ | openBrace _ => rfl

/-- What an operator gives out that is kept on top of what is below the functions. -/
theorem givenAt_of_keeps (hx : x.1.content = .operator op)
    (hkeeps : Keeps (stack.dropWhile isFunction) op) :
    givenAt stack x = (stack.takeWhile isFunction).filterMap index? ∧
      after stack x = .operator x.2 op :: stack.dropWhile isFunction := by
  have hnone : (stack.dropWhile isFunction).takeWhile (goesBefore op) = [] ∧
      (stack.dropWhile isFunction).dropWhile (goesBefore op) = stack.dropWhile isFunction := by
    cases hrest : stack.dropWhile isFunction with
    | nil => exact ⟨rfl, rfl⟩
    | cons h below =>
      have hh : ¬ h.goesBefore op = true := by simpa using hkeeps h (by simp [hrest])
      exact ⟨List.takeWhile_cons_of_neg hh, List.dropWhile_cons_of_neg hh⟩
  constructor
  · simp only [givenAt, hx]
    rw [takeWhile_goesBefore, hnone.1, List.append_nil]
  · simp only [after, hx]
    rw [dropWhile_goesBefore, hnone.2]

theorem goesBefore_of_isPrefixOp (hop : op.isPrefixOp = true) :
    held.goesBefore op = (held.precedence == op.precedence && op.associativity.groupsLeft) := by
  rw [Operator.goesBefore, hop, Bool.not_true, Bool.and_false, Bool.false_or]

/-- **Nothing but an operator of its precedence goes before an operator before its operand**, and
not even that if the operator is grouped to the right. -/
theorem keeps_of_isPrefixOp (hop : op.isPrefixOp = true)
    (h : ∀ i held below, stack.dropWhile isFunction = .operator i held :: below →
      held.precedence = op.precedence → op.associativity.groupsLeft = false) :
    Keeps (stack.dropWhile isFunction) op := by
  intro head hhead
  obtain ⟨below, hrest⟩ := List.head?_eq_some_iff.1 hhead
  have hfunction : head.isFunction = false := by
    simpa [hrest] using List.head?_dropWhile_not isFunction stack
  cases head with
  | function _ => cases hfunction
  | openBrace _ => rfl
  | operator i held =>
    by_cases hprec : held.precedence = op.precedence
    · rw [Held.goesBefore, goesBefore_of_isPrefixOp hop, h i held below hrest hprec, Bool.and_false]
    · rw [Held.goesBefore, goesBefore_of_isPrefixOp hop, beq_eq_false_iff_ne.2 hprec,
        Bool.false_and]

end Meets

section Compare

variable {stack : List (Held α)} {x : Placed α} {ts : List (Placed α)} {order : List Nat}

/-- A token is not changed, unless it is an operator before its operand. -/
theorem Token.regroup_cases (t : Token α) :
    (∃ op, t.content = .operator op ∧ op.isPrefixOp = true) ∨ ∀ a, t.regroup a = t := by
  obtain ⟨content, span⟩ := t
  match content with
  | .operator op =>
    by_cases hop : op.isPrefixOp = true
    · exact .inl ⟨op, rfl, hop⟩
    · refine .inr fun a => ?_
      simp only [regroup, Token.Content.regroup,
        Operator.regroup_of_not_isPrefixOp a (Bool.eq_false_iff.2 hop)]
  | .number _ | .variable _ | .function _ | .openBrace _ | .closeBrace _ | .separator _ =>
    exact .inr fun _ => rfl

/-- **Where operators do not meet, the grouping is not looked at.** -/
theorem step_regroup (h : ¬ x.1.MeetsAlike stack) (a : Associativity) :
    givenAt stack (x.regroup a) = givenAt stack x ∧
      (after stack (x.regroup a)).map (Held.regroup a) = (after stack x).map (Held.regroup a) := by
  rcases x.1.regroup_cases with ⟨op, hx, hop⟩ | hsame
  · have hsame := Operator.regroup_of_isPrefixOp a hop
    have hkeeps : Keeps (stack.dropWhile isFunction) op :=
      keeps_of_isPrefixOp hop fun i held below hrest hprec =>
        absurd ⟨op, hx, hop, i, held, below, hrest, hprec⟩ h
    have hkeeps' : Keeps (stack.dropWhile isFunction) (op.regroup a) := by
      refine keeps_of_isPrefixOp (Operator.isPrefixOp_regroup a hop) fun i held below hrest hprec => ?_
      rw [hsame] at hprec
      exact absurd ⟨op, hx, hop, i, held, below, hrest, hprec⟩ h
    obtain ⟨hgiven, hafter⟩ := givenAt_of_keeps hx hkeeps
    obtain ⟨hgiven', hafter'⟩ := givenAt_of_keeps (x := x.regroup a)
      (Token.content_regroup a hx) hkeeps'
    exact ⟨hgiven'.trans hgiven.symm, by rw [hafter, hafter', hsame]; rfl⟩
  · rw [show x.regroup a = x from Prod.ext (hsame a) rfl]
    exact ⟨rfl, rfl⟩

/-- Where operators meet, grouping to the left lets the one that is held back go first, and grouping
to the right does not. -/
theorem step_regroup_of_meetsAlike (h : x.1.MeetsAlike stack) :
    ∃ held more below,
      givenAt stack (x.regroup .left) = givenAt stack (x.regroup .right) ++ held :: more ∧
        (after stack (x.regroup .right)).filterMap index? = x.2 :: held :: below := by
  obtain ⟨op, hx, hop, i, held, below, hrest, hprec⟩ := h
  have hregroup : ∀ a, (x.regroup a).1.content = .operator (op.regroup a) := fun a =>
    Token.content_regroup a hx
  have hkeeps : Keeps (stack.dropWhile isFunction) (op.regroup .right) :=
    keeps_of_isPrefixOp (Operator.isPrefixOp_regroup .right hop) fun _ _ _ _ _ => by
      rw [Operator.regroup_of_isPrefixOp .right hop]
      rfl
  obtain ⟨hgiven, hafter⟩ := givenAt_of_keeps (hregroup .right) hkeeps
  have hleft : (Held.operator i held).goesBefore (op.regroup .left) = true := by
    rw [Held.goesBefore, goesBefore_of_isPrefixOp (Operator.isPrefixOp_regroup .left hop),
      Operator.regroup_of_isPrefixOp .left hop]
    exact Bool.and_eq_true_iff.2 ⟨beq_iff_eq.2 hprec, rfl⟩
  refine ⟨i, (below.takeWhile (goesBefore (op.regroup .left))).filterMap index?,
    below.filterMap index?, ?_, ?_⟩
  · rw [hgiven]
    simp only [givenAt, hregroup]
    rw [takeWhile_goesBefore, hrest, List.takeWhile_cons_of_pos hleft, List.filterMap_append]
    rfl
  · rw [hafter, hrest]
    rfl

theorem emit_eq_ok_append_iff {given order : List Nat} {rest : Except Error (List Nat)} :
    emit given rest = .ok (given ++ order) ↔ rest = .ok order := by
  cases rest <;> simp [emit]

/-- **The two orders are the same iff no operators of one precedence meet.** -/
theorem postorderFrom_regroup_iff
    (hright : postorderFrom stack (ts.map (Placed.regroup .right)) = .ok order)
    (hnodup : order.Nodup) :
    postorderFrom stack (ts.map (Placed.regroup .left)) = .ok order ↔ ¬ MeetsAlike stack ts := by
  induction ts generalizing stack order with
  | nil => exact iff_of_true hright nofun
  | cons x ts ih =>
    have hneeds :
        (x.regroup .right).1.content.needsGroup = (x.regroup .left).1.content.needsGroup :=
      (x.1.needsGroup_regroup .right).trans (x.1.needsGroup_regroup .left).symm
    have hlone : (x.regroup .right).1.lone? = (x.regroup .left).1.lone? :=
      (x.1.lone?_regroup .right).trans (x.1.lone?_regroup .left).symm
    rw [List.map_cons] at hright ⊢
    have hstarts : starts stack = starts stack := rfl
    rcases postorderFrom_cons_pair hstarts hneeds hlone (ts.map (Placed.regroup .right))
      (ts.map (Placed.regroup .left)) with ⟨e, herror, -⟩ | ⟨hstep, hstep'⟩
    · cases hright.symm.trans herror
    · rw [hstep] at hright
      obtain ⟨rest, hrest, rfl⟩ := map_eq_ok_iff.1 hright
      have hnodup : rest.Nodup := hnodup.sublist (List.sublist_append_right ..)
      rw [hstep', meetsAlike_cons_iff]
      by_cases hmeets : x.1.MeetsAlike stack
      · -- the operator that is held back goes first here, and behind the next one there
        obtain ⟨held, more, below, hgiven, hafter⟩ := step_regroup_of_meetsAlike hmeets
        refine iff_of_false (fun hleft => ?_) (not_not_intro (.inl hmeets))
        obtain ⟨rest', -, heq⟩ := map_eq_ok_iff.1 hleft
        rw [hgiven, List.append_assoc, List.append_cancel_left_eq, List.cons_append] at heq
        have hsublist : (x.2 :: held :: below).Sublist (held :: (more ++ rest')) := by
          rw [heq, ← hafter]
          exact (postorderFrom_indices _ _).of_eq_ok hrest
        have hmem : held ∈ more ++ rest' :=
          hsublist.of_cons_cons.subset (by simp)
        rw [← heq] at hnodup
        exact (List.nodup_cons.1 hnodup).1 hmem
      · obtain ⟨hgivenL, hafterL⟩ := step_regroup hmeets .left
        obtain ⟨hgivenR, hafterR⟩ := step_regroup hmeets .right
        rw [postorderFrom_congr hafterR] at hrest
        rw [hgivenL, hgivenR, postorderFrom_congr hafterL, emit_eq_ok_append_iff,
          ih hrest hnodup, or_iff_right hmeets]

end Compare

end Reckon

import Reckon.Proofs.Expression.Reading

/-!
# Proofs/Expression/Conserved — nothing is lost, nothing comes twice, and no operand is overtaken

Numbers and variables are given out as they are read, and what is held back stands to their left, so
**whatever stands behind an operand in the text comes behind it in the order**
(`postorderFrom_leftToRight`).  With the indices known to be those of the tokens that are kept, each
of them once, each token is found in its slot when it is taken out (`Token.takeEach?_eq_select`).
-/

namespace Reckon

variable {α : Type}

/-! ## What comes before an operand -/

/-- An index that is held back when `ts` is still to be read: that of no operand, and one to the
left of them all. -/
structure Passed (operand : Nat → Prop) (ts : List (Placed α)) (i : Nat) : Prop where
  not_operand : ¬ operand i
  lt : ∀ x ∈ ts, i < x.2

/-- Nothing comes before an operand that stands behind it, and operands are still to be read. -/
structure LeftToRight (operand : Nat → Prop) (ts : List (Placed α)) (order : List Nat) : Prop where
  ascending : order.Pairwise fun i j => operand j → i < j
  unread : ∀ j ∈ order, operand j → ∃ x ∈ ts, x.2 = j

variable {operand : Nat → Prop} {ts : List (Placed α)} {given order : List Nat} {x : Placed α}
  {i : Nat}

theorem Passed.of_cons (h : Passed operand (x :: ts) i) : Passed operand ts i :=
  ⟨h.not_operand, fun y hy => h.lt y (by simp [hy])⟩

namespace LeftToRight

theorem cons (h : LeftToRight operand ts order) (x : Placed α) :
    LeftToRight operand (x :: ts) order := by
  refine ⟨h.ascending, fun j hj hoperand => ?_⟩
  obtain ⟨y, hy, hindex⟩ := h.unread j hj hoperand
  exact ⟨y, by simp [hy], hindex⟩

/-- What is held back may be given out first. -/
theorem give (h : LeftToRight operand ts order) (hgiven : ∀ i ∈ given, Passed operand ts i) :
    LeftToRight operand ts (given ++ order) := by
  refine ⟨List.pairwise_append.2 ⟨?_, h.ascending, fun i hi j hj hoperand => ?_⟩, ?_⟩
  · exact List.pairwise_of_forall_mem_list fun i _ j hj hoperand =>
      absurd hoperand (hgiven j hj).not_operand
  · obtain ⟨x, hx, rfl⟩ := h.unread j hj hoperand
    exact (hgiven i hi).lt x hx
  · intro j hj hoperand
    rcases List.mem_append.1 hj with hj | hj
    · exact absurd hoperand (hgiven j hj).not_operand
    · exact h.unread j hj hoperand

/-- The next token may be given out at once. -/
theorem giveNext (h : LeftToRight operand ts order) (hx : ∀ y ∈ ts, x.2 < y.2) :
    LeftToRight operand (x :: ts) (x.2 :: order) := by
  refine ⟨List.pairwise_cons.2 ⟨fun j hj hoperand => ?_, h.ascending⟩, fun j hj hoperand => ?_⟩
  · obtain ⟨y, hy, rfl⟩ := h.unread j hj hoperand
    exact hx y hy
  · rcases List.mem_cons.1 hj with rfl | hj
    · exact ⟨x, by simp, rfl⟩
    · exact (h.cons x).unread j hj hoperand

end LeftToRight

/-- **No operand is overtaken by what stands behind it.** -/
theorem postorderFrom_leftToRight {stack : List (Held α)} (hts : ts.Pairwise fun x y => x.2 < y.2)
    (hoperand : ∀ x ∈ ts, operand x.2 → x.content.isOperand = true)
    (hstack : ∀ i ∈ stack.filterMap Held.index?, Passed operand ts i) :
    Ensures (LeftToRight operand ts) (postorderFrom stack ts) := by
  induction ts generalizing stack with
  | nil =>
    rw [postorderFrom]
    rcases giveOutAll_cases stack with ⟨-, hok⟩ | ⟨_, _, -, herror⟩
    · rw [hok]
      exact .ok (by simpa using LeftToRight.give ⟨.nil, by simp⟩ hstack)
    · rw [herror]
      exact .error trivial
  | cons x ts ih =>
    rcases postorderFrom_cons stack x ts with ⟨-, -, e, -, herror⟩ | ⟨-, hstep⟩
    · rw [herror]
      exact .error trivial
    · obtain ⟨hhead, hts⟩ := List.pairwise_cons.1 hts
      have hstack : ∀ i ∈ stack.filterMap Held.index?, Passed operand ts i := fun i hi =>
        (hstack i hi).of_cons
      have ih : (∀ i ∈ (Held.after stack x).filterMap Held.index?, Passed operand ts i) →
          Ensures (LeftToRight operand ts) (postorderFrom (Held.after stack x) ts) :=
        ih hts fun y hy => hoperand y (by simp [hy])
      rw [hstep]
      cases Held.moves stack x with
      | operand hx hgiven hafter =>
        rw [hgiven]
        exact (ih (by rwa [hafter])).map fun order h => h.giveNext hhead
      | @call kept hx hgiven hafter =>
        rw [hgiven] at hstack
        have hcall : Passed operand ts x.2 := by
          refine ⟨fun h => ?_, hhead⟩
          simpa [Token.Content.isOperand_of_isCall hx] using hoperand x (by simp) h
        refine (ih ?_).map fun order h =>
          (h.give fun i hi => hstack i (List.mem_append_left _ hi)).cons x
        rw [hafter]
        exact List.forall_mem_cons.2 ⟨hcall, fun i hi => hstack i (List.mem_append_right _ hi)⟩
      | mark hx hgiven =>
        rw [hgiven] at hstack
        exact (ih fun i hi => hstack i (List.mem_append_right _ hi)).map fun order h =>
          (h.give fun i hi => hstack i (List.mem_append_left _ hi)).cons x

/-! ## The order as a whole -/

section Order

variable {ts : List (Token α)} {order : List Nat}

theorem mem_keptIndices_iff {i : Nat} :
    i ∈ keptIndices ts.zipIdx ↔ ∃ t, ts[i]? = some t ∧ t.content.isKept = true := by
  simp only [keptIndices, List.mem_map, List.mem_filter, Prod.exists, List.mem_zipIdx_iff_getElem?]
  constructor
  · rintro ⟨t, j, ⟨hj, hkept⟩, rfl⟩
    exact ⟨t, hj, hkept⟩
  · rintro ⟨t, hi, hkept⟩
    exact ⟨t, i, ⟨hi, hkept⟩, rfl⟩

/-- Of two members of a list one comes first. -/
theorem pair_sublist_or {i j : Nat} (hi : i ∈ order) (hj : j ∈ order) (hne : i ≠ j) :
    [i, j].Sublist order ∨ [j, i].Sublist order := by
  obtain ⟨before, after, rfl⟩ := List.append_of_mem hi
  rcases List.mem_append.1 hj with hbefore | hafter
  · exact .inr ((List.singleton_sublist.2 hbefore).append (by simp))
  · refine .inl (List.Sublist.trans ?_ (List.sublist_append_right ..))
    exact (List.singleton_sublist.2 ((List.mem_cons.1 hafter).resolve_left hne.symm)).cons_cons i

/-- The index of a number or variable comes first of two in the order if it does in the text. -/
theorem pair_sublist_of_postorder (h : postorder ts = .ok order) {i j : Nat} {t u : Token α}
    (hi : ts[i]? = some t) (hj : ts[j]? = some u) (ht : t.content.isOperand = true)
    (hu : u.content.isKept = true) (hlt : i < j) : [i, j].Sublist order := by
  have hrange : ts.zipIdx.Pairwise fun x y => x.2 < y.2 := by
    have hsnd : (ts.zipIdx.map Prod.snd).Pairwise (· < ·) := by
      rw [List.zipIdx_map_snd]
      exact List.pairwise_lt_range'
    exact List.pairwise_map.1 hsnd
  have hoperand : ∀ x ∈ ts.zipIdx, (∃ t, ts[x.2]? = some t ∧ t.content.isOperand = true) →
      x.1.content.isOperand = true := by
    rintro x hx ⟨t, ht, hoperand⟩
    rw [List.mem_zipIdx_iff_getElem?.1 hx] at ht
    obtain rfl := Option.some.inj ht
    exact hoperand
  have hordered : LeftToRight (fun i => ∃ t, ts[i]? = some t ∧ t.content.isOperand = true)
      ts.zipIdx order :=
    (postorderFrom_leftToRight hrange hoperand (by simp)).of_eq_ok h
  have hmem : ∀ {k : Nat}, k ∈ order ↔ k ∈ keptIndices ts.zipIdx :=
    ((postorder_concludes ts).of_eq_ok h).mem_iff
  have hi' : i ∈ order :=
    hmem.2 (mem_keptIndices_iff.2 ⟨t, hi, Token.Content.isKept_of_isOperand ht⟩)
  have hj' : j ∈ order := hmem.2 (mem_keptIndices_iff.2 ⟨u, hj, hu⟩)
  refine (pair_sublist_or hi' hj' (Nat.ne_of_lt hlt)).resolve_right fun hswap => ?_
  have hgt : j < i := by
    simpa using List.pairwise_iff_forall_sublist.1 hordered.ascending hswap ⟨t, hi, ht⟩
  exact Nat.lt_asymm hlt hgt

end Order

/-! ## Each token is found in its slot -/

namespace Token

variable {ts : List (Token α)} {order : List Nat}

/-- The tokens taken out of their slots one after another, with none of the slots being empty or
missing. -/
def takeEach? : List (Option (Token α)) → List Nat → Option (List (Token α))
  | _, [] => some []
  | slots, i :: order =>
    match slots[i]?.join with
    | none => none
    | some t => (takeEach? (slots.set i none) order).map (t :: ·)

theorem takeEach?_of_nodup (h : order.Nodup) {slots : List (Option (Token α))}
    (hslots : ∀ i ∈ order, slots[i]?.join.isSome = true) :
    takeEach? slots order = some (takeOut slots order) := by
  induction order generalizing slots with
  | nil => rfl
  | cons i order ih =>
    obtain ⟨hi, horder⟩ := List.nodup_cons.1 h
    obtain ⟨t, ht⟩ := Option.isSome_iff_exists.1 (hslots i (by simp))
    have hrest : ∀ j ∈ order, (slots.set i none)[j]?.join.isSome = true := fun j hj => by
      rw [List.getElem?_set_ne (by rintro rfl; exact hi hj)]
      exact hslots j (by simp [hj])
    simp only [takeEach?, takeOut, ht, ih horder hrest, Option.map_some]

/-- **No slot is asked for that is empty or does not exist.** -/
theorem takeEach?_eq_select (h : order.Perm (keptIndices ts.zipIdx)) :
    takeEach? (ts.map some) order = some (select ts order) := by
  rw [takeEach?_of_nodup (h.nodup_iff.2 (keptIndices_nodup ts)), takeOut_eq_select h]
  intro i hi
  obtain ⟨t, ht, -⟩ := mem_keptIndices_iff.1 (h.mem_iff.1 hi)
  rw [List.getElem?_map, ht]
  rfl

end Token

/-- **The order holds the index of each number, variable, operator and function once, and no
other**; what stands behind a number or variable in the text comes behind it in the order.  So the
tokens that are taken out in this order are those that are neither braces nor separators, and each
is still in its slot. -/
theorem postorder_conserves {ts : List (Token α)} {order : List Nat}
    (h : postorder ts = .ok order) :
    order.Nodup ∧ (∀ i, i ∈ order ↔ ∃ t, ts[i]? = some t ∧ t.content.isKept = true) ∧
      (∀ i j t u, ts[i]? = some t → ts[j]? = some u → t.content.isOperand = true →
        u.content.isKept = true → i < j → [i, j].Sublist order) ∧
      Token.takeEach? (ts.map some) order = some (Token.select ts order) ∧
      Token.takeOut (ts.map some) order = Token.select ts order ∧
      (Token.select ts order).Perm (ts.filter (·.content.isKept)) := by
  have hperm := (postorder_concludes ts).of_eq_ok h
  refine ⟨hperm.nodup_iff.2 (Token.keptIndices_nodup ts),
    fun i => hperm.mem_iff.trans mem_keptIndices_iff, ?_, Token.takeEach?_eq_select hperm,
    Token.takeOut_eq_select hperm, Token.select_perm hperm⟩
  intro i j t u hi hj ht hu hlt
  exact pair_sublist_of_postorder h hi hj ht hu hlt

/-- The tokens of `1+neg(2)3`, which are no expression. -/
private def looseOperand : List (Token Int) :=
  [⟨.number 1, .single 0⟩,
    ⟨.operator (.infixOf '+' .left 1 (fun a b => .ok (a + b)) .unbounded), .single 1⟩,
    ⟨.function ⟨"neg", .unary fun a => .ok (-a), .unbounded⟩, ⟨2, 5⟩⟩, ⟨.openBrace '(', .single 5⟩,
    ⟨.number 2, .single 6⟩, ⟨.closeBrace ')', .single 7⟩, ⟨.number 3, .single 8⟩]

/-- The sum comes behind the `1` to its left, and also behind the `3` it has nothing to do with. -/
theorem postorder_conserves_looseOperand :
    postorder looseOperand = .ok [0, 4, 6, 2, 1] ∧ [0, 1].Sublist [0, 4, 6, 2, 1] ∧
      Token.takeEach? (looseOperand.map some) [0, 4, 6, 2, 1] ≠ none := by
  have horder : postorder looseOperand = .ok [0, 4, 6, 2, 1] := rfl
  obtain ⟨-, -, hsublist, htaken, -⟩ := postorder_conserves horder
  exact ⟨horder, hsublist 0 1 _ _ rfl rfl rfl rfl (by decide), by rw [htaken]; simp⟩

end Reckon

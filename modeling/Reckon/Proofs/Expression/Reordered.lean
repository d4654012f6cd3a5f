import Mathlib.Data.List.Perm.Basic
import Reckon.Proofs.Expression.Arranged

/-!
# Proofs/Expression/Reordered — every token that is kept, and each of them once

The order that comes out of a list of tokens holds **the index of every token that is neither a brace
nor a separator, and each of them once**; if none comes out, a brace or a separator is blamed that
has no partner (`postorder_concludes`).  So the reordered tokens are those that are kept, in another
order (`Token.select_perm`).
-/

namespace Reckon

variable {α : Type}

/-! ## Tokens without a partner -/

/-- The fault of a brace or separator that has no partner. -/
def Token.lone? (t : Token α) : Option Error :=
  match t.content with
  | .openBrace _ => some (.invalidSyntax .missingCloseBrace (some t.span.start))
  | .closeBrace _ => some (.invalidSyntax .missingOpenBrace (some t.span.start))
  | .separator _ => some (.invalidSyntax .missingOpenBraceOrSeparator (some t.span.start))
  | .number _ | .variable _ | .operator _ | .function _ => none

namespace Held

/-- The fault of a brace whose group is still open at the end. -/
def lone? : Held α → Option Error
  | openBrace start => some (.invalidSyntax .missingCloseBrace (some start))
  | operator .. | function _ => none

variable {stack given kept : List (Held α)}

/-- What closing a group finds: calls, and below them an open brace. -/
theorem exists_of_closeGroup? (h : closeGroup? stack = some (given, kept)) :
    ∃ start rest, stack = given ++ openBrace start :: rest ∧ kept = openBrace start :: rest := by
  rw [closeGroup?] at h
  split at h
  · cases h
  · next brace rest hdrop =>
    obtain ⟨rfl, rfl⟩ := Prod.mk.inj (Option.some.inj h)
    have hbrace : brace.isCall = false := by
      simpa [hdrop] using List.head_dropWhile_not (p := isCall) (l := stack) (by simp [hdrop])
    cases brace with
    | openBrace start =>
      exact ⟨start, rest, by rw [← hdrop, List.takeWhile_append_dropWhile], rfl⟩
    | operator _ _ => cases hbrace
    | function _ => cases hbrace

end Held

/-! ## The order -/

/-- The indices of the tokens that are kept. -/
def keptIndices (ts : List (Placed α)) : List Nat :=
  (ts.filter fun x => x.1.content.isKept).map Prod.snd

section Order

variable {Q : Error → Prop} {stack : List (Held α)} {t : Token α} {i : Nat} {ts : List (Placed α)}

theorem keptIndices_cons_of_isKept {content : Token.Content α} (hc : t.content = content)
    (h : content.isKept = true) : keptIndices ((t, i) :: ts) = i :: keptIndices ts := by
  simp [keptIndices, hc, h]

theorem keptIndices_cons_of_not_isKept {content : Token.Content α} (hc : t.content = content)
    (h : content.isKept = false) : keptIndices ((t, i) :: ts) = keptIndices ts := by
  simp [keptIndices, hc, h]

theorem giveOutAll_concludes (hstack : ∀ h ∈ stack, ∀ e ∈ h.lone?, Q e) :
    Concludes (fun order => order.Perm (stack.filterMap Held.index?)) Q (Held.giveOutAll stack) := by
  induction stack with
  | nil => exact .ok .rfl
  | cons h stack ih =>
    have ih := ih fun h hh => hstack h (by simp [hh])
    cases h with
    | operator i _ => exact ih.map fun order horder => horder.cons i
    | function i => exact ih.map fun order horder => horder.cons i
    | openBrace start => exact .error (hstack (.openBrace start) (by simp) _ rfl)

/-- **The order holds what is held back and all tokens that are kept**, unless a brace or separator
among them has no partner. -/
theorem postorderFrom_concludes (hstack : ∀ h ∈ stack, ∀ e ∈ h.lone?, Q e)
    (hts : ∀ x ∈ ts, ∀ e ∈ x.1.lone?, Q e) :
    Concludes (fun order => order.Perm (stack.filterMap Held.index? ++ keptIndices ts)) Q
      (postorderFrom stack ts) := by
  induction ts generalizing stack with
  | nil =>
    rw [keptIndices, List.filter_nil, List.map_nil, List.append_nil]
    exact giveOutAll_concludes hstack
  | cons x ts ih =>
    obtain ⟨t, i⟩ := x
    have hhead : ∀ e ∈ t.lone?, Q e := hts (t, i) (by simp)
    have ih : ∀ s : List (Held α), (∀ h ∈ s, ∀ e ∈ h.lone?, Q e) →
        Concludes (fun order => order.Perm (s.filterMap Held.index? ++ keptIndices ts)) Q
          (postorderFrom s ts) := fun s hs => ih hs fun x hx => hts x (by simp [hx])
    match hc : t.content with
    | .number _ =>
      rw [postorderFrom_number hc, keptIndices_cons_of_isKept hc rfl]
      exact (ih stack hstack).map fun order h => (h.cons i).trans List.perm_middle.symm
    | .variable _ =>
      rw [postorderFrom_variable hc, keptIndices_cons_of_isKept hc rfl]
      exact (ih stack hstack).map fun order h => (h.cons i).trans List.perm_middle.symm
    | .function _ =>
      have hheld : ∀ h ∈ Held.function i :: stack, ∀ e ∈ h.lone?, Q e := by
        simpa [Held.lone?] using hstack
      rw [postorderFrom_function hc, keptIndices_cons_of_isKept hc rfl]
      exact (ih _ hheld).imp (fun order h => h.trans List.perm_middle.symm) fun _ h => h
    | .operator op =>
      have hheld : ∀ h ∈ Held.operator i op :: stack.dropWhile (·.goesBefore op),
          ∀ e ∈ h.lone?, Q e := by
        refine List.forall_mem_cons.2 ⟨by simp [Held.lone?], fun h hh => ?_⟩
        exact hstack h ((List.dropWhile_sublist _).subset hh)
      have hsplit : stack.filterMap Held.index? =
          (stack.takeWhile (·.goesBefore op)).filterMap Held.index? ++
            (stack.dropWhile (·.goesBefore op)).filterMap Held.index? := by
        rw [← List.filterMap_append, List.takeWhile_append_dropWhile]
      simp only [postorderFrom, hc]
      rw [keptIndices_cons_of_isKept hc rfl, hsplit, List.append_assoc]
      exact (ih _ hheld).map fun order h => (h.trans List.perm_middle.symm).append_left _
    | .openBrace _ =>
      have hheld : ∀ h ∈ Held.openBrace t.span.start :: stack, ∀ e ∈ h.lone?, Q e :=
        List.forall_mem_cons.2 ⟨by simpa [Token.lone?, hc, Held.lone?] using hhead, hstack⟩
      rw [postorderFrom_openBrace hc, keptIndices_cons_of_not_isKept hc rfl]
      exact ih _ hheld
    | .separator _ =>
      simp only [postorderFrom, hc]
      rw [keptIndices_cons_of_not_isKept hc rfl]
      cases hgroup : Held.closeGroup? stack with
      | none => exact .error (hhead _ (by simp [Token.lone?, hc]))
      | some p =>
        obtain ⟨given, kept⟩ := p
        obtain ⟨start, below, rfl, rfl⟩ := Held.exists_of_closeGroup? hgroup
        rw [List.filterMap_append, List.append_assoc]
        exact (ih _ fun h hh => hstack h (List.mem_append_right given hh)).map fun order h =>
          h.append_left _
    | .closeBrace _ =>
      simp only [postorderFrom, hc]
      rw [keptIndices_cons_of_not_isKept hc rfl]
      cases hgroup : Held.closeGroup? stack with
      | none => exact .error (hhead _ (by simp [Token.lone?, hc]))
      | some p =>
        obtain ⟨given, kept⟩ := p
        obtain ⟨start, below, rfl, rfl⟩ := Held.exists_of_closeGroup? hgroup
        rw [List.filterMap_append, List.append_assoc]
        exact (ih below fun h hh => hstack h (by simp [hh])).map fun order h => h.append_left _

theorem postorder_concludes (ts : List (Token α)) :
    Concludes (fun order => order.Perm (keptIndices ts.zipIdx))
      (fun e => ∃ t ∈ ts, t.lone? = some e) (postorder ts) := by
  have hstack : ∀ h ∈ ([] : List (Held α)), ∀ e ∈ h.lone?, ∃ t ∈ ts, t.lone? = some e := by simp
  refine (postorderFrom_concludes hstack fun x hx e he => ?_).imp (fun _ h => h) fun _ h => h
  exact ⟨x.1, List.fst_mem_of_mem_zipIdx hx, he⟩

end Order

/-! ## The tokens in that order -/

namespace Token

variable {ts : List (Token α)} {order : List Nat}

theorem keptIndices_nodup (ts : List (Token α)) : (keptIndices ts.zipIdx).Nodup := by
  have hsub : (keptIndices ts.zipIdx).Sublist (ts.zipIdx.map Prod.snd) := List.filter_sublist.map _
  rw [List.zipIdx_map_snd] at hsub
  exact hsub.nodup List.nodup_range'

/-- **The tokens in that order are the tokens that are kept.** -/
theorem select_perm (h : order.Perm (keptIndices ts.zipIdx)) :
    (select ts order).Perm (ts.filter (·.content.isKept)) := by
  have hlook : ∀ x ∈ ts.zipIdx.filter (·.1.content.isKept), ts[x.2]? = some x.1 := fun x hx =>
    List.mem_zipIdx_iff_getElem?.1 (List.mem_of_mem_filter hx)
  have hkept : (keptIndices ts.zipIdx).filterMap (ts[·]?) = ts.filter (·.content.isKept) := by
    have hfirst := List.filter_map (f := Prod.fst) (p := fun t : Token α => t.content.isKept)
      (l := ts.zipIdx)
    rw [List.zipIdx_map_fst] at hfirst
    rw [keptIndices, List.filterMap_map, hfirst]
    exact List.filterMap_eq_map_iff_forall_eq_some.2 hlook
  rw [← hkept]
  simpa [select] using h.filterMap (ts[·]?)

/-- The tokens taken out of their slots one after another: a slot that is empty or does not exist
gives none. -/
def takeOut : List (Option (Token α)) → List Nat → List (Token α)
  | _, [] => []
  | slots, i :: order =>
    match slots[i]?.join with
    | none => takeOut slots order
    | some t => t :: takeOut (slots.set i none) order

/-- Where no slot is asked for twice, taking a token out or looking at it is all the same. -/
theorem takeOut_of_nodup (h : order.Nodup) (slots : List (Option (Token α))) :
    takeOut slots order = order.filterMap fun i => slots[i]?.join := by
  induction order generalizing slots with
  | nil => rfl
  | cons i order ih =>
    obtain ⟨hi, horder⟩ := List.nodup_cons.1 h
    rw [takeOut, List.filterMap_cons]
    cases hslot : slots[i]?.join with
    | none => exact ih horder slots
    | some t =>
      have hother : ∀ j ∈ order, (slots.set i none)[j]?.join = slots[j]?.join := fun j hj => by
        rw [List.getElem?_set_ne (by rintro rfl; exact hi hj)]
      exact congrArg (t :: ·) ((ih horder _).trans (List.filterMap_congr hother))

/-- **Taking the tokens out of their slots in an order loses none of them.** -/
theorem takeOut_eq_select (h : order.Perm (keptIndices ts.zipIdx)) :
    takeOut (ts.map some) order = select ts order := by
  have hlook : ∀ i ∈ order, (ts.map some)[i]?.join = ts.toArray[i]? := fun i _ => by
    rw [List.getElem?_map, List.getElem?_toArray]
    cases ts[i]? <;> rfl
  rw [takeOut_of_nodup (h.nodup_iff.2 (keptIndices_nodup ts)), select, List.filterMap_congr hlook]

end Token

end Reckon

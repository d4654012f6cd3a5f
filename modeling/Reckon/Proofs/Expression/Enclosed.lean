import Mathlib.Data.List.Induction
import Reckon.Proofs.Expression.Reading

/-!
# Proofs/Expression/Enclosed — which braces have their partners

A list of tokens is put into an order **iff each close brace and each separator stands in an open
group and no group is left open** (`Paired`, `postorder_concludes_paired`).  What is held back
shows, among operators and functions, the braces of the open groups (`Held.starts`), the innermost
one on top; so the brace that is blamed at the end is the last one whose group is never closed.
-/

namespace Reckon

variable {α : Type}

/-! ## Open groups -/

/-- The number of open groups after a token, from the number before it. -/
def Token.Content.depthAfter (depth : Nat) : Token.Content α → Nat
  | openBrace _ => depth + 1
  | closeBrace _ => depth - 1
  | number _ | .variable _ | operator _ | function _ | separator _ => depth

/-- The number of groups that are open after a list of tokens. -/
def groupDepth (ts : List (Token α)) : Nat := ts.foldl (fun n t => t.content.depthAfter n) 0

/-- Each close brace and each separator stands in an open group. -/
def Enclosed (ts : List (Token α)) : Prop :=
  ∀ before t after, ts = before ++ t :: after → t.content.needsGroup = true → 1 ≤ groupDepth before

/-- Each close brace and each separator stands in an open group, and no group is left open. -/
structure Paired (ts : List (Token α)) : Prop where
  enclosed : Enclosed ts
  closed : groupDepth ts = 0

/-- The group that `t` opens behind `before` is not closed by the tokens `after`: at no time are
there as few open groups as before it. -/
def StaysOpen (before : List (Token α)) (t : Token α) (after : List (Token α)) : Prop :=
  (∃ c, t.content = .openBrace c) ∧
    ∀ inner, inner <+: after → groupDepth before < groupDepth (before ++ t :: inner)

section Depth

variable {ts before after : List (Token α)} {t u : Token α}

@[simp] theorem groupDepth_concat :
    groupDepth (ts ++ [t]) = t.content.depthAfter (groupDepth ts) := by
  rw [groupDepth, List.foldl_concat]
  rfl

@[simp] theorem enclosed_nil : Enclosed ([] : List (Token α)) := by simp [Enclosed]

theorem enclosed_concat_iff :
    Enclosed (ts ++ [t]) ↔ Enclosed ts ∧ (t.content.needsGroup = true → 1 ≤ groupDepth ts) := by
  constructor
  · intro h
    exact ⟨fun before u after hts => h before u (after ++ [t]) (by simp [hts]), h ts t [] rfl⟩
  · rintro ⟨hts, ht⟩ before u after hsplit hu
    rcases List.eq_nil_or_concat after with rfl | ⟨after, v, rfl⟩
    · obtain ⟨rfl, rfl⟩ := List.concat_inj.1 (by simpa using hsplit)
      exact ht hu
    · refine hts before u after ?_ hu
      exact (List.concat_inj.1 (by simpa using hsplit)).1

end Depth

/-! ## The braces of the open groups -/

/-- The braces of the open groups after a token, the innermost one first. -/
def Token.openAfter (braces : List (Token α)) (t : Token α) : List (Token α) :=
  match t.content with
  | .openBrace _ => t :: braces
  | .closeBrace _ => braces.tail
  | .number _ | .variable _ | .operator _ | .function _ | .separator _ => braces

/-- The braces of the groups that are open after a list of tokens, the innermost one first. -/
def openBraces (ts : List (Token α)) : List (Token α) := ts.foldl Token.openAfter []

section OpenBraces

variable {ts above rest braces : List (Token α)} {t u : Token α}

@[simp] theorem openBraces_concat : openBraces (ts ++ [t]) = t.openAfter (openBraces ts) :=
  List.foldl_concat ..

theorem length_openBraces (ts : List (Token α)) : (openBraces ts).length = groupDepth ts := by
  induction ts using List.reverseRecOn with
  | nil => rfl
  | append_singleton ts t ih =>
    rw [openBraces_concat, groupDepth_concat, Token.openAfter, ← ih]
    match hc : t.content with
    | .openBrace _ => rfl
    | .closeBrace _ => exact List.length_tail
    | .number _ | .variable _ | .operator _ | .function _ | .separator _ => rfl

/-- A brace of an open group is that of the last token or that of a group open before it. -/
theorem Token.of_openAfter (h : u.openAfter braces = above ++ t :: rest) :
    (t = u ∧ rest = braces ∧ ∃ c, u.content = .openBrace c) ∨
      ∃ above, braces = above ++ t :: rest := by
  rw [openAfter] at h
  split at h
  · next c hc =>
    rcases above with _ | ⟨v, above⟩
    · obtain ⟨rfl, rfl⟩ := List.cons.inj h
      exact .inl ⟨rfl, rfl, c, hc⟩
    · exact .inr ⟨above, (List.cons.inj h).2⟩
  · cases braces with
    | nil => simp at h
    | cons v braces => exact .inr ⟨v :: above, by simpa using h⟩
  all_goals exact .inr ⟨above, h⟩

/-- **The brace of an open group opens a group that is never closed.** -/
theorem exists_staysOpen (h : openBraces ts = above ++ t :: rest) :
    ∃ before after, ts = before ++ t :: after ∧ openBraces before = rest ∧
      StaysOpen before t after := by
  induction ts using List.reverseRecOn generalizing above with
  | nil => simp [openBraces] at h
  | append_singleton ts u ih =>
    have hdepth : rest.length < groupDepth (ts ++ [u]) := by
      rw [← length_openBraces, h, List.length_append, List.length_cons]
      omega
    rw [openBraces_concat] at h
    rcases Token.of_openAfter h with ⟨rfl, rfl, hopens⟩ | ⟨above', hts⟩
    · refine ⟨ts, [], rfl, rfl, hopens, fun inner hinner => ?_⟩
      obtain rfl := List.prefix_nil.1 hinner
      rwa [length_openBraces] at hdepth
    · obtain ⟨before, after, rfl, rfl, hopens, hstays⟩ := ih hts
      refine ⟨before, after ++ [u], by simp, rfl, hopens, fun inner hinner => ?_⟩
      rcases List.prefix_concat_iff.1 hinner with rfl | hinner
      · rw [length_openBraces] at hdepth
        simpa using hdepth
      · exact hstays inner hinner

end OpenBraces

/-! ## Braces that have no partner -/

/-- The token is the first close brace or separator that stands in no open group. -/
def FirstOutside (ts : List (Token α)) (t : Token α) : Prop :=
  ∃ before after, ts = before ++ t :: after ∧ Enclosed before ∧ groupDepth before = 0 ∧
    t.content.needsGroup = true

/-- The token is the last brace whose group is never closed. -/
def LastUnclosed (ts : List (Token α)) (t : Token α) : Prop :=
  ∃ before after, ts = before ++ t :: after ∧ StaysOpen before t after ∧
    ∀ inner u later, after = inner ++ u :: later → ¬ StaysOpen (before ++ t :: inner) u later

/-- Why the braces of a list of tokens are not in pairs. -/
inductive Unpaired (ts : List (Token α)) : Error → Prop
  | outside {t : Token α} {e : Error} (first : FirstOutside ts t) (fault : t.lone? = some e) :
      Unpaired ts e
  | unclosed {t : Token α} {e : Error} (enclosed : Enclosed ts) (last : LastUnclosed ts t)
      (fault : t.lone? = some e) : Unpaired ts e

variable {ts : List (Token α)} {t : Token α}

theorem FirstOutside.not_enclosed (h : FirstOutside ts t) : ¬ Enclosed ts := by
  obtain ⟨before, after, rfl, -, hdepth, hneeds⟩ := h
  intro henclosed
  have hone : 1 ≤ groupDepth before := henclosed before t after rfl hneeds
  omega

theorem FirstOutside.wording {e : Error} (h : FirstOutside ts t) (he : t.lone? = some e) :
    ∃ fault, e = .invalidSyntax fault (some t.span.start) ∧
      ((∃ c, t.content = .closeBrace c) ∧ fault.message = "missing left brace" ∨
        (∃ c, t.content = .separator c) ∧
          fault.message = "missing argument separator or left brace") := by
  obtain ⟨_, _, _, _, _, hneeds⟩ := h
  unfold Token.lone? at he
  match hc : t.content with
  | .closeBrace c =>
    rw [hc] at he
    exact ⟨_, (Option.some.inj he).symm, .inl ⟨⟨c, rfl⟩, rfl⟩⟩
  | .separator c =>
    rw [hc] at he
    exact ⟨_, (Option.some.inj he).symm, .inr ⟨⟨c, rfl⟩, rfl⟩⟩
  | .number _ | .variable _ | .operator _ | .function _ | .openBrace _ =>
    simp [hc, Token.Content.needsGroup] at hneeds

theorem LastUnclosed.groupDepth_ne_zero (h : LastUnclosed ts t) : groupDepth ts ≠ 0 := by
  obtain ⟨before, after, rfl, hstays, -⟩ := h
  exact Nat.ne_zero_of_lt (hstays.2 after (List.prefix_refl _))

theorem LastUnclosed.lone?_eq (h : LastUnclosed ts t) :
    t.lone? = some (.invalidSyntax .missingCloseBrace (some t.span.start)) := by
  obtain ⟨_, _, _, ⟨⟨c, hc⟩, _⟩, _⟩ := h
  rw [Token.lone?, hc]

/-- **The last brace whose group is never closed is that of the innermost open group.** -/
theorem lastUnclosed_of_openBraces {rest : List (Token α)} (h : openBraces ts = t :: rest) :
    LastUnclosed ts t := by
  have hsplit : openBraces ts = [] ++ t :: rest := h
  obtain ⟨before, after, rfl, rfl, hstays⟩ := exists_staysOpen hsplit
  refine ⟨before, after, rfl, hstays, ?_⟩
  rintro inner u later rfl hlater
  -- there would be two more open groups at the end than before `t`, and there is one more
  have hone : groupDepth (before ++ t :: (inner ++ u :: later)) = groupDepth before + 1 := by
    rw [← length_openBraces, h, List.length_cons, length_openBraces]
  have hinner := hstays.2 inner (List.prefix_append ..)
  have hend := hlater.2 later (List.prefix_refl _)
  rw [List.append_assoc, List.cons_append] at hend
  omega

/-! ## Reordering -/

section Reordering

open Held

variable {stack : List (Held α)} {before braces : List (Token α)} {rest : List (Placed α)}

theorem starts_after_of_map (hstack : starts stack = braces.map (·.span.start)) (x : Placed α) :
    starts (after stack x) = (x.1.openAfter braces).map (·.span.start) := by
  rw [starts_after, Token.openAfter]
  match x.1.content with
  | .openBrace _ => exact congrArg _ hstack
  | .closeBrace _ => exact (congrArg _ hstack).trans List.map_tail.symm
  | .number _ | .variable _ | .function _ | .operator _ | .separator _ => exact hstack

/-- **The braces that are held back are those of the open groups**, so how the braces are paired
decides whether there is an order and what is blamed. -/
theorem postorderFrom_starts (hbefore : Enclosed before)
    (hstack : starts stack = (openBraces before).map (·.span.start)) :
    Concludes (fun _ => Paired (before ++ rest.map Prod.fst))
      (Unpaired (before ++ rest.map Prod.fst)) (postorderFrom stack rest) := by
  have hdepth : (starts stack).length = groupDepth before := by
    rw [hstack, List.length_map, length_openBraces]
  induction rest generalizing stack before with
  | nil =>
    rw [List.map_nil, List.append_nil, postorderFrom]
    rcases giveOutAll_cases stack with ⟨hnil, hok⟩ | ⟨start, below, hcons, herror⟩
    · rw [hok]
      exact .ok ⟨hbefore, by rw [← hdepth, hnil, List.length_nil]⟩
    · obtain ⟨t, braces, hopen, rfl, -⟩ := List.map_eq_cons_iff.1 (hstack.symm.trans hcons)
      have hlast := lastUnclosed_of_openBraces hopen
      rw [herror]
      exact .error (.unclosed hbefore hlast hlast.lone?_eq)
  | cons x rest ih =>
    have hall : before ++ (x :: rest).map Prod.fst = before ++ [x.1] ++ rest.map Prod.fst := by simp
    rw [hall]
    rcases postorderFrom_cons stack x rest with ⟨hneeds, hnil, e, hfault, herror⟩ | ⟨hopen, hstep⟩
    · have hnone : groupDepth before = 0 := by rw [← hdepth, hnil, List.length_nil]
      rw [herror]
      exact .error (.outside ⟨before, rest.map Prod.fst, by simp, hbefore, hnone, hneeds⟩ hfault)
    · have henclosed : Enclosed (before ++ [x.1]) := by
        refine enclosed_concat_iff.2 ⟨hbefore, fun hneeds => ?_⟩
        rw [← hdepth]
        exact List.length_pos_iff.2 (hopen hneeds)
      have hafter : starts (after stack x) = (openBraces (before ++ [x.1])).map (·.span.start) := by
        rw [openBraces_concat, starts_after_of_map hstack]
      rw [hstep]
      refine (ih henclosed hafter ?_).map fun _ h => h
      rw [hafter, List.length_map, length_openBraces]

theorem postorder_concludes_paired (ts : List (Token α)) :
    Concludes (fun _ => Paired ts) (Unpaired ts) (postorder ts) := by
  have h : Concludes (fun _ => Paired ([] ++ ts.zipIdx.map Prod.fst))
      (Unpaired ([] ++ ts.zipIdx.map Prod.fst)) (postorder ts) :=
    postorderFrom_starts enclosed_nil rfl
  rwa [List.nil_append, List.zipIdx_map_fst] at h

/-- **A list of tokens is put into an order iff its braces are in pairs**: each close brace and each
separator stands in an open group, and no group is open at the end.  Otherwise the first close
brace or separator that stands in no open group is blamed, or, if there is none, the last brace
whose group is never closed. -/
theorem exists_postorder_iff_paired (ts : List (Token α)) :
    ((∃ order, postorder ts = .ok order) ↔ Paired ts) ∧
      (¬ Enclosed ts → ∃ t fault, FirstOutside ts t ∧
        postorder ts = .error (.invalidSyntax fault (some t.span.start)) ∧
        ((∃ c, t.content = .closeBrace c) ∧ fault.message = "missing left brace" ∨
          (∃ c, t.content = .separator c) ∧
            fault.message = "missing argument separator or left brace")) ∧
      (Enclosed ts → groupDepth ts ≠ 0 → ∃ t fault, LastUnclosed ts t ∧
        postorder ts = .error (.invalidSyntax fault (some t.span.start)) ∧
        fault.message = "missing right brace") := by
  have hconcludes := postorder_concludes_paired ts
  cases hresult : postorder ts with
  | ok order =>
    have hpaired := hconcludes.of_eq_ok hresult
    exact ⟨⟨fun _ => hpaired, fun _ => ⟨order, rfl⟩⟩, fun h => absurd hpaired.enclosed h,
      fun _ h => absurd hpaired.closed h⟩
  | error e =>
    cases hconcludes.of_eq_error hresult with
    | @outside t _ hfirst hfault =>
      obtain ⟨fault, rfl, hwording⟩ := hfirst.wording hfault
      exact ⟨⟨nofun, fun h => absurd h.enclosed hfirst.not_enclosed⟩,
        fun _ => ⟨t, fault, hfirst, rfl, hwording⟩,
        fun h => absurd h hfirst.not_enclosed⟩
    | @unclosed t _ henclosed hlast hfault =>
      obtain rfl := Option.some.inj (hlast.lone?_eq.symm.trans hfault)
      exact ⟨⟨nofun, fun h => absurd h.closed hlast.groupDepth_ne_zero⟩,
        fun h => absurd henclosed h, fun _ _ => ⟨t, _, hlast, rfl, rfl⟩⟩

/-- The tokens of `((1)`. -/
private def halfOpen : List (Token Nat) :=
  [⟨.openBrace '(', .single 0⟩, ⟨.openBrace '(', .single 1⟩, ⟨.number 1, .single 2⟩,
    ⟨.closeBrace ')', .single 3⟩]

/-- The brace that is blamed is the first one, as the second one has a partner. -/
theorem exists_postorder_iff_paired_halfOpen :
    Enclosed halfOpen ∧ groupDepth halfOpen ≠ 0 ∧
      ∃ t, LastUnclosed halfOpen t ∧ t.span.start = 0 := by
  have henclosed : Enclosed halfOpen := by
    have hclose : Enclosed
        ([] ++ [⟨.openBrace '(', .single 0⟩] ++ [⟨.openBrace '(', .single 1⟩] ++
          [⟨.number 1, .single 2⟩] ++ [⟨.closeBrace ')', .single 3⟩] : List (Token Nat)) := by
      simp only [enclosed_concat_iff, enclosed_nil, true_and]
      decide
    exact hclose
  have hdepth : groupDepth halfOpen ≠ 0 := by decide
  obtain ⟨t, fault, hlast, herror, -⟩ :=
    (exists_postorder_iff_paired halfOpen).2.2 henclosed hdepth
  have hstart : postorder halfOpen = .error (.invalidSyntax .missingCloseBrace (some 0)) := rfl
  rw [hstart] at herror
  have hplace := (Error.invalidSyntax.inj (Except.error.inj herror)).2
  exact ⟨henclosed, hdepth, t, hlast, (Option.some.inj hplace).symm⟩

end Reordering

end Reckon

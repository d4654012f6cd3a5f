import Mathlib.Data.List.Basic
import Reckon.Expression.Run
import Reckon.Proofs.Expression.HeldBack

/-!
# Proofs/Expression/Arranged — the order of the tokens depends on what they stand for

Which token goes out when is decided by what the tokens stand for, and neither by their indices nor
by their places in the text.  `Token.Content.arrange` is the reordering on contents alone, and **a
text is parsed iff its contents are arranged, and then into that order**
(`Grammar.exists_parse_iff`).  Nothing is lost or doubled on the way (`arrange_perm`), and within an
open group all is arranged as it is alone (`arrange_within`).
-/

namespace Reckon

variable {α : Type}

namespace Token.Content

/-- Whether the token is an operator or a function. -/
def isCall : Token.Content α → Bool
  | operator _ | function _ => true
  | number _ | .variable _ | openBrace _ | closeBrace _ | separator _ => false

/-- Whether the token is neither a brace nor a separator. -/
def isKept : Token.Content α → Bool
  | number _ | .variable _ | operator _ | function _ => true
  | openBrace _ | closeBrace _ | separator _ => false

/-- Whether the token, once held back, is given out before `next` is held back on top of it. -/
def goesBefore (next : Operator α) : Token.Content α → Bool
  | operator held => held.goesBefore next
  | function _ => true
  | number _ | .variable _ | openBrace _ | closeBrace _ | separator _ => false

/-- What is held back within the innermost open group, and the stack from its brace on. -/
def closeGroup? (stack : List (Token.Content α)) :
    Option (List (Token.Content α) × List (Token.Content α)) :=
  match stack.dropWhile isCall with
  | [] => none
  | brace :: rest => some (stack.takeWhile isCall, brace :: rest)

/-- The order of what is still to be read when the stack is held back, if the groups are closed. -/
def arrange (stack : List (Token.Content α)) :
    List (Token.Content α) → Option (List (Token.Content α))
  | [] => if ∀ c ∈ stack, c.isCall = true then some stack else none
  | c :: cs =>
    match c with
    | number _ | .variable _ => (arrange stack cs).map (c :: ·)
    | function _ | openBrace _ => arrange (c :: stack) cs
    | operator op =>
      (arrange (c :: stack.dropWhile (goesBefore op)) cs).map (stack.takeWhile (goesBefore op) ++ ·)
    | separator _ =>
      (closeGroup? stack).bind fun p => (arrange p.2 cs).map (p.1 ++ ·)
    | closeBrace _ =>
      (closeGroup? stack).bind fun p => (arrange p.2.tail cs).map (p.1 ++ ·)

variable {c : Token.Content α} {stack : List (Token.Content α)}

theorem isCall_of_goesBefore {op : Operator α} (h : c.goesBefore op = true) : c.isCall = true := by
  match c with
  | operator _ | function _ => rfl
  | number _ | .variable _ | openBrace _ | closeBrace _ | separator _ => cases h

theorem arrange_nil_of_isCall (hc : c.isCall = true) :
    arrange (c :: stack) [] = (arrange stack []).map (c :: ·) := by
  by_cases hstack : ∀ c ∈ stack, c.isCall = true
  · rw [arrange, arrange, if_pos hstack, if_pos (by simpa using ⟨hc, hstack⟩),
      Option.map_some]
  · rw [arrange, arrange, if_neg hstack, if_neg fun h => hstack fun d hd => h d (by simp [hd]),
      Option.map_none]

theorem arrange_nil_of_not_isCall (hc : c.isCall = false) : arrange (c :: stack) [] = none := by
  rw [arrange, if_neg fun h => by simp [hc] at h]

/-- What closing a group finds: the calls down to the first token that is none. -/
theorem closeGroup?_eq_some_iff {given kept : List (Token.Content α)} :
    closeGroup? stack = some (given, kept) ↔
      stack = given ++ kept ∧ (∀ c ∈ given, c.isCall = true) ∧
        ∃ brace rest, kept = brace :: rest ∧ brace.isCall = false := by
  rw [closeGroup?]
  constructor
  · intro h
    split at h
    · cases h
    · next brace rest hdrop =>
      obtain ⟨rfl, rfl⟩ := Prod.mk.inj (Option.some.inj h)
      refine ⟨?_, List.all_eq_true.1 List.all_takeWhile, brace, rest, rfl, ?_⟩
      · rw [← hdrop, List.takeWhile_append_dropWhile]
      · simpa [hdrop] using List.head_dropWhile_not (p := isCall) (l := stack) (by simp [hdrop])
  · rintro ⟨rfl, hgiven, brace, rest, rfl, hbrace⟩
    have hneg : ¬ brace.isCall = true := by simp [hbrace]
    rw [List.dropWhile_append_of_pos hgiven, List.dropWhile_cons_of_neg hneg,
      List.takeWhile_append_of_pos hgiven, List.takeWhile_cons_of_neg hneg, List.append_nil]

/-! ## Within an open group -/

section Within

variable {cs out below rest : List (Token.Content α)} {o : Char}

/-- The list goes on with what ends a group or a part of it. -/
def EndsGroup (cs : List (Token.Content α)) : Prop :=
  ∃ c rest, cs = closeBrace c :: rest ∨ cs = separator c :: rest

theorem takeWhile_within (p : Token.Content α → Bool) (hp : p (openBrace o) = false) :
    (stack ++ openBrace o :: below).takeWhile p = stack.takeWhile p := by
  rw [List.takeWhile_append, List.takeWhile_cons_of_neg (by simp [hp]), List.append_nil]
  split
  · next h => exact ((List.takeWhile_prefix p).eq_of_length h).symm
  · rfl

theorem dropWhile_within (p : Token.Content α → Bool) (hp : p (openBrace o) = false) :
    (stack ++ openBrace o :: below).dropWhile p = stack.dropWhile p ++ openBrace o :: below := by
  rw [List.dropWhile_append, List.dropWhile_cons_of_neg (by simp [hp])]
  split
  · next h => rw [List.isEmpty_iff.1 h, List.nil_append]
  · rfl

variable (below o) in
theorem closeGroup?_within {given kept : List (Token.Content α)}
    (h : closeGroup? stack = some (given, kept)) :
    closeGroup? (stack ++ openBrace o :: below) = some (given, kept ++ openBrace o :: below) ∧
      (kept ++ openBrace o :: below).tail = kept.tail ++ openBrace o :: below := by
  obtain ⟨rfl, hcalls, brace, kept, rfl, hbrace⟩ := closeGroup?_eq_some_iff.1 h
  exact ⟨closeGroup?_eq_some_iff.2 ⟨by simp, hcalls, _, _, rfl, hbrace⟩, rfl⟩

/-- **In an open group all is arranged as it is alone**, and given out before what comes after. -/
theorem arrange_within (h : arrange stack cs = some out) (hrest : EndsGroup rest) :
    arrange (stack ++ openBrace o :: below) (cs ++ rest) =
      (arrange (openBrace o :: below) rest).map (out ++ ·) := by
  induction cs generalizing stack out with
  | nil =>
    rw [arrange, Option.ite_none_right_eq_some, Option.some.injEq] at h
    obtain ⟨hcalls, rfl⟩ := h
    have hfull : closeGroup? (stack ++ openBrace o :: below) = some (stack, openBrace o :: below) :=
      closeGroup?_eq_some_iff.2 ⟨rfl, hcalls, _, _, rfl, rfl⟩
    have hempty : closeGroup? (openBrace o :: below) = some ([], openBrace o :: below) := rfl
    obtain ⟨c, rest, rfl | rfl⟩ := hrest
    · simp [arrange, hfull, hempty]
    · simp [arrange, hfull, hempty]
  | cons c cs ih =>
    rw [List.cons_append]
    match c with
    | number _ | .variable _ =>
      simp only [arrange, Option.map_eq_some_iff] at h
      obtain ⟨more, hmore, rfl⟩ := h
      simp [arrange, ih hmore, Function.comp_def]
    | function _ | openBrace _ =>
      simp only [arrange] at h ⊢
      exact ih h
    | operator op =>
      simp only [arrange, Option.map_eq_some_iff] at h
      obtain ⟨more, hmore, rfl⟩ := h
      have hop : goesBefore op (openBrace o) = false := rfl
      simp only [arrange, takeWhile_within _ hop, dropWhile_within _ hop]
      rw [← List.cons_append, ih hmore]
      simp [Function.comp_def]
    | separator _ =>
      simp only [arrange, Option.bind_eq_some_iff, Option.map_eq_some_iff] at h
      obtain ⟨⟨given, kept⟩, hgroup, more, hmore, rfl⟩ := h
      simp [arrange, (closeGroup?_within below o hgroup).1, ih hmore, Function.comp_def]
    | closeBrace _ =>
      simp only [arrange, Option.bind_eq_some_iff, Option.map_eq_some_iff] at h
      obtain ⟨⟨given, kept⟩, hgroup, more, hmore, rfl⟩ := h
      obtain ⟨hwithin, htail⟩ := closeGroup?_within below o hgroup
      simp only [arrange, hwithin, Option.bind_some, htail, ih hmore]
      simp [Function.comp_def]

end Within

/-! ## Nothing is lost -/

theorem filter_isCall_of_closeGroup? {given kept : List (Token.Content α)}
    (h : closeGroup? stack = some (given, kept)) :
    stack.filter isCall = given ++ kept.filter isCall ∧
      kept.tail.filter isCall = kept.filter isCall := by
  obtain ⟨rfl, hcalls, brace, kept, rfl, hbrace⟩ := closeGroup?_eq_some_iff.1 h
  constructor
  · rw [List.filter_append, List.filter_eq_self.2 hcalls]
  · rw [List.tail_cons, List.filter_cons_of_neg (by simp [hbrace])]

/-- **What comes out are the calls that were held back and the tokens that are kept.** -/
theorem arrange_perm {cs out : List (Token.Content α)} (h : arrange stack cs = some out) :
    out.Perm (stack.filter isCall ++ cs.filter isKept) := by
  induction cs generalizing stack out with
  | nil =>
    rw [arrange, Option.ite_none_right_eq_some, Option.some.injEq] at h
    obtain ⟨hcalls, rfl⟩ := h
    rw [List.filter_eq_self.2 hcalls, List.filter_nil, List.append_nil]
  | cons c cs ih =>
    match c with
    | number _ | .variable _ =>
      simp only [arrange, Option.map_eq_some_iff] at h
      obtain ⟨more, hmore, rfl⟩ := h
      rw [List.filter_cons_of_pos rfl]
      exact ((ih hmore).cons _).trans List.perm_middle.symm
    | function _ =>
      rw [List.filter_cons_of_pos rfl]
      exact (ih h).trans List.perm_middle.symm
    | openBrace _ =>
      rw [List.filter_cons_of_neg (by simp [isKept])]
      simpa [isCall] using ih h
    | operator op =>
      simp only [arrange, Option.map_eq_some_iff] at h
      obtain ⟨more, hmore, rfl⟩ := h
      have hcalls : ∀ c ∈ stack.takeWhile (goesBefore op), c.isCall = true := fun c hc =>
        isCall_of_goesBefore (List.all_eq_true.1 List.all_takeWhile c hc)
      have hsplit : stack.filter isCall =
          stack.takeWhile (goesBefore op) ++ (stack.dropWhile (goesBefore op)).filter isCall := by
        rw [← List.filter_eq_self.2 hcalls, ← List.filter_append, List.takeWhile_append_dropWhile]
      rw [hsplit, List.append_assoc, List.filter_cons_of_pos rfl]
      exact ((ih hmore).trans List.perm_middle.symm).append_left _
    | separator _ =>
      simp only [arrange, Option.bind_eq_some_iff, Option.map_eq_some_iff] at h
      obtain ⟨⟨given, kept⟩, hgroup, more, hmore, rfl⟩ := h
      rw [(filter_isCall_of_closeGroup? hgroup).1, List.append_assoc,
        List.filter_cons_of_neg (by simp [isKept])]
      exact (ih hmore).append_left given
    | closeBrace _ =>
      simp only [arrange, Option.bind_eq_some_iff, Option.map_eq_some_iff] at h
      obtain ⟨⟨given, kept⟩, hgroup, more, hmore, rfl⟩ := h
      obtain ⟨hsplit, htail⟩ := filter_isCall_of_closeGroup? hgroup
      rw [hsplit, List.append_assoc, List.filter_cons_of_neg (by simp [isKept]), ← htail]
      exact (ih hmore).append_left given

end Token.Content

/-! ## Indices are the tokens they point at -/

namespace Held

/-- A token with its index, held back. -/
def ofPlaced (x : Placed α) : Held α :=
  match x.content with
  | .operator op => .operator x.2 op
  | .function _ => .function x.2
  | _ => .openBrace x.1.span.start

variable {x : Placed α} {look : Nat → Option (Token.Content α)} {s : List (Placed α)}

@[simp] theorem isCall_ofPlaced : (ofPlaced x).isCall = x.content.isCall := by
  match hc : x.content with
  | .operator _ | .function _ | .number _ | .variable _ | .openBrace _ | .closeBrace _
  | .separator _ => simp [ofPlaced, hc, isCall, Token.Content.isCall]

@[simp] theorem goesBefore_ofPlaced (op : Operator α) :
    (ofPlaced x).goesBefore op = x.content.goesBefore op := by
  match hc : x.content with
  | .operator _ | .function _ | .number _ | .variable _ | .openBrace _ | .closeBrace _
  | .separator _ => simp [ofPlaced, hc, goesBefore, Token.Content.goesBefore]

theorem index?_ofPlaced (h : x.content.isCall = true) : (ofPlaced x).index? = some x.2 := by
  match hc : x.content with
  | .operator _ | .function _ => simp [ofPlaced, hc, index?]
  | .number _ | .variable _ | .openBrace _ | .closeBrace _ | .separator _ =>
    simp [hc, Token.Content.isCall] at h

/-- What is given out are the indices of operators and functions. -/
theorem filterMap_given (hcall : ∀ x ∈ s, x.content.isCall = true)
    (hlook : ∀ x ∈ s, look x.2 = some x.content) :
    ((s.map ofPlaced).filterMap index?).filterMap look = s.map Placed.content := by
  rw [List.filterMap_map, List.filterMap_filterMap, List.filterMap_eq_map_iff_forall_eq_some]
  intro x hx
  simp [index?_ofPlaced (hcall x hx), hlook x hx]

end Held

section Contents

open Token.Content

variable {look : Nat → Option (Token.Content α)} {stack : List (Placed α)}

theorem closeGroup?_map_ofPlaced (stack : List (Placed α)) :
    (Held.closeGroup? (stack.map Held.ofPlaced) = none ∧
      closeGroup? (stack.map Placed.content) = none) ∨
    ∃ given kept, stack = given ++ kept ∧ (∀ x ∈ given, x.content.isCall = true) ∧
      Held.closeGroup? (stack.map Held.ofPlaced) =
        some (given.map Held.ofPlaced, kept.map Held.ofPlaced) ∧
      closeGroup? (stack.map Placed.content) =
        some (given.map Placed.content, kept.map Placed.content) := by
  have hheld : Held.isCall ∘ Held.ofPlaced = fun x : Placed α => x.content.isCall := by
    funext x
    exact Held.isCall_ofPlaced
  simp only [Held.closeGroup?, closeGroup?, List.dropWhile_map, List.takeWhile_map, hheld]
  have hsplit := List.takeWhile_append_dropWhile (p := fun x : Placed α => x.content.isCall)
    (l := stack)
  rcases hkept : stack.dropWhile fun x => x.content.isCall with _ | ⟨brace, rest⟩
  · exact .inl ⟨by simp [hkept], by simp [Function.comp_def, hkept]⟩
  · rw [hkept] at hsplit
    refine .inr ⟨_, brace :: rest, hsplit.symm, fun x hx => ?_, by simp [hkept], ?_⟩
    · exact List.all_eq_true.1 List.all_takeWhile x hx
    · simp [Function.comp_def, hkept]

theorem filterMap_emit (given : List Nat) (order : Except Error (List Nat)) :
    (emit given order).toOption.map (List.filterMap look) =
      (order.toOption.map (List.filterMap look)).map (given.filterMap look ++ ·) := by
  cases order with
  | error e => rfl
  | ok order => simp [Except.toOption]

theorem filterMap_giveOutAll (hstack : ∀ x ∈ stack, look x.2 = some x.content) :
    (Held.giveOutAll (stack.map Held.ofPlaced)).toOption.map (List.filterMap look) =
      arrange (stack.map Placed.content) [] := by
  induction stack with
  | nil => rfl
  | cons x stack ih =>
    have hx := hstack x (by simp)
    have ih := ih fun y hy => hstack y (by simp [hy])
    rw [List.map_cons, List.map_cons]
    match hc : x.content with
    | .operator _ | .function _ =>
      rw [arrange_nil_of_isCall rfl, ← ih]
      simp only [Held.ofPlaced, hc, Held.giveOutAll]
      exact (filterMap_emit [x.2] _).trans (by simp [hx, hc])
    | .number _ | .variable _ | .openBrace _ | .closeBrace _ | .separator _ =>
      rw [arrange_nil_of_not_isCall rfl]
      simp [Held.ofPlaced, hc, Held.giveOutAll, Except.toOption]

/-- The tokens that the order points at are their contents, arranged, when the stack is held back. -/
def ArrangesTo (look : Nat → Option (Token.Content α)) (stack ts : List (Placed α)) : Prop :=
  (postorderFrom (stack.map Held.ofPlaced) ts).toOption.map (List.filterMap look) =
    arrange (stack.map Placed.content) (ts.map Placed.content)

namespace ArrangesTo

variable {x : Placed α} {ts : List (Placed α)} {op : Operator α} {c : Char}

theorem number {v : α} (hc : x.content = .number v) (hx : look x.2 = some x.content)
    (h : ArrangesTo look stack ts) : ArrangesTo look stack (x :: ts) := by
  rw [ArrangesTo, postorderFrom_number hc, filterMap_emit, h, List.map_cons, hc, arrange]
  simp [hx, hc]

theorem «variable» {name : String} (hc : x.content = .variable name)
    (hx : look x.2 = some x.content) (h : ArrangesTo look stack ts) :
    ArrangesTo look stack (x :: ts) := by
  rw [ArrangesTo, postorderFrom_variable hc, filterMap_emit, h, List.map_cons, hc, arrange]
  simp [hx, hc]

theorem function {f : NamedFunction α} (hc : x.content = .function f)
    (h : ArrangesTo look (x :: stack) ts) : ArrangesTo look stack (x :: ts) := by
  have hheld : Held.ofPlaced x = .function x.2 := by simp [Held.ofPlaced, hc]
  rw [ArrangesTo, List.map_cons, List.map_cons, hheld, hc] at h
  rw [ArrangesTo, postorderFrom_function hc, h, List.map_cons, hc, arrange]

theorem openBrace (hc : x.content = .openBrace c) (h : ArrangesTo look (x :: stack) ts) :
    ArrangesTo look stack (x :: ts) := by
  have hheld : Held.ofPlaced x = .openBrace x.1.span.start := by simp [Held.ofPlaced, hc]
  rw [ArrangesTo, List.map_cons, List.map_cons, hheld, hc] at h
  rw [ArrangesTo, postorderFrom_openBrace hc, h, List.map_cons, hc, arrange]

/-- What an operator lets out are the calls on top of the stack that go before it. -/
theorem operator (hc : x.content = .operator op)
    (hstack : ∀ y ∈ stack, look y.2 = some y.content)
    (h : ArrangesTo look (x :: stack.dropWhile fun y => y.content.goesBefore op) ts) :
    ArrangesTo look stack (x :: ts) := by
  have hheld : Held.ofPlaced x = .operator x.2 op := by simp [Held.ofPlaced, hc]
  have hgoes : Held.goesBefore op ∘ Held.ofPlaced =
      fun y : Placed α => y.content.goesBefore op := funext fun y => Held.goesBefore_ofPlaced op
  have hcall : ∀ y ∈ stack.takeWhile fun y => y.content.goesBefore op,
      y.content.isCall = true := fun y hy =>
    isCall_of_goesBefore (List.all_eq_true.1 List.all_takeWhile y hy)
  have hlook : ∀ y ∈ stack.takeWhile fun y => y.content.goesBefore op,
      look y.2 = some y.content := fun y hy =>
    hstack y ((List.takeWhile_sublist _).subset hy)
  have htoken : x.1.content = .operator op := hc
  rw [ArrangesTo, List.map_cons, List.map_cons, hheld, hc] at h
  simp only [ArrangesTo, postorderFrom, htoken, List.takeWhile_map, List.dropWhile_map, hgoes,
    ← emit.eq_1]
  rw [filterMap_emit, Held.filterMap_given hcall hlook, h]
  simp [hc, arrange, List.takeWhile_map, List.dropWhile_map, Function.comp_def]

/-- What closes a part of a group lets out the calls down to its brace. -/
theorem separator (hc : x.content = .separator c) (hstack : ∀ y ∈ stack, look y.2 = some y.content)
    (h : ∀ kept : List (Placed α), (∀ y ∈ kept, y ∈ stack) → ArrangesTo look kept ts) :
    ArrangesTo look stack (x :: ts) := by
  have htoken : x.1.content = .separator c := hc
  rcases closeGroup?_map_ofPlaced stack with
    ⟨hheld, hcontent⟩ | ⟨given, kept, rfl, hcall, hheld, hcontent⟩
  · simp only [ArrangesTo, postorderFrom, htoken, hheld, List.map_cons, arrange, hcontent]
    rfl
  · simp only [ArrangesTo, postorderFrom, htoken, hheld, List.map_cons, arrange, hcontent,
      ← emit.eq_1]
    rw [filterMap_emit, Held.filterMap_given hcall fun y hy => hstack y (by simp [hy]),
      h kept fun y hy => by simp [hy]]
    rfl

/-- What closes a group lets out the calls down to its brace, and drops the brace. -/
theorem closeBrace (hc : x.content = .closeBrace c)
    (hstack : ∀ y ∈ stack, look y.2 = some y.content)
    (h : ∀ kept : List (Placed α), (∀ y ∈ kept, y ∈ stack) → ArrangesTo look kept ts) :
    ArrangesTo look stack (x :: ts) := by
  have htoken : x.1.content = .closeBrace c := hc
  rcases closeGroup?_map_ofPlaced stack with
    ⟨hheld, hcontent⟩ | ⟨given, kept, rfl, hcall, hheld, hcontent⟩
  · simp only [ArrangesTo, postorderFrom, htoken, hheld, List.map_cons, arrange, hcontent]
    rfl
  · simp only [ArrangesTo, postorderFrom, htoken, hheld, List.map_cons, arrange, hcontent,
      ← emit.eq_1, ← List.map_tail]
    rw [filterMap_emit, Held.filterMap_given hcall fun y hy => hstack y (by simp [hy]),
      h kept.tail fun y hy => by simp [List.mem_of_mem_tail hy], Option.bind_some, List.map_tail]

end ArrangesTo

/-- **The order of the contents is that of the tokens.** -/
theorem arrangesTo {ts : List (Placed α)} (hstack : ∀ x ∈ stack, look x.2 = some x.content)
    (hts : ∀ x ∈ ts, look x.2 = some x.content) : ArrangesTo look stack ts := by
  induction ts generalizing stack with
  | nil => exact filterMap_giveOutAll hstack
  | cons x ts ih =>
    obtain ⟨hx, hts⟩ := List.forall_mem_cons.1 hts
    have hkept : ∀ kept : List (Placed α), (∀ y ∈ kept, y ∈ stack) → ArrangesTo look kept ts :=
      fun kept hin => ih (fun y hy => hstack y (hin y hy)) hts
    have hheld : ∀ kept : List (Placed α), (∀ y ∈ kept, y ∈ stack) →
        ArrangesTo look (x :: kept) ts :=
      fun kept hin => ih (List.forall_mem_cons.2 ⟨hx, fun y hy => hstack y (hin y hy)⟩) hts
    match hc : x.content with
    | .number _ => exact .number hc hx (hkept stack fun _ => id)
    | .variable _ => exact .variable hc hx (hkept stack fun _ => id)
    | .function _ => exact .function hc (hheld stack fun _ => id)
    | .openBrace _ => exact .openBrace hc (hheld stack fun _ => id)
    | .operator _ =>
      exact .operator hc hstack (hheld _ fun y hy => (List.dropWhile_sublist _).subset hy)
    | .separator _ => exact .separator hc hstack hkept
    | .closeBrace _ => exact .closeBrace hc hstack hkept

/-- A list of tokens is put into an order iff its contents are arranged. -/
theorem map_select_postorder (ts : List (Token α)) :
    (postorder ts).toOption.map (fun order => (Token.select ts order).map Token.content) =
      arrange [] (ts.map Token.content) := by
  let look (i : Nat) : Option (Token.Content α) := ts[i]?.map Token.content
  have hlook : ∀ x ∈ ts.zipIdx, look x.2 = some (Placed.content x) := fun x hx => by
    simp [look, List.mem_zipIdx_iff_getElem?.1 hx]
  have h : ArrangesTo look [] ts.zipIdx := arrangesTo (by simp) hlook
  have hcontents : ts.zipIdx.map Placed.content = ts.map Token.content := by
    exact (List.map_map).symm.trans (by rw [List.zipIdx_map_fst])
  rw [ArrangesTo, List.map_nil, List.map_nil, hcontents] at h
  rw [← h, postorder]
  congr 1
  funext order
  simp [look, Token.select, List.map_filterMap]

end Contents

namespace Grammar

variable {g : Grammar α}

/-- The text is read as tokens of these contents. -/
def Reads (g : Grammar α) (text : String) (contents : List (Token.Content α)) : Prop :=
  ∃ ts, g.tokens text = .ok ts ∧ ts.map Token.content = contents

/-- A text is read in one way. -/
theorem Reads.unique {text : String} {cs ds : List (Token.Content α)} (hcs : g.Reads text cs)
    (hds : g.Reads text ds) : cs = ds := by
  obtain ⟨ts, hts, rfl⟩ := hcs
  obtain ⟨us, hus, rfl⟩ := hds
  rw [Except.ok.inj (hts.symm.trans hus)]

/-- What has been parsed has its operands first. -/
theorem phase_of_parse {text : String} {e : Expression g} (h : g.parse text = .ok e) :
    e.phase = .operandsFirst := by
  obtain ⟨written, -, hshunt⟩ := bind_eq_ok_iff.1 h
  rw [Expression.shunt] at hshunt
  split at hshunt
  · cases hshunt
  · obtain ⟨order, -, rfl⟩ := map_eq_ok_iff.1 hshunt
    rfl

/-- **A text is parsed iff its contents are arranged, and then into that order.** -/
theorem exists_parse_iff {text : String} {out : List (Token.Content α)} :
    (∃ e, g.parse text = .ok e ∧ e.phase = .operandsFirst ∧ e.tokens.map Token.content = out) ↔
      ∃ contents, g.Reads text contents ∧ Token.Content.arrange [] contents = some out := by
  simp only [parse, tokenize, Reads]
  cases hts : g.tokens text with
  | error fault => simp
  | ok ts =>
    have horder := map_select_postorder ts
    cases hpost : postorder ts with
    | error fault =>
      have harrange : Token.Content.arrange [] (ts.map Token.content) = none := by
        rw [← horder, hpost]
        rfl
      simp [Expression.shunt, Expression.ofTokens, hpost, harrange]
    | ok order =>
      have harrange : Token.Content.arrange [] (ts.map Token.content) =
          some ((Token.select ts order).map Token.content) := by
        rw [← horder, hpost]
        rfl
      simp [Expression.shunt, Expression.ofTokens, hpost, harrange]

end Grammar

end Reckon

import Reckon.Proofs.Expression.Reordered

/-!
# Proofs/Expression/Reading — what one token does to the stack

A token that is read gives out some indices (`Held.givenAt`) and leaves another stack behind
(`Held.after`), **unless it is to stand in an open group and there is none** (`postorderFrom_cons`).
Which groups are open shows in the braces on the stack alone (`Held.starts`), and of the indices on
it the first ones go out and the rest stays (`Held.Moves`).
-/

namespace Reckon

variable {α : Type}

namespace Token.Content

/-- Whether the token stands in an open group or has no partner. -/
def needsGroup : Token.Content α → Bool
  | closeBrace _ | separator _ => true
  | number _ | .variable _ | operator _ | function _ | openBrace _ => false

/-- Whether the token is a number or a variable. -/
def isOperand : Token.Content α → Bool
  | number _ | .variable _ => true
  | operator _ | function _ | openBrace _ | closeBrace _ | separator _ => false

theorem isKept_of_isOperand {c : Token.Content α} (h : c.isOperand = true) : c.isKept = true := by
  match c with
  | number _ | .variable _ => rfl
  | operator _ | function _ | openBrace _ | closeBrace _ | separator _ => cases h

theorem isOperand_of_isCall {c : Token.Content α} (h : c.isCall = true) : c.isOperand = false := by
  match c with
  | operator _ | function _ => rfl
  | number _ | .variable _ | openBrace _ | closeBrace _ | separator _ => cases h

end Token.Content

namespace Held

variable {h : Held α} {stack : List (Held α)} {x : Placed α}

/-! ## Braces on the stack -/

/-- Where the brace starts, if it is one. -/
def start? : Held α → Option Nat
  | openBrace start => some start
  | operator .. | function _ => none

/-- Where the braces start that are held back. -/
def starts (stack : List (Held α)) : List Nat := stack.filterMap start?

theorem starts_cons_of_isCall (hh : h.isCall = true) : starts (h :: stack) = starts stack := by
  cases h with
  | operator _ _ | function _ => rfl
  | openBrace _ => cases hh

theorem isCall_of_goesBefore {op : Operator α} (hh : h.goesBefore op = true) : h.isCall = true := by
  cases h with
  | operator _ _ | function _ => rfl
  | openBrace _ => cases hh

/-- No brace goes out together with operators and functions. -/
theorem starts_dropWhile {p : Held α → Bool} (hp : ∀ h, p h = true → h.isCall = true)
    (stack : List (Held α)) : starts (stack.dropWhile p) = starts stack := by
  induction stack with
  | nil => rfl
  | cons h stack ih =>
    by_cases hh : p h = true
    · rw [List.dropWhile_cons_of_pos hh, ih, starts_cons_of_isCall (hp h hh)]
    · rw [List.dropWhile_cons_of_neg hh]

/-- From the topmost brace on: nothing, or a brace and what is below it. -/
theorem dropWhile_isCall_cases (stack : List (Held α)) :
    (stack.dropWhile isCall = [] ∧ starts stack = []) ∨
      ∃ start below, stack.dropWhile isCall = .openBrace start :: below ∧
        starts stack = start :: starts below := by
  have hstarts := starts_dropWhile (fun _ h => h) stack
  cases hdrop : stack.dropWhile isCall with
  | nil => exact .inl ⟨rfl, by rw [← hstarts, hdrop]; rfl⟩
  | cons brace below =>
    have hbrace : brace.isCall = false := by
      simpa [hdrop] using List.head_dropWhile_not (p := isCall) (l := stack) (by simp [hdrop])
    cases brace with
    | openBrace start => exact .inr ⟨start, below, rfl, by rw [← hstarts, hdrop]; rfl⟩
    | operator _ _ | function _ => cases hbrace

/-- **A group is closed at the topmost brace, if there is one.** -/
theorem closeGroup?_cases (stack : List (Held α)) :
    (starts stack = [] ∧ closeGroup? stack = none) ∨
      (starts stack ≠ [] ∧
        closeGroup? stack = some (stack.takeWhile isCall, stack.dropWhile isCall)) := by
  rw [closeGroup?]
  rcases dropWhile_isCall_cases stack with ⟨hdrop, hnil⟩ | ⟨start, below, hdrop, hcons⟩
  · exact .inl ⟨hnil, by rw [hdrop]⟩
  · exact .inr ⟨by rw [hcons]; exact List.cons_ne_nil _ _, by rw [hdrop]⟩

/-! ## One token -/

/-- The indices that are given out when a token is read. -/
def givenAt (stack : List (Held α)) (x : Placed α) : List Nat :=
  match x.1.content with
  | .number _ | .variable _ => [x.2]
  | .function _ | .openBrace _ => []
  | .operator op => (stack.takeWhile (·.goesBefore op)).filterMap index?
  | .closeBrace _ | .separator _ => (stack.takeWhile isCall).filterMap index?

/-- What is held back after a token is read. -/
def after (stack : List (Held α)) (x : Placed α) : List (Held α) :=
  match x.1.content with
  | .number _ | .variable _ => stack
  | .function _ => .function x.2 :: stack
  | .openBrace _ => .openBrace x.1.span.start :: stack
  | .operator op => .operator x.2 op :: stack.dropWhile (·.goesBefore op)
  | .closeBrace _ => (stack.dropWhile isCall).tail
  | .separator _ => stack.dropWhile isCall

/-- The braces on the stack after a token. -/
theorem starts_after (stack : List (Held α)) (x : Placed α) :
    starts (after stack x) =
      match x.1.content with
      | .openBrace _ => x.1.span.start :: starts stack
      | .closeBrace _ => (starts stack).tail
      | .number _ | .variable _ | .function _ | .operator _ | .separator _ => starts stack := by
  rw [after]
  match x.1.content with
  | .number _ | .variable _ | .function _ | .openBrace _ => rfl
  | .operator op =>
    exact (starts_cons_of_isCall rfl).trans (starts_dropWhile (fun _ => isCall_of_goesBefore) stack)
  | .separator _ => exact starts_dropWhile (fun _ h => h) stack
  | .closeBrace _ =>
    rcases dropWhile_isCall_cases stack with ⟨hdrop, hnil⟩ | ⟨start, below, hdrop, hcons⟩
    · simp only [hdrop, hnil]
      rfl
    · simp only [hdrop, hcons, List.tail_cons]

/-- What becomes of the indices on the stack and of that of the token: the first ones are given out
and the rest stays; an operand goes out before them all, and an operator or function stays. -/
inductive Moves (stack : List (Held α)) (x : Placed α) : Prop
  | operand (content : x.1.content.isOperand = true) (given : givenAt stack x = [x.2])
      (after : (after stack x).filterMap index? = stack.filterMap index?)
  | call {kept : List Nat} (content : x.1.content.isCall = true)
      (given : stack.filterMap index? = givenAt stack x ++ kept)
      (after : (after stack x).filterMap index? = x.2 :: kept)
  | mark (content : x.1.content.isKept = false)
      (given : stack.filterMap index? = givenAt stack x ++ (after stack x).filterMap index?)

theorem moves (stack : List (Held α)) (x : Placed α) : Moves stack x := by
  have hsplit : ∀ p : Held α → Bool, stack.filterMap index? =
      (stack.takeWhile p).filterMap index? ++ (stack.dropWhile p).filterMap index? := fun p => by
    rw [← List.filterMap_append, List.takeWhile_append_dropWhile]
  match hc : x.1.content with
  | .number _ | .variable _ =>
    exact .operand (by rw [hc]; rfl) (by simp only [givenAt, hc]) (by simp only [after, hc])
  | .function _ =>
    exact .call (by rw [hc]; rfl) (by simp only [givenAt, hc]; rfl) (by simp only [after, hc]; rfl)
  | .operator op =>
    have hgiven : givenAt stack x = (stack.takeWhile (·.goesBefore op)).filterMap index? := by
      simp only [givenAt, hc]
    have hafter : after stack x = .operator x.2 op :: stack.dropWhile (·.goesBefore op) := by
      simp only [after, hc]
    exact .call (by rw [hc]; rfl) (by rw [hgiven]; exact hsplit _) (by rw [hafter]; rfl)
  | .openBrace _ =>
    exact .mark (by rw [hc]; rfl) (by simp only [givenAt, after, hc]; rfl)
  | .separator _ =>
    exact .mark (by rw [hc]; rfl) (by simp only [givenAt, after, hc]; exact hsplit isCall)
  | .closeBrace _ =>
    refine .mark (by rw [hc]; rfl) ?_
    simp only [givenAt, after, hc]
    rw [hsplit isCall]
    rcases dropWhile_isCall_cases stack with ⟨hdrop, -⟩ | ⟨start, below, hdrop, -⟩
    · rw [hdrop, List.tail_nil]
    · rw [hdrop, List.tail_cons]
      rfl

end Held

open Held

/-- **A token without a partner ends the reading; any other one gives something out and leaves
something behind.** -/
theorem postorderFrom_cons (stack : List (Held α)) (x : Placed α) (ts : List (Placed α)) :
    (x.1.content.needsGroup = true ∧ starts stack = [] ∧
        ∃ e, x.1.lone? = some e ∧ postorderFrom stack (x :: ts) = .error e) ∨
      ((x.1.content.needsGroup = true → starts stack ≠ []) ∧
        postorderFrom stack (x :: ts) =
          emit (givenAt stack x) (postorderFrom (after stack x) ts)) := by
  obtain ⟨t, i⟩ := x
  simp only [givenAt, after]
  match hc : t.content with
  | .number _ => exact .inr ⟨nofun, postorderFrom_number hc⟩
  | .variable _ => exact .inr ⟨nofun, postorderFrom_variable hc⟩
  | .function _ => exact .inr ⟨nofun, (postorderFrom_function hc).trans (emit_nil _).symm⟩
  | .openBrace _ => exact .inr ⟨nofun, (postorderFrom_openBrace hc).trans (emit_nil _).symm⟩
  | .operator op =>
    refine .inr ⟨nofun, ?_⟩
    simp only [postorderFrom, hc]
    rfl
  | .separator _ =>
    simp only [postorderFrom, hc]
    rcases closeGroup?_cases stack with ⟨hnil, hnone⟩ | ⟨hne, hsome⟩
    · exact .inl ⟨rfl, hnil, _, by rw [Token.lone?, hc], by rw [hnone]⟩
    · exact .inr ⟨fun _ => hne, by rw [hsome]; rfl⟩
  | .closeBrace _ =>
    simp only [postorderFrom, hc]
    rcases closeGroup?_cases stack with ⟨hnil, hnone⟩ | ⟨hne, hsome⟩
    · exact .inl ⟨rfl, hnil, _, by rw [Token.lone?, hc], by rw [hnone]⟩
    · exact .inr ⟨fun _ => hne, by rw [hsome]; rfl⟩

/-- **What is held back at the end goes out as it is on the stack**, unless a brace is among it;
then the topmost brace is blamed. -/
theorem giveOutAll_cases (stack : List (Held α)) :
    (starts stack = [] ∧ giveOutAll stack = .ok (stack.filterMap index?)) ∨
      ∃ start rest, starts stack = start :: rest ∧
        giveOutAll stack = .error (.invalidSyntax .missingCloseBrace (some start)) := by
  induction stack with
  | nil => exact .inl ⟨rfl, rfl⟩
  | cons h stack ih =>
    cases h with
    | openBrace start => exact .inr ⟨start, starts stack, rfl, rfl⟩
    | operator _ _ | function _ =>
      rw [starts_cons_of_isCall rfl, giveOutAll]
      rcases ih with ⟨hnil, hok⟩ | ⟨start, rest, hcons, herror⟩
      · exact .inl ⟨hnil, by rw [hok]; rfl⟩
      · exact .inr ⟨start, rest, hcons, by rw [herror]; rfl⟩

end Reckon

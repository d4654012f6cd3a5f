import Reckon.Proofs.Expression.Positions
import Reckon.Proofs.Expression.Progress
import Reckon.Proofs.Expression.Reading

/-!
# Proofs/Expression/Relocated — tokens at other places of the text

Reading, reordering and running look at the places of tokens only to report them.  So **a part of a
text is read alike further on** (`ScansBefore.shift`), tokens that have been moved are put into the
same order and have the same value, and an error has the place that its token has been moved to
(`Expression.shunt_relocate`, `Expression.evaluate_relocate`).
-/

namespace Reckon

variable {α : Type}

/-- The token with another span. -/
def Token.relocate (span : Span → Span) (t : Token α) : Token α := { t with span := span t.span }

/-- The error with another place, if it has one. -/
def Error.relocate (place : Nat → Nat) : Error → Error
  | .invalidSyntax fault position => .invalidSyntax fault (position.map place)
  | .invalidName name position => .invalidName name (position.map place)
  | .conversion lexeme position cause => .conversion lexeme (place position) cause
  | .invalidArguments name expected actual => .invalidArguments name expected actual
  | .calculationLimit fault => .calculationLimit fault
  | .domain fault => .domain fault
  | .phase expected actual => .phase expected actual
  | .misuse fault => .misuse fault

/-- An error of an operation has no place. -/
theorem Error.OfOperation.relocate {e : Error} (h : e.OfOperation) (place : Nat → Nat) :
    e.relocate place = e := by
  cases h <;> rfl

/-- The expression with its tokens at other places. -/
def Expression.relocate {g : Grammar α} (span : Span → Span) (e : Expression g) : Expression g :=
  { e with tokens := e.tokens.map (Token.relocate span) }

theorem Expression.map_content_relocate {g : Grammar α} (span : Span → Span) (e : Expression g) :
    (e.relocate span).tokens.map Token.content = e.tokens.map Token.content := by
  rw [relocate, List.map_map]
  rfl

theorem Expression.map_span_relocate {g : Grammar α} (span : Span → Span) (e : Expression g) :
    (e.relocate span).tokens.map Token.span = e.tokens.map fun t => span t.span := by
  rw [relocate, List.map_map]
  rfl

theorem Expression.relocate_ofTokens {g : Grammar α} (span : Span → Span) (ts : List (Token α)) :
    (ofTokens ts : Expression g).relocate span = ofTokens (ts.map (Token.relocate span)) := by
  rw [relocate, ofTokens, ofTokens, List.filterMap_map]
  rfl

/-- The token with another span, at its index. -/
def Placed.relocate (span : Span → Span) (x : Placed α) : Placed α := (x.1.relocate span, x.2)

/-! ## Reading -/

/-- The span so many places further on. -/
def Span.shift (n : Nat) (s : Span) : Span := ⟨s.start + n, s.stop + n⟩

/-- **What has been read is read alike further on.** -/
theorem Grammar.ScansBefore.shift {g : Grammar α} {rest cs : List Char} {expected : Expectation}
    {offset : Nat} {ts : List (Token α)} (h : g.ScansBefore rest expected offset cs ts) (n : Nat) :
    g.ScansBefore rest expected (offset + n) cs (ts.map (Token.relocate (Span.shift n))) := by
  induction h with
  | done expected offset => exact .done expected (offset + n)
  | @space expected offset c cs ts blank _ ih =>
    rw [Nat.add_right_comm] at ih
    exact .space blank ih
  | @token expected offset c more cs content ts solid read _ ih =>
    rw [Nat.add_right_comm] at ih
    have htoken := ScansBefore.token more solid
      (contentAt_before read (fun d hd => .inl hd) (offset + n)) ih
    have hspan : (⟨content, offset + n, offset + n + (more.length + 1)⟩ : Token α) =
        Token.relocate (Span.shift n) ⟨content, offset, offset + (more.length + 1)⟩ := by
      simp [Token.relocate, Span.shift, Nat.add_right_comm]
    rwa [hspan] at htoken

/-! ## What is held back -/

namespace Held

/-- What is held back, with another place if it is a brace. -/
def relocate (place : Nat → Nat) : Held α → Held α
  | openBrace start => openBrace (place start)
  | operator i op => operator i op
  | function i => function i

variable (place : Nat → Nat)

theorem isCall_comp_relocate : isCall ∘ relocate place = (isCall : Held α → Bool) :=
  funext fun h => by cases h <;> rfl

theorem goesBefore_comp_relocate (op : Operator α) :
    goesBefore op ∘ relocate place = (goesBefore op : Held α → Bool) :=
  funext fun h => by cases h <;> rfl

theorem index?_comp_relocate : index? ∘ relocate place = (index? : Held α → Option Nat) :=
  funext fun h => by cases h <;> rfl

theorem indices_map_relocate (stack : List (Held α)) :
    (stack.map (relocate place)).filterMap index? = stack.filterMap index? := by
  rw [List.filterMap_map, index?_comp_relocate]

theorem starts_map_relocate (stack : List (Held α)) :
    starts (stack.map (relocate place)) = (starts stack).map place := by
  rw [starts, starts, List.filterMap_map, List.map_filterMap]
  congr 1
  funext h
  cases h <;> rfl

theorem giveOutAll_map_relocate (stack : List (Held α)) :
    giveOutAll (stack.map (relocate place)) =
      (giveOutAll stack).mapError (Error.relocate place) := by
  induction stack with
  | nil => rfl
  | cons h stack ih =>
    cases h with
    | openBrace _ => rfl
    | operator _ _ | function _ =>
      rw [List.map_cons, relocate, giveOutAll, giveOutAll, ih, mapError_map]

variable {span : Span → Span}

theorem givenAt_map_relocate (stack : List (Held α)) (x : Placed α) :
    givenAt (stack.map (relocate place)) (x.relocate span) = givenAt stack x := by
  simp only [givenAt, Placed.relocate, Token.relocate]
  cases x.1.content with
  | number _ | «variable» _ | function _ | openBrace _ => rfl
  | operator op =>
    simp only [List.takeWhile_map, goesBefore_comp_relocate, indices_map_relocate]
  | closeBrace _ | separator _ =>
    simp only [List.takeWhile_map, isCall_comp_relocate, indices_map_relocate]

variable {place} (hspan : ∀ s, (span s).start = place s.start)
include hspan

theorem after_map_relocate (stack : List (Held α)) (x : Placed α) :
    after (stack.map (relocate place)) (x.relocate span) = (after stack x).map (relocate place) := by
  simp only [after, Placed.relocate, Token.relocate]
  cases x.1.content with
  | number _ | «variable» _ | function _ => rfl
  | openBrace _ => simp only [List.map_cons, relocate, hspan]
  | operator op => simp only [List.dropWhile_map, goesBefore_comp_relocate, List.map_cons, relocate]
  | closeBrace _ => simp only [List.dropWhile_map, isCall_comp_relocate, List.map_tail]
  | separator _ => simp only [List.dropWhile_map, isCall_comp_relocate]

end Held

open Held

/-! ## Reordering and running -/

section Relocate

variable {span : Span → Span} {place : Nat → Nat} (hspan : ∀ s, (span s).start = place s.start)
include hspan

theorem Token.lone?_relocate (t : Token α) :
    (t.relocate span).lone? = t.lone?.map (Error.relocate place) := by
  rw [lone?, lone?, relocate]
  cases t.content <;> simp [Error.relocate, hspan]

/-- **Tokens are put into the same order wherever they stand**, and an error is moved with its
token. -/
theorem postorderFrom_relocate (stack : List (Held α)) (ts : List (Placed α)) :
    postorderFrom (stack.map (Held.relocate place)) (ts.map (Placed.relocate span)) =
      (postorderFrom stack ts).mapError (Error.relocate place) := by
  induction ts generalizing stack with
  | nil => exact giveOutAll_map_relocate place stack
  | cons x ts ih =>
    have hstarts := starts_map_relocate place stack
    rw [List.map_cons]
    rcases postorderFrom_cons stack x ts with ⟨hgroup, hnil, e, he, herror⟩ | ⟨hopen, hstep⟩ <;>
      rcases postorderFrom_cons (stack.map (Held.relocate place)) (x.relocate span)
        (ts.map (Placed.relocate span)) with ⟨hgroup', hnil', e', he', herror'⟩ | ⟨hopen', hstep'⟩
    · have heq : e' = e.relocate place := by
        have hlone := Token.lone?_relocate hspan x.1
        rw [he] at hlone
        exact Option.some.inj (he'.symm.trans hlone)
      rw [herror, herror', heq, mapError_error]
    · rw [hnil] at hstarts
      exact absurd hstarts (hopen' hgroup)
    · rw [hnil'] at hstarts
      exact absurd (List.map_eq_nil_iff.1 hstarts.symm) (hopen hgroup')
    · rw [hstep, hstep', givenAt_map_relocate, after_map_relocate hspan, ih, emit, emit, mapError_map]

theorem postorder_relocate (ts : List (Token α)) :
    postorder (ts.map (Token.relocate span)) =
      (postorder ts).mapError (Error.relocate place) := by
  rw [postorder, postorder, List.zipIdx_map]
  exact postorderFrom_relocate hspan [] ts.zipIdx

omit hspan in
theorem Token.select_relocate (ts : List (Token α)) (order : List Nat) :
    select (ts.map (relocate span)) order = (select ts order).map (relocate span) := by
  simp [select, List.map_filterMap]

variable {g : Grammar α}

theorem Expression.shunt_relocate (e : Expression g) :
    (e.relocate span).shunt =
      (e.shunt.map (relocate span)).mapError (Error.relocate place) := by
  cases hphase : e.phase with
  | operandsFirst => simp only [shunt, relocate, hphase, map_error, mapError_error, Error.relocate]
  | written =>
    simp only [shunt, relocate, hphase, postorder_relocate hspan, Token.select_relocate]
    cases postorder e.tokens <;> rfl

/-- **A token has the same effect wherever it stands**, and an error is moved with it. -/
theorem Token.runOn_relocate (value? : String → Option α) (stack : List α) (t : Token α) :
    (t.relocate span).runOn value? stack =
      (t.runOn value? stack).mapError (Error.relocate place) := by
  have hoperation : ∀ (o : Operation α) (name : String),
      o.performOn name stack = (o.performOn name stack).mapError (Error.relocate place) := by
    intro o name
    have hconcludes := o.performOn_concludes name stack
    cases hx : o.performOn name stack with
    | ok after => rfl
    | error e => rw [mapError_error, (hconcludes.of_eq_error hx).relocate]
  simp only [runOn, relocate]
  cases t.content with
  | number _ => rfl
  | «variable» name =>
    dsimp only
    cases value? name with
    | some value => rfl
    | none => simp only [mapError_error, Error.relocate, Option.map_some, hspan]
  | operator op => exact hoperation op.operation op.text
  | function f => exact hoperation f.operation f.name
  | openBrace _ | closeBrace _ | separator _ =>
    simp only [mapError_error, Error.relocate, Option.map_some, hspan]

theorem runOn_relocate (value? : String → Option α) (stack : List α) (ts : List (Token α)) :
    runOn value? stack (ts.map (Token.relocate span)) =
      (runOn value? stack ts).mapError (Error.relocate place) := by
  induction ts generalizing stack with
  | nil => rfl
  | cons t ts ih =>
    simp only [runOn, List.map_cons, List.foldlM_cons] at ih ⊢
    rw [mapError_bind, Token.runOn_relocate hspan]
    simp only [ih]

/-- **An expression has the same value wherever its tokens stand**, and an error is moved with its
token. -/
theorem Expression.evaluate_relocate (e : Expression g) (bindings : Bindings α) :
    (e.relocate span).evaluate bindings =
      (e.evaluate bindings).mapError (Error.relocate place) := by
  cases hphase : e.phase with
  | written => simp only [evaluate, relocate, hphase, mapError_error, Error.relocate]
  | operandsFirst =>
    have honly : ∀ stack : List α,
        onlyValue stack = (onlyValue stack).mapError (Error.relocate place) := by
      rintro (_ | ⟨_, _ | ⟨_, _⟩⟩) <;> rfl
    simp only [evaluate, relocate, hphase, runOn_relocate hspan, mapError_bind, ← honly]

end Relocate

end Reckon

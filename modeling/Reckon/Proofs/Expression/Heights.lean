import Mathlib.Data.List.Induction
import Reckon.Proofs.Expression.Balance
import Reckon.Proofs.Expression.Finds
import Reckon.Proofs.Expression.Resolved

/-!
# Proofs/Expression/Heights — how many values are on the stack

An operand adds a value to the stack, and an operation leaves one in the place of those it takes.
Where no token can fail for its value (`Token.Unfailing`), **a run on numbers of values goes as the
run on values goes** (`runOn_alike`).  Before a token there are as many values as there are tokens
before it, less the values that those take (`depth`), unless an operation has found too few of them
(`heights_of_fed`, `Starved.aritiesCome_eq`).
-/

namespace Reckon

variable {α : Type}

/-! ## A run on numbers -/

/-- The operation has a value for all operands, and its limiter accepts them. -/
def Operation.IsTotal (o : Operation α) : Prop :=
  ∀ (operands : List α) (h : operands.length = o.arity),
    o.permits operands = true ∧ ∃ v, o.native.body operands h = .ok v

namespace Token

/-- The number of values on the stack after a token, when there are `n` before it. -/
def heightAfter (n : Nat) (t : Token α) : Except Error Nat :=
  match t.operation? with
  | none => .ok (n + 1)
  | some (name, o) =>
    if n < o.arity then .error (.invalidArguments name o.arity n) else .ok (n - o.arity + 1)

/-- The token cannot fail for its value: it is resolved, and its operation, if it has one, is
total. -/
structure Unfailing (value? : String → Option α) (t : Token α) : Prop extends
    t.Resolved value? where
  total : ∀ name o, t.operation? = some (name, o) → o.IsTotal

end Token

/-- There are as many values on the stack. -/
def OfHeight (stack : List α) (n : Nat) : Prop := stack.length = n

section Run

variable {value? : String → Option α} {name : String} {o : Operation α} {t : Token α}
  {ts : List (Token α)}

/-- A total operation fails only for want of operands. -/
theorem Operation.IsTotal.performOn_alike (ho : o.IsTotal) (name : String) (stack : List α) :
    Alike OfHeight (o.performOn name stack)
      (if stack.length < o.arity then .error (.invalidArguments name o.arity stack.length)
        else .ok (stack.length - o.arity + 1)) := by
  rw [Operation.performOn]
  split
  · exact .error _
  · next hlen =>
    have hoperands : (stack.take o.arity).reverse.length = o.arity := by
      rw [List.length_reverse, List.length_take]
      omega
    obtain ⟨hpermits, v, hv⟩ := ho _ hoperands
    rw [Operation.perform, if_pos hpermits, o.call_of_length_eq hoperands, hv]
    exact .ok (by simp [OfHeight])

/-- **A token changes the number of values as it changes the values.** -/
theorem Token.Unfailing.runOn_alike (h : t.Unfailing value?) (stack : List α) :
    Alike OfHeight (t.runOn value? stack) (t.heightAfter stack.length) := by
  have htotal := h.total
  have hkept := h.kept
  unfold Token.operation? at htotal
  unfold Token.runOn Token.heightAfter Token.operation?
  match hc : t.content with
  | .number value => exact .ok rfl
  | .variable name =>
    obtain ⟨v, hv⟩ := h.value name hc
    simp only [hv]
    exact .ok rfl
  | .operator op => exact (htotal op.text op.operation (by simp only [hc])).performOn_alike _ stack
  | .function f => exact (htotal f.name f.operation (by simp only [hc])).performOn_alike _ stack
  | .openBrace _ | .closeBrace _ | .separator _ => simp [hc, Token.Content.isKept] at hkept

/-- **A run on numbers of values goes as the run on values goes**, and fails where it fails. -/
theorem runOn_alike (h : ∀ t ∈ ts, t.Unfailing value?) (stack : List α) :
    Alike OfHeight (runOn value? stack ts) (ts.foldlM Token.heightAfter stack.length) := by
  induction ts generalizing stack with
  | nil => exact .ok rfl
  | cons t ts ih =>
    rw [runOn, List.foldlM_cons, List.foldlM_cons]
    refine ((h t (by simp)).runOn_alike stack).bind fun after n hn => ?_
    obtain rfl : after.length = n := hn
    exact ih (fun u hu => h u (by simp [hu])) after

/-- One value must be left. -/
def onlyHeight (n : Nat) : Except Error Unit :=
  if n = 1 then .ok () else .error (.invalidSyntax .valuesLeftOver none)

theorem onlyValue_alike (stack : List α) :
    Alike (fun _ _ => True) (onlyValue stack) (onlyHeight stack.length) := by
  match stack with
  | [_] => exact .ok trivial
  | [] | _ :: _ :: _ => exact .error _

/-- What the arities of the tokens come to when they are run. -/
def aritiesCome (ts : List (Token α)) : Except Error Unit :=
  ts.foldlM Token.heightAfter 0 >>= onlyHeight

/-- **Where values cannot fail, the arities alone decide** whether an expression has a value, and
which error it fails with. -/
theorem Expression.evaluate_alike {g : Grammar α} {e : Expression g} {bindings : Bindings α}
    (hphase : e.phase = .operandsFirst) (h : ∀ t ∈ e.tokens, t.Unfailing (g.valueOf? bindings)) :
    Alike (fun _ _ => True) (e.evaluate bindings) (aritiesCome e.tokens) := by
  rw [evaluate, hphase]
  refine (runOn_alike h []).bind fun stack n hn => ?_
  obtain rfl : stack.length = n := hn
  exact onlyValue_alike stack

end Run

/-! ## The number of values before a token -/

section Depth

variable {name : String} {o : Operation α} {t : Token α} {ts before after : List (Token α)}

/-- The number of the tokens, less the number of the values that they take. -/
def depth (ts : List (Token α)) : Int :=
  ts.length - (((ts.map Token.content).map Token.Content.arity).sum : Nat)

/-- No operation among the tokens has fewer values before it than it takes. -/
def Fed (ts : List (Token α)) : Prop :=
  ∀ before t after name o, ts = before ++ t :: after → t.operation? = some (name, o) →
    (o.arity : Int) ≤ depth before

/-- Among the tokens the operation of the name is the first with fewer values before it than it
takes, and `before` are the tokens before it. -/
structure Starved (ts before : List (Token α)) (name : String) (o : Operation α) : Prop where
  fed : Fed before
  exists_split : ∃ t after, ts = before ++ t :: after ∧ t.operation? = some (name, o)
  few : depth before < o.arity

/-- A token takes the operands of its operation, or none. -/
theorem Token.arity_content_eq (t : Token α) :
    t.content.arity = t.operation?.elim 0 fun p => p.2.arity := by
  unfold operation?
  match t.content with
  | .number _ | .variable _ | .operator _ | .function _ | .openBrace _ | .closeBrace _
  | .separator _ => rfl

theorem depth_concat (ts : List (Token α)) (t : Token α) :
    depth (ts ++ [t]) = depth ts - t.content.arity + 1 := by
  simp only [depth, List.length_append, List.map_append, List.sum_append, List.map_cons,
    List.map_nil, List.sum_cons, List.sum_nil, List.length_singleton]
  omega

theorem fed_nil : Fed ([] : List (Token α)) := by
  intro before t after name o hsplit
  simp at hsplit

theorem fed_concat_iff :
    Fed (ts ++ [t]) ↔
      Fed ts ∧ ∀ name o, t.operation? = some (name, o) → (o.arity : Int) ≤ depth ts := by
  constructor
  · intro h
    refine ⟨fun before u after name o hsplit => ?_, fun name o => h ts t [] name o rfl⟩
    exact h before u (after ++ [t]) name o (by simp [hsplit])
  · rintro ⟨hts, ht⟩ before u after name o hsplit hu
    rcases List.eq_nil_or_concat after with rfl | ⟨after, x, rfl⟩
    · obtain ⟨rfl, hlast⟩ := List.append_inj' hsplit rfl
      obtain rfl : t = u := List.singleton_inj.1 hlast
      exact ht name o hu
    · rw [List.concat_eq_append, ← List.cons_append, ← List.append_assoc] at hsplit
      obtain ⟨rfl, -⟩ := List.append_inj' hsplit rfl
      exact hts before u after name o rfl hu

/-- **Where each operation finds enough values, their number is the depth.** -/
theorem heights_of_fed (h : Fed ts) :
    ∃ n : Nat, ts.foldlM Token.heightAfter 0 = .ok n ∧ (n : Int) = depth ts := by
  induction ts using List.reverseRecOn with
  | nil => exact ⟨0, rfl, rfl⟩
  | append_singleton ts t ih =>
    obtain ⟨hts, ht⟩ := fed_concat_iff.1 h
    obtain ⟨n, hrun, hn⟩ := ih hts
    rw [List.foldlM_append, hrun, ok_bind, List.foldlM_cons, Token.heightAfter, depth_concat,
      Token.arity_content_eq]
    cases hop : t.operation? with
    | none => exact ⟨n + 1, rfl, by rw [Option.elim_none]; omega⟩
    | some p =>
      obtain ⟨name, o⟩ := p
      have harity := ht name o hop
      rw [Option.elim_some]
      dsimp only
      rw [if_neg (by omega)]
      exact ⟨n - o.arity + 1, rfl, by omega⟩

/-- Where each operation finds enough values, it depends on the depth whether one is left. -/
theorem aritiesCome_of_fed (h : Fed ts) :
    aritiesCome ts =
      if depth ts = 1 then .ok () else .error (.invalidSyntax .valuesLeftOver none) := by
  obtain ⟨n, hrun, hn⟩ := heights_of_fed h
  have hone : n = 1 ↔ depth ts = 1 := by omega
  simp only [aritiesCome, hrun, ok_bind, onlyHeight, hone]

/-- **The first operation that finds too few values fails**, and tells how many there are. -/
theorem Starved.aritiesCome_eq (h : Starved ts before name o) :
    ∃ n : Nat, (n : Int) = depth before ∧
      aritiesCome ts = .error (.invalidArguments name o.arity n) := by
  obtain ⟨t, after, rfl, ht⟩ := h.exists_split
  obtain ⟨n, hrun, hn⟩ := heights_of_fed h.fed
  have hfew := h.few
  refine ⟨n, hn, ?_⟩
  rw [aritiesCome, List.foldlM_append, hrun, ok_bind, List.foldlM_cons, Token.heightAfter, ht]
  dsimp only
  rw [if_pos (by omega), error_bind, error_bind]

/-- Each operation finds enough values, or there is a first that does not. -/
theorem fed_or_exists_starved (ts : List (Token α)) :
    Fed ts ∨ ∃ before name o, Starved ts before name o := by
  induction ts using List.reverseRecOn with
  | nil => exact .inl fed_nil
  | append_singleton ts t ih =>
    rcases ih with hts | ⟨before, name, o, hstarved⟩
    · cases ht : t.operation? with
      | none => exact .inl (fed_concat_iff.2 ⟨hts, by simp [ht]⟩)
      | some p =>
        obtain ⟨name, o⟩ := p
        by_cases hfew : (o.arity : Int) ≤ depth ts
        · refine .inl (fed_concat_iff.2 ⟨hts, fun name' o' ht' => ?_⟩)
          obtain ⟨-, rfl⟩ := Prod.mk.inj (Option.some.inj (ht.symm.trans ht'))
          exact hfew
        · exact .inr ⟨ts, name, o, hts, ⟨t, [], rfl, ht⟩, Int.not_le.1 hfew⟩
    · obtain ⟨u, after, rfl, hu⟩ := hstarved.exists_split
      exact .inr ⟨before, name, o, hstarved.fed, ⟨u, after ++ [t], by simp, hu⟩, hstarved.few⟩

end Depth

end Reckon

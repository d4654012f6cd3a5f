import Reckon.Proofs.Expression.Grouping

/-!
# Proofs/Expression/PrefixGrouping — which texts tell the grouping of an operator before its operand

In the tokens of a text such an operator follows no operand and no other such operator.  So unless
it stands behind a function, the token before it is on top of the stack, or nothing is, and **the
grouping tells iff that token is an operator of its precedence** (`Grammar.postorder_regroup`): in
`1+-2` the sum is given out first, with one operand, if `+` and `-` bind alike.
-/

namespace Reckon

variable {α : Type}

open Held

/-- Behind the operator `u` between two operands stands one of its precedence before its operand. -/
def Token.ClashesWith (u t : Token α) : Prop :=
  ∃ held op, u.content = .operator held ∧ held.isPrefixOp = false ∧
    t.content = .operator op ∧ op.isPrefixOp = true ∧ held.precedence = op.precedence

theorem Token.Content.kind_eq_prefixOp_iff {c : Token.Content α} :
    c.kind = .prefixOp ↔ ∃ op, c = .operator op ∧ op.isPrefixOp = true := by
  match c with
  | .operator op => cases hplace : op.fixity <;> simp [kind, Operator.isPrefixOp, hplace]
  | number _ | .variable _ | function _ | openBrace _ | closeBrace _ | separator _ => simp [kind]

theorem Token.Content.kind_operator {op : Operator α} :
    (operator op).kind = if op.isPrefixOp = true then .prefixOp else .infixOp := by
  cases hplace : op.fixity <;> simp [kind, Operator.isPrefixOp, hplace]

section Neighbours

variable {stack : List (Held α)} {u x : Placed α} {t : Token α} {ts : List (Placed α)}

/-- **Behind an operator that one meets is what it clashes with**, and behind nothing else. -/
theorem meetsAlike_after_iff
    (hlexed : Seam.isLexed ⟨some u.1.content.kind, some t.content.kind⟩ = true)
    (hfunction : t.content.kind = .prefixOp → u.1.content.kind ≠ .function) :
    t.MeetsAlike (after stack u) ↔ u.1.ClashesWith t := by
  by_cases ht : t.content.kind = .prefixOp
  · obtain ⟨op, hop, hplace⟩ := Token.Content.kind_eq_prefixOp_iff.1 ht
    have hmeets : t.MeetsAlike (after stack u) ↔ ∃ i held below,
        (after stack u).dropWhile isFunction = .operator i held :: below ∧
          held.precedence = op.precedence := by
      constructor
      · rintro ⟨op', hop', -, hbelow⟩
        obtain rfl := Token.Content.operator.inj (hop.symm.trans hop')
        exact hbelow
      · exact fun hbelow => ⟨op, hop, hplace, hbelow⟩
    rw [hmeets]
    unfold after
    rw [ht] at hlexed
    match hu : u.1.content with
    | .number _ | .variable _ | .closeBrace _ =>
      rw [hu] at hlexed
      cases hlexed
    | .function f => exact absurd (by rw [hu]; rfl) (hfunction ht)
    | .openBrace _ => simp [Token.ClashesWith, hu, isFunction]
    | .separator _ =>
      have hbrace : ∀ i held below,
          (stack.dropWhile isCall).dropWhile isFunction ≠ .operator i held :: below := by
        rcases dropWhile_isCall_cases stack with ⟨hdrop, -⟩ | ⟨start, below, hdrop, -⟩
        · simp [hdrop]
        · simp [hdrop, isFunction]
      simp [Token.ClashesWith, hu, hbrace]
    | .operator held =>
      have hbetween : held.isPrefixOp = false := by
        rw [hu, Token.Content.kind_operator] at hlexed
        by_contra h
        rw [if_pos (by simpa using h)] at hlexed
        cases hlexed
      simp [Token.ClashesWith, hu, hop, hbetween, hplace, isFunction]
  · have hno : ∀ op, t.content = .operator op → op.isPrefixOp ≠ true := fun op hop hplace =>
      ht (Token.Content.kind_eq_prefixOp_iff.2 ⟨op, hop, hplace⟩)
    refine iff_of_false ?_ ?_
    · rintro ⟨op, hop, hplace, -⟩
      exact hno op hop hplace
    · rintro ⟨-, op, -, -, hop, hplace, -⟩
      exact hno op hop hplace

theorem neighbours_cons_cons_iff {β : Type} {v t a b : β} {l : List β} :
    [v, t] <:+: a :: b :: l ↔ v = a ∧ t = b ∨ [v, t] <:+: b :: l := by
  rw [List.infix_cons_iff, List.cons_prefix_cons, List.cons_prefix_cons]
  simp

/-- **In the tokens of a text operators meet where neighbours clash.** -/
theorem meetsAlike_after_iff_neighbours
    (hlexed : ∀ s ∈ Seam.all (some u.1.content.kind) (ts.map (·.1.content.kind)), s.isLexed = true)
    (hfunction : ∀ v t, [v, t] <:+: u.1 :: ts.map Prod.fst → t.content.kind = .prefixOp →
      v.content.kind ≠ .function) :
    MeetsAlike (after stack u) ts ↔
      ∃ v t, [v, t] <:+: u.1 :: ts.map Prod.fst ∧ v.ClashesWith t := by
  induction ts generalizing stack u with
  | nil =>
    refine iff_of_false nofun ?_
    rintro ⟨v, t, hpair, -⟩
    simpa using hpair.length_le
  | cons x ts ih =>
    simp only [List.map_cons, neighbours_cons_cons_iff] at hfunction ⊢
    simp only [List.map_cons, Seam.all, List.forall_mem_cons] at hlexed
    rw [meetsAlike_cons_iff, meetsAlike_after_iff hlexed.1 (hfunction u.1 x.1 (.inl ⟨rfl, rfl⟩)),
      ih hlexed.2 fun v t h => hfunction v t (.inr h)]
    constructor
    · rintro (h | ⟨v, t, hpair, h⟩)
      · exact ⟨u.1, x.1, .inl ⟨rfl, rfl⟩, h⟩
      · exact ⟨v, t, .inr hpair, h⟩
    · rintro ⟨v, t, ⟨rfl, rfl⟩ | hpair, h⟩
      · exact .inl h
      · exact .inr ⟨v, t, hpair, h⟩

/-- No operator is met where nothing is held back. -/
theorem meetsAlike_nil_iff_neighbours {ts : List (Token α)}
    (hlexed : ∀ s ∈ Seam.all none (ts.map (·.content.kind)), s.isLexed = true)
    (hfunction : ∀ v t, [v, t] <:+: ts → t.content.kind = .prefixOp → v.content.kind ≠ .function) :
    MeetsAlike [] ts.zipIdx ↔ ∃ v t, [v, t] <:+: ts ∧ v.ClashesWith t := by
  cases ts with
  | nil =>
    refine iff_of_false nofun ?_
    rintro ⟨v, t, hpair, -⟩
    simpa using hpair.length_le
  | cons t ts =>
    have hnow : ¬ t.MeetsAlike ([] : List (Held α)) := by
      rintro ⟨_, _, _, _, _, _, hnil, _⟩
      cases hnil
    have htail : (ts.zipIdx 1).map Prod.fst = ts := List.zipIdx_map_fst ..
    simp only [List.map_cons, Seam.all, List.forall_mem_cons] at hlexed
    rw [List.zipIdx_cons, meetsAlike_cons_iff, or_iff_right hnow, meetsAlike_after_iff_neighbours,
      htail]
    · rw [← htail, List.map_map] at hlexed
      exact hlexed.2
    · rwa [htail]

end Neighbours

/-! ## An operator behind an operator -/

section Signed

variable {x i p y : Token α} {op sign : Operator α}

theorem postorderFrom_operand {t : Token α} (h : t.content.isOperand = true)
    (stack : List (Held α)) (n : Nat) (s : List (Placed α)) :
    postorderFrom stack ((t, n) :: s) = emit [n] (postorderFrom stack s) := by
  match hc : t.content with
  | .number _ => exact postorderFrom_number hc
  | .variable _ => exact postorderFrom_variable hc
  | .operator _ | .function _ | .openBrace _ | .closeBrace _ | .separator _ =>
    rw [hc] at h
    cases h

/-- The second one is given out first, unless the first one goes before it. -/
theorem postorder_signed (hx : x.content.isOperand = true) (hi : i.content = .operator op)
    (hp : p.content = .operator sign) (hy : y.content.isOperand = true) :
    postorder [x, i, p, y] =
      .ok (if op.goesBefore sign = true then [0, 1, 3, 2] else [0, 3, 2, 1]) := by
  have hzip : [x, i, p, y].zipIdx = [(x, 0), (i, 1), (p, 2), (y, 3)] := rfl
  rw [postorder, hzip, postorderFrom_operand hx, postorderFrom_operator hi (keeps_nil op)]
  by_cases hfirst : op.goesBefore sign = true
  · have hyields : (Held.operator 1 op).YieldsTo [(p, 2), (y, 3)] := by
      simpa [YieldsTo, hp, Held.goesBefore] using hfirst
    rw [if_pos hfirst, postorderFrom_of_yieldsTo hyields,
      postorderFrom_operator hp (keeps_nil sign), postorderFrom_operand hy]
    rfl
  · rw [if_neg hfirst, postorderFrom_operator hp (keeps_operator_iff.2 (by simpa using hfirst)),
      postorderFrom_operand hy]
    rfl

/-- Regrouped, the second one is given out first iff it binds otherwise or is grouped to the
right. -/
theorem postorder_regroup_signed (hx : x.content.isOperand = true) (hi : i.content = .operator op)
    (hbetween : op.isPrefixOp = false) (hp : p.content = .operator sign)
    (hsign : sign.isPrefixOp = true) (hy : y.content.isOperand = true) (a : Associativity) :
    postorder ([x, i, p, y].map (Token.regroup a)) =
      .ok (if op.precedence = sign.precedence ∧ a.groupsLeft = true then [0, 1, 3, 2]
        else [0, 3, 2, 1]) := by
  have hoperand : ∀ {t : Token α}, t.content.isOperand = true →
      (t.regroup a).content.isOperand = true := by
    intro t ht
    unfold Token.regroup
    match hc : t.content with
    | .number _ | .variable _ => rfl
    | .operator _ | .function _ | .openBrace _ | .closeBrace _ | .separator _ =>
      rw [hc] at ht
      cases ht
  have hi' : (i.regroup a).content = .operator op := by
    rw [Token.content_regroup a hi, Operator.regroup_of_not_isPrefixOp a hbetween]
  rw [List.map_cons, List.map_cons, List.map_cons, List.map_cons, List.map_nil,
    postorder_signed (hoperand hx) hi' (Token.content_regroup a hp) (hoperand hy),
    goesBefore_of_isPrefixOp (Operator.isPrefixOp_regroup a hsign),
    Operator.regroup_of_isPrefixOp a hsign]
  simp only [Bool.and_eq_true, beq_iff_eq]

end Signed

/-! ## The tokens of a text -/

/-- **When the grouping of operators before their operands tells.**  It never decides whether the
tokens of a text are put into an order nor what is blamed if not.  It decides the order iff such an
operator meets one of its precedence while the tokens are read, and where no such operator stands
behind a function, iff one stands behind an operator of its precedence.  Of an operator and one
before its operand behind it the second one is given out first if it is grouped to the right, and if
it is grouped to the left, iff they do not bind alike. -/
theorem Grammar.postorder_regroup {g : Grammar α} {text : String} {ts : List (Token α)}
    (h : g.tokens text = .ok ts) :
    (∀ e, postorder (ts.map (Token.regroup .left)) = .error e ↔
        postorder (ts.map (Token.regroup .right)) = .error e) ∧
      (postorder (ts.map (Token.regroup .left)) = postorder (ts.map (Token.regroup .right)) ↔
        ∀ order, postorder (ts.map (Token.regroup .right)) = .ok order →
          ¬ MeetsAlike [] ts.zipIdx) ∧
      ((∀ u t, [u, t] <:+: ts → t.content.kind = .prefixOp → u.content.kind ≠ .function) →
        (MeetsAlike [] ts.zipIdx ↔ ∃ u t, [u, t] <:+: ts ∧ u.ClashesWith t)) ∧
      ∀ x i p y op sign, ts = [x, i, p, y] → x.content.isOperand = true →
        i.content = .operator op → op.isPrefixOp = false → p.content = .operator sign →
        sign.isPrefixOp = true → y.content.isOperand = true →
        postorder (ts.map (Token.regroup .right)) = .ok [0, 3, 2, 1] ∧
          (postorder (ts.map (Token.regroup .left)) = .ok [0, 3, 2, 1] ↔
            op.precedence ≠ sign.precedence) := by
  have halike : Alike (fun _ _ => True) (postorder (ts.map (Token.regroup .left)))
      (postorder (ts.map (Token.regroup .right))) := by
    rw [postorder, postorder, zipIdx_map_regroup, zipIdx_map_regroup]
    exact postorderFrom_regroup_alike .left .right rfl ts.zipIdx
  refine ⟨fun e => halike.eq_error_iff, ?_, ?_, ?_⟩
  · cases hright : postorder (ts.map (Token.regroup .right)) with
    | error e =>
      refine iff_of_true (halike.eq_error_iff.2 hright) fun order hok => ?_
      cases hok
    | ok order =>
      have hnodup : order.Nodup := by
        have hperm := (postorder_concludes _).of_eq_ok hright
        exact hperm.nodup_iff.2 (Token.keptIndices_nodup _)
      rw [postorder, zipIdx_map_regroup] at hright
      rw [postorder, zipIdx_map_regroup, postorderFrom_regroup_iff hright hnodup]
      exact ⟨fun hmeets _ _ => hmeets, fun hmeets => hmeets order rfl⟩
  · have hlexed : ∀ s ∈ Seam.all none (ts.map (·.content.kind)), s.isLexed = true := by
      have hscans := spells_iff_scans.1 (reads_iff.1 ⟨ts, h, rfl⟩).2
      have hnone : Expectation.operand = .behind none := rfl
      simpa [List.map_map, Function.comp_def] using hscans.isLexed hnone
    exact meetsAlike_nil_iff_neighbours hlexed
  · rintro x i p y op sign rfl hx hi hbetween hp hsign hy
    rw [postorder_regroup_signed hx hi hbetween hp hsign hy,
      postorder_regroup_signed hx hi hbetween hp hsign hy]
    refine ⟨by simp [Associativity.groupsLeft], ?_⟩
    by_cases hprec : op.precedence = sign.precedence <;> simp [hprec, Associativity.groupsLeft]

/-- The integers with a sum and a negation of the given precedence. -/
private def signedBy (n : Nat) : Grammar Int :=
  .ofDeclarations (fun numeral => if numeral = "2" then .ok 2 else .error ⟨"unknown numeral"⟩)
    [.infixOp '+' .left 1 (fun a b => .ok (a + b)) none, .prefixOp '-' n (fun a => .ok (-a)) none]

/-- The tokens of `2+-2`. -/
private def signedTokens (n : Nat) : List (Token Int) :=
  [⟨.number 2, .single 0⟩,
    ⟨.operator (.infixOf '+' .left 1 (fun a b => .ok (a + b)) .unbounded), .single 1⟩,
    ⟨.operator (.prefixOf '-' n (fun a => .ok (-a)) .unbounded), .single 2⟩,
    ⟨.number 2, .single 3⟩]

private theorem tokens_signedBy (n : Nat) : (signedBy n).tokens "2+-2" = .ok (signedTokens n) := by
  with_unfolding_all rfl

/-- Where the negation binds tighter, its grouping does not tell. -/
theorem Grammar.postorder_regroup_tighter :
    (signedBy 5).tokens "2+-2" = .ok (signedTokens 5) ∧
      postorder ((signedTokens 5).map (Token.regroup .left)) = .ok [0, 3, 2, 1] := by
  have htokens := tokens_signedBy 5
  obtain ⟨-, -, -, hsigned⟩ := postorder_regroup htokens
  obtain ⟨-, hleft⟩ := hsigned _ _ _ _ _ _ rfl rfl rfl rfl rfl rfl rfl
  exact ⟨htokens, hleft.2 (by decide)⟩

/-- Where it binds like the sum, its grouping tells. -/
theorem Grammar.postorder_regroup_alike :
    (signedBy 1).tokens "2+-2" = .ok (signedTokens 1) ∧
      postorder ((signedTokens 1).map (Token.regroup .left)) = .ok [0, 1, 3, 2] ∧
      postorder ((signedTokens 1).map (Token.regroup .right)) = .ok [0, 3, 2, 1] :=
  ⟨tokens_signedBy 1, rfl, rfl⟩

end Reckon

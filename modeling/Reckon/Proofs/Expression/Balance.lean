import Mathlib.Algebra.GroupWithZero.Nat
import Reckon.Proofs.Expression.Composition

/-!
# Proofs/Expression/Balance — where operands are missing and where there are too many

Nothing in the reading of a text asks that an operator has its operands; only the number of values
on the stack tells.  That number balances **places where an operand is missing against operands that
stand directly behind others** (`Grammar.balance_of_parseAndRun`): an operator may stand at the end
of its group if there is a surplus elsewhere, and all operators stand before their operands if there
is none.
-/

namespace Reckon

variable {α : Type}

/-! ## Kinds of tokens, and the seams between them -/

/-- What a token is to the tokens beside it. -/
inductive Token.Kind where
  /-- A number or a variable. -/
  | leaf
  | prefixOp
  | infixOp
  | function
  | openBrace
  | closeBrace
  | separator
deriving DecidableEq, Repr

/-- The kind of a token. -/
def Token.Content.kind : Token.Content α → Token.Kind
  | number _ | .variable _ => .leaf
  | operator op =>
    match op.fixity with
    | .prefixOp => .prefixOp
    | .infixOp => .infixOp
  | function _ => .function
  | openBrace _ => .openBrace
  | closeBrace _ => .closeBrace
  | separator _ => .separator

namespace Token.Kind

/-- Whether an operand starts with the token. -/
def startsOperand : Kind → Bool
  | leaf | function | openBrace => true
  | prefixOp | infixOp | closeBrace | separator => false

/-- Whether an operand ends with the token. -/
def endsOperand : Kind → Bool
  | leaf | closeBrace => true
  | prefixOp | infixOp | function | openBrace | separator => false

/-- Whether a group or a part of it ends with the token. -/
def isStop : Kind → Bool
  | closeBrace | separator => true
  | leaf | prefixOp | infixOp | function | openBrace => false

end Token.Kind

/-- A place between two tokens, before the first one or behind the last one. -/
structure Seam where
  left : Option Token.Kind
  right : Option Token.Kind
deriving DecidableEq, Repr

namespace Seam

/-- The seams of a list of tokens behind the token `left`. -/
def all (left : Option Token.Kind) : List Token.Kind → List Seam
  | [] => [⟨left, none⟩]
  | k :: ks => ⟨left, some k⟩ :: all (some k) ks

variable (s : Seam)

/-- Whether an operand has just ended. -/
def endsOperand : Bool := s.left.any (·.endsOperand)

/-- Whether an operator on the left is followed by what it stands before: an operand, or also an
operator before an operand if it stands between two itself. -/
def isServed : Bool :=
  match s.left with
  | some .prefixOp => s.right.any (·.startsOperand)
  | some .infixOp => s.right.any fun k => k.startsOperand || k = .prefixOp
  | _ => true

/-- Whether an operator is the last token of its group or of a part of it. -/
def isDangling : Bool :=
  (s.left = some .prefixOp || s.left = some .infixOp) && s.right.all (·.isStop)

/-- Whether a group or a part of it ends where an operand is missing. -/
def isGap : Bool := !s.endsOperand && s.right.all (·.isStop)

/-- Whether an operand starts directly behind another one. -/
def isSurplus : Bool := s.endsOperand && s.right.any (·.startsOperand)

/-- Whether a group has nothing in it. -/
def isEmptyGroup : Bool := s.left = some .openBrace && s.right = some .closeBrace

/-- Whether an operator on the right may stand there: one before its operand does not follow an
operand nor another such operator, and one between operands follows an operand. -/
def isLexed : Bool :=
  match s.right with
  | some .prefixOp => !s.endsOperand && s.left ≠ some .prefixOp
  | some .infixOp => s.endsOperand
  | _ => true

variable {s} {left : Option Token.Kind} {ks : List Token.Kind}

/-- **An operator stands before its operand or at the end of its group**, wherever the reader takes
it for one. -/
theorem isServed_or_isDangling (h : s.isLexed = true) :
    s.isServed = true ∨ s.isDangling = true := by
  obtain ⟨left, right⟩ := s
  revert h
  rcases left with _ | left
  · exact fun _ => .inl rfl
  · rcases right with _ | right
    · cases left <;> decide
    · cases left <;> cases right <;> decide

/-- A gap is where an operator dangles, or in an empty group, but not both. -/
theorem isDangling_add_isEmptyGroup (s : Seam) :
    (if s.isDangling = true then 1 else 0) + (if s.isEmptyGroup = true then 1 else 0) ≤
      if s.isGap = true then 1 else 0 := by
  obtain ⟨left, right⟩ := s
  rcases left with _ | left
  · simp [isDangling, isEmptyGroup]
  · rcases right with _ | right
    · cases left <;> decide
    · cases left <;> cases right <;> decide

theorem countP_isDangling_add_isEmptyGroup (seams : List Seam) :
    seams.countP isDangling + seams.countP isEmptyGroup ≤ seams.countP isGap := by
  induction seams with
  | nil => simp
  | cons s seams ih =>
    have hs := isDangling_add_isEmptyGroup s
    simp only [List.countP_cons]
    omega

/-- One token, and the seam before it: what has ended before it and after it differ as follows. -/
theorem leaf_add_isGap {k : Token.Kind} (h : isLexed ⟨left, some k⟩ = true) :
    (if k = .leaf then 1 else 0) + (if isGap ⟨left, some k⟩ = true then 1 else 0) +
        (if left.any (·.endsOperand) = true then 1 else 0) =
      (if k = .infixOp then 1 else 0) + (if isSurplus ⟨left, some k⟩ = true then 1 else 0) +
        (if k = .separator then 1 else 0) + if k.endsOperand = true then 1 else 0 := by
  revert h
  rcases left with _ | left
  · cases k <;> decide
  · cases left <;> cases k <;> decide

/-- **What is missing balances what is there too often, over all seams.** -/
theorem leaves_add_gaps (h : ∀ s ∈ all left ks, s.isLexed = true) :
    ks.count .leaf + (all left ks).countP isGap +
        (if left.any (·.endsOperand) = true then 1 else 0) =
      ks.count .infixOp + 1 + (all left ks).countP isSurplus + ks.count .separator := by
  induction ks generalizing left with
  | nil =>
    cases hleft : left.any (·.endsOperand) <;>
      simp [all, isGap, isSurplus, endsOperand, hleft]
  | cons k ks ih =>
    have hstep := leaf_add_isGap (h ⟨left, some k⟩ (by simp [all]))
    have hrest := ih fun s (hs : s ∈ all (some k) ks) => h s (by simp [all, hs])
    simp only [Option.any_some] at hrest
    simp only [all, List.countP_cons, List.count_cons, beq_iff_eq]
    omega

end Seam

/-! ## What the reader takes for an operator -/

section Lexed

variable {g : Grammar α} {expected : Expectation} {offset n : Nat} {c : Char} {cs : List Char}
  {content : Token.Content α} {contents : List (Token.Content α)}

/-- What may stand behind a token of a kind, or at the start of a text. -/
def Expectation.behind : Option Token.Kind → Expectation
  | none | some .infixOp | some .function | some .openBrace | some .separator => .operand
  | some .prefixOp => .bareOperand
  | some .leaf | some .closeBrace => .operator

theorem Expectation.after_eq_behind (content : Token.Content α) :
    after content = behind (some content.kind) := by
  match content with
  | .operator op => cases hplace : op.fixity <;> simp [after, Token.Content.kind, behind, hplace]
  | .number _ | .variable _ | .function _ | .openBrace _ | .closeBrace _ | .separator _ => rfl

/-- An operator is read where its glyph stands for it. -/
theorem Grammar.operatorAt?_of_contentAt {op : Operator α}
    (h : g.contentAt expected offset c cs = .ok (.operator op, n)) :
    g.operatorAt? expected c = some op := by
  rw [contentAt] at h
  cases hop : g.operatorAt? expected c with
  | some found =>
    simp only [hop, Except.ok.injEq, Prod.mk.injEq, Token.Content.operator.injEq] at h
    rw [h.1]
  | none =>
    simp only [hop] at h
    split_ifs at h
    · obtain ⟨content, hread, heq⟩ := map_eq_ok_iff.1 h
      obtain ⟨rfl, -⟩ := Prod.mk.inj heq
      rw [contentOfName] at hread
      split at hread
      · cases hread
      · split_ifs at hread
        cases hread
    · obtain ⟨content, hread, heq⟩ := map_eq_ok_iff.1 h
      obtain ⟨rfl, -⟩ := Prod.mk.inj heq
      rw [contentOfNumeral] at hread
      split at hread <;> cases hread
    · obtain ⟨content, hread, heq⟩ := map_eq_ok_iff.1 h
      obtain ⟨rfl, -⟩ := Prod.mk.inj heq
      rw [contentOfMark] at hread
      split_ifs at hread <;> cases hread

/-- **Operators are read where operators of their place may stand.** -/
theorem Grammar.isLexed_of_contentAt {left : Option Token.Kind}
    (h : g.contentAt (.behind left) offset c cs = .ok (content, n)) :
    Seam.isLexed ⟨left, some content.kind⟩ = true := by
  match content with
  | .number _ | .variable _ | .function _ | .openBrace _ | .closeBrace _ | .separator _ => rfl
  | .operator op =>
    have hop := operatorAt?_of_contentAt h
    cases hexpected : Expectation.behind left with
    | operand =>
      rw [hexpected] at hop
      have hkind : (Token.Content.operator op).kind = .prefixOp := by
        simp [Token.Content.kind, g.prefix_fixity _ _ hop]
      rw [hkind]
      revert hexpected
      rcases left with _ | left
      · decide
      · cases left <;> decide
    | operator =>
      rw [hexpected] at hop
      have hkind : (Token.Content.operator op).kind = .infixOp := by
        simp [Token.Content.kind, g.infix_fixity _ _ hop]
      rw [hkind]
      revert hexpected
      rcases left with _ | left
      · decide
      · cases left <;> decide
    | bareOperand =>
      rw [hexpected] at hop
      cases hop

theorem Grammar.Scans.isLexed (h : g.Scans expected cs contents) {left : Option Token.Kind}
    (hleft : expected = .behind left) :
    ∀ s ∈ Seam.all left (contents.map Token.Content.kind), s.isLexed = true := by
  induction h generalizing left with
  | done => simp [Seam.all, Seam.isLexed]
  | space _ _ ih => exact ih hleft
  | @token expected c more rest content contents _ read _ ih =>
    rw [hleft] at read
    simp only [List.map_cons, Seam.all, List.mem_cons, forall_eq_or_imp]
    exact ⟨isLexed_of_contentAt (read 0), ih (Expectation.after_eq_behind content)⟩

end Lexed

/-! ## The number of values on the stack -/

namespace Token.Content

/-- How many values a token takes off the stack. -/
def arity : Token.Content α → Nat
  | operator op => op.operation.arity
  | function f => f.operation.arity
  | number _ | .variable _ | openBrace _ | closeBrace _ | separator _ => 0

/-- How many arguments a function takes, if the token is one. -/
def callArity : Token.Content α → Nat
  | function f => f.arity
  | number _ | .variable _ | operator _ | openBrace _ | closeBrace _ | separator _ => 0

theorem arity_filter_isKept (cs : List (Token.Content α)) :
    ((cs.filter isKept).map arity).sum = (cs.map arity).sum := by
  induction cs with
  | nil => rfl
  | cons c cs ih =>
    cases c <;> simp [List.filter_cons, isKept, arity, ih]

/-- The tokens that are kept, and the values that they take. -/
theorem countP_isKept (cs : List (Token.Content α)) :
    cs.countP isKept + (cs.map kind).count .infixOp + (cs.map callArity).sum =
      (cs.map kind).count .leaf + (cs.map kind).count .function + (cs.map arity).sum := by
  induction cs with
  | nil => rfl
  | cons c cs ih =>
    simp only [List.countP_cons, List.map_cons, List.count_cons, List.sum_cons]
    match c with
    | .operator op =>
      cases hplace : op.fixity <;>
        simp [isKept, kind, callArity, arity, op.arity_eq, hplace, Fixity.arity] <;> omega
    | .function f =>
      simp [isKept, kind, callArity, arity, NamedFunction.arity]
      omega
    | .number _ | .variable _ | .openBrace _ | .closeBrace _ | .separator _ =>
      simp [isKept, kind, callArity, arity]
      omega

end Token.Content

section Stack

open Token.Content

variable {g : Grammar α} {bindings : Bindings α}

theorem Token.arity_content {t : Token α} {n : Nat} (h : t.arity? = some n) :
    t.content.arity = n := by
  match hc : t.content with
  | .number _ | .variable _ | .operator op | .function f =>
    simpa [arity?, hc, Token.Content.arity] using h
  | .openBrace _ | .closeBrace _ | .separator _ => simp [arity?, hc] at h

/-- **Each token leaves one value in the place of those that it takes.** -/
theorem length_add_arities {ts : List (Token α)} {stack after : List α}
    (h : runOn (g.valueOf? bindings) stack ts = .ok after) :
    after.length + ((ts.map Token.content).map arity).sum = stack.length + ts.length := by
  induction ts generalizing stack with
  | nil =>
    obtain rfl : stack = after := Except.ok.inj h
    simp
  | cons t ts ih =>
    rw [runOn, List.foldlM_cons] at h
    obtain ⟨between, ht, hts⟩ := bind_eq_ok_iff.1 h
    obtain ⟨n, v, harity, hn, -, rfl⟩ := Token.runOn_eq_ok ht
    have hrest := ih hts
    simp only [List.length_cons, List.length_drop, List.map_cons, List.sum_cons,
      Token.arity_content harity] at hrest ⊢
    omega

theorem Expression.length_of_evaluate {e : Expression g} {v : α}
    (h : e.evaluate bindings = .ok v) :
    1 + ((e.tokens.map Token.content).map arity).sum = e.tokens.length := by
  have hrun : runOn (g.valueOf? bindings) [] e.tokens = .ok [v] :=
    puts_of_evaluate h e.tokens rfl []
  simpa using length_add_arities hrun

/-- **A text with a value has as many leaves, beyond one, as its operators between operands and the
further arguments of its functions ask for.** -/
theorem Grammar.leaves_of_parseAndRun {text : String} {v : α}
    (h : g.parseAndRun text bindings = .ok v) :
    ∃ cs, g.Reads text cs ∧ (cs.map kind).count .infixOp + (cs.map callArity).sum + 1 =
      (cs.map kind).count .leaf + (cs.map kind).count .function := by
  obtain ⟨e, hparse, hv⟩ := bind_eq_ok_iff.1 h
  obtain ⟨cs, hreads, harrange⟩ := exists_parse_iff.1 ⟨e, hparse, phase_of_parse hparse, rfl⟩
  refine ⟨cs, hreads, ?_⟩
  have hperm : (e.tokens.map Token.content).Perm (cs.filter isKept) := by
    simpa using arrange_perm harrange
  have hrun := Expression.length_of_evaluate hv
  have hlength : e.tokens.length = cs.countP isKept := by
    simpa [List.countP_eq_length_filter] using hperm.length_eq
  rw [(hperm.map arity).sum_nat, arity_filter_isKept, hlength] at hrun
  have hkept := countP_isKept cs
  omega

/-- **Operators stand before their operands, unless a surplus makes up for them.**  In a text with
a value each operator is followed by what it stands before, or else is the last token of its group
or of a part of it.  The operands that are missing in this or in another way, and the arguments that
the functions take, are as many as the functions, the operands directly behind others and the
separators together.  So if no operand stands directly behind another one and there are not more
separators than the arguments of the functions ask for, each operator is followed by what it stands
before. -/
theorem Grammar.balance_of_parseAndRun {text : String} {v : α}
    (h : g.parseAndRun text bindings = .ok v) :
    ∃ cs, g.Reads text cs ∧
      (∀ s ∈ Seam.all none (cs.map kind), s.isServed = true ∨ s.isDangling = true) ∧
      (Seam.all none (cs.map kind)).countP Seam.isGap + (cs.map callArity).sum =
        (cs.map kind).count .function + (Seam.all none (cs.map kind)).countP Seam.isSurplus +
          (cs.map kind).count .separator ∧
      ((Seam.all none (cs.map kind)).countP Seam.isSurplus = 0 →
        (cs.map kind).count .separator + (cs.map kind).count .function ≤
          (cs.map callArity).sum + (Seam.all none (cs.map kind)).countP Seam.isEmptyGroup →
        ∀ s ∈ Seam.all none (cs.map kind), s.isServed = true) := by
  obtain ⟨cs, hreads, hleaves⟩ := leaves_of_parseAndRun h
  have hlexed : ∀ s ∈ Seam.all none (cs.map kind), s.isLexed = true :=
    (spells_iff_scans.1 (reads_iff.1 hreads).2).isLexed rfl
  have hserved : ∀ s ∈ Seam.all none (cs.map kind), s.isServed = true ∨ s.isDangling = true :=
    fun s hs => Seam.isServed_or_isDangling (hlexed s hs)
  have hgaps := Seam.leaves_add_gaps hlexed
  have hdangling := Seam.countP_isDangling_add_isEmptyGroup (Seam.all none (cs.map kind))
  simp only [Option.any_none, Bool.false_eq_true, if_false, Nat.add_zero] at hgaps
  refine ⟨cs, hreads, hserved, by omega, fun hsurplus hseparators s hs => ?_⟩
  have hnone : (Seam.all none (cs.map kind)).countP Seam.isDangling = 0 := by omega
  exact (hserved s hs).resolve_right (List.countP_eq_zero.1 hnone s hs)

/-- The integers with a sum and a negation. -/
private def signed : Grammar Int :=
  .ofDeclarations (fun numeral => if numeral = "2" then .ok 2 else .error ⟨"unknown numeral"⟩)
    [.infixOp '+' .left 1 (fun a b => .ok (a + b)) none, .prefixOp '-' 5 (fun a => .ok (-a)) none]

private def signedPlus : Operator Int := .infixOf '+' .left 1 (fun a b => .ok (a + b)) .unbounded

private def signedMinus : Operator Int := .prefixOf '-' 5 (fun a => .ok (-a)) .unbounded

theorem Grammar.balance_of_parseAndRun_signed :
    signed.parseAndRun "2+-2" ∅ = .ok 0 ∧ ∃ cs, signed.Reads "2+-2" cs ∧
      cs.map kind = [.leaf, .infixOp, .prefixOp, .leaf] ∧
      ∀ s ∈ Seam.all none (cs.map kind), s.isServed = true := by
  have hvalue : signed.parseAndRun "2+-2" ∅ = .ok 0 := by decide +kernel
  obtain ⟨cs, hreads, -, -, hserved⟩ := balance_of_parseAndRun hvalue
  have htokens : signed.tokens "2+-2" = .ok [⟨.number 2, .single 0⟩,
      ⟨.operator signedPlus, .single 1⟩, ⟨.operator signedMinus, .single 2⟩,
      ⟨.number 2, .single 3⟩] := by
    with_unfolding_all rfl
  obtain rfl := hreads.unique ⟨_, htokens, rfl⟩
  exact ⟨hvalue, _, hreads, rfl, hserved (by decide) (by decide)⟩

/-- In `2(-)` a brace follows the negation, and in `2 2 +` nothing follows the sum. -/
theorem Grammar.balance_of_parseAndRun_dangling :
    (signed.parseAndRun "2(-)" ∅ = .ok (-2) ∧
      signed.Reads "2(-)"
        [.number 2, .openBrace '(', .operator signedMinus, .closeBrace ')'] ∧
      ⟨some .prefixOp, some .closeBrace⟩ ∈ Seam.all none
        ([.number 2, .openBrace '(', .operator signedMinus, .closeBrace ')'].map kind) ∧
      Seam.isServed ⟨some .prefixOp, some .closeBrace⟩ = false) ∧
    signed.parseAndRun "2 2 +" ∅ = .ok 4 ∧
      signed.Reads "2 2 +" [.number 2, .number 2, .operator signedPlus] ∧
      ⟨some .infixOp, none⟩ ∈
        Seam.all none ([.number 2, .number 2, .operator signedPlus].map kind) ∧
      Seam.isServed ⟨some .infixOp, none⟩ = false := by
  have hprefix : signed.tokens "2(-)" = .ok [⟨.number 2, .single 0⟩, ⟨.openBrace '(', .single 1⟩,
      ⟨.operator signedMinus, .single 2⟩, ⟨.closeBrace ')', .single 3⟩] := by
    with_unfolding_all rfl
  have hinfix : signed.tokens "2 2 +" = .ok [⟨.number 2, .single 0⟩, ⟨.number 2, .single 2⟩,
      ⟨.operator signedPlus, .single 4⟩] := by
    with_unfolding_all rfl
  exact ⟨⟨by decide +kernel, ⟨_, hprefix, rfl⟩, by decide, rfl⟩,
    by decide +kernel, ⟨_, hinfix, rfl⟩, by decide, rfl⟩

end Stack

end Reckon

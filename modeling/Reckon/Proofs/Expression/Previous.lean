import Reckon.Proofs.Expression.Balance
import Reckon.Proofs.Expression.Located
import Reckon.Proofs.Expression.Progress

/-!
# Proofs/Expression/Previous — what a glyph stands for depends on the token before it

Before an operand, and only there, a glyph stands for an operator before its operand, and behind an
operand, and only there, for one between two operands.  **Where an operand starts or has ended, the
token before alone tells** (`Expectation.following_eq_behind`), whatever white space lies between, so
which operator a glyph stands for depends on nothing else (`Grammar.operator_of_previous`).
-/

namespace Reckon

variable {α : Type}

/-- What a token is to the tokens beside it. -/
def Token.kind (t : Token α) : Token.Kind := t.content.kind

/-- Whether an operand is to follow the token, or an operator before one. -/
def Token.Kind.awaitsOperand : Token.Kind → Bool
  | infixOp | function | openBrace | separator => true
  | leaf | prefixOp | closeBrace => false

namespace Expectation

variable {left : Option Token.Kind}

/-- **What may stand behind tokens shows in the last one.** -/
theorem following_eq_behind (ts : List (Token α)) :
    operand.following (ts.map Token.content) = behind (ts.getLast?.map Token.kind) := by
  induction ts using List.reverseRecOn with
  | nil => rfl
  | append_singleton ts t _ =>
    simp only [List.map_append, List.map_cons, List.map_nil, List.getLast?_append,
      List.getLast?_singleton, Option.some_or, Option.map_some, following, List.foldl_append,
      List.foldl_cons, List.foldl_nil]
    exact after_eq_behind t.content

theorem behind_eq_operand_iff :
    behind left = .operand ↔ left.all Token.Kind.awaitsOperand = true := by
  rcases left with _ | left
  · decide
  · cases left <;> decide

theorem behind_eq_operator_iff :
    behind left = .operator ↔ left.any Token.Kind.endsOperand = true := by
  rcases left with _ | left
  · decide
  · cases left <;> decide

end Expectation

namespace Grammar

variable {g : Grammar α} {expected : Expectation} {offset n : Nat} {c : Char} {cs : List Char}
  {op : Operator α} {content : Token.Content α}

/-- **The place of an operator is the one that is expected.** -/
theorem fixity_of_operatorAt? (h : g.operatorAt? expected c = some op) :
    (op.fixity = .prefixOp ↔ expected = .operand) ∧
      (op.fixity = .infixOp ↔ expected = .operator) := by
  cases expected with
  | operand => simp [g.prefix_fixity c op h]
  | operator => simp [g.infix_fixity c op h]
  | bareOperand => cases h

/-- **A glyph that stands for an operator is read as it.** -/
theorem content_of_operatorAt? (hop : g.operatorAt? expected c = some op)
    (h : g.contentAt expected offset c cs = .ok (content, n)) : content = .operator op := by
  simp only [contentAt, hop, Except.ok.injEq, Prod.mk.injEq] at h
  exact h.1.symm

variable {text : String} {e : Expression g} {us vs : List (Token α)} {t : Token α}

/-- Each token is read as the one before it lets it be read. -/
theorem exists_contentAt_of_tokenize (h : g.tokenize text = .ok e)
    (hsplit : e.tokens = us ++ t :: vs) :
    ∃ c rest n, text.toList[t.span.start]? = some c ∧
      g.contentAt (.behind (us.getLast?.map Token.kind)) t.span.start c rest =
        .ok (t.content, n) := by
  obtain ⟨-, -, hscans⟩ := scansBefore_of_tokenize h
  rw [hsplit] at hscans
  obtain ⟨before, c, more, after, htext, -, hspan, hread⟩ := hscans.exists_of_append
  rw [Expectation.following_eq_behind] at hread
  refine ⟨c, _, _, ?_, hread⟩
  rw [htext, hspan, Nat.zero_add, List.getElem?_append_right (Nat.le_refl _), Nat.sub_self]
  rfl

/-- An operator is the one that its glyph stands for behind the token before it. -/
theorem operatorAt?_of_tokenize (h : g.tokenize text = .ok e) (hsplit : e.tokens = us ++ t :: vs)
    (ht : t.content = .operator op) :
    g.operatorAt? (.behind (us.getLast?.map Token.kind)) op.symbol = some op := by
  obtain ⟨c, rest, n, -, hread⟩ := exists_contentAt_of_tokenize h hsplit
  rw [ht] at hread
  have hop := operatorAt?_of_contentAt hread
  obtain ⟨rfl, -⟩ := mem_operators_of_operatorAt? hop
  exact hop

/-- **Which operator a glyph stands for depends on the token before it alone.**  It is one before its
operand iff there is no token before it, or an operator between operands, a function, a brace that
opens or a separator; it is one between operands iff a number, a variable or a brace that closes is
before it; so no operator follows one before its operand.  Conversely a glyph of both kinds stands
for the former or the latter where a token that begins with it has such a token before it.  As the
places of the tokens do not count, white space between them does not either: an operator is the same
in every text in which its glyph follows a token of the same kind. -/
theorem operator_of_previous (g : Grammar α) {text : String} {e : Expression g}
    (h : g.tokenize text = .ok e) {us vs : List (Token α)} {t : Token α}
    (hsplit : e.tokens = us ++ t :: vs) :
    (∀ op, t.content = .operator op →
      (op.fixity = .prefixOp ↔ (us.getLast?.map Token.kind).all Token.Kind.awaitsOperand = true) ∧
        (op.fixity = .infixOp ↔ (us.getLast?.map Token.kind).any Token.Kind.endsOperand = true)) ∧
      (us.getLast?.map Token.kind = some .prefixOp → ∀ op, t.content ≠ .operator op) ∧
      (∀ (c : Char) (before between : Operator α), g.prefixOperators.get? c = some before →
        g.infixOperators.get? c = some between → text.toList[t.span.start]? = some c →
          (t.content = .operator before ↔
            (us.getLast?.map Token.kind).all Token.Kind.awaitsOperand = true) ∧
          (t.content = .operator between ↔
            (us.getLast?.map Token.kind).any Token.Kind.endsOperand = true)) ∧
      ∀ (text' : String) (e' : Expression g) (us' vs' : List (Token α)) (t' : Token α),
        g.tokenize text' = .ok e' → e'.tokens = us' ++ t' :: vs' →
          us'.getLast?.map Token.kind = us.getLast?.map Token.kind →
            ∀ op op', t.content = .operator op → t'.content = .operator op' →
              op.symbol = op'.symbol → op = op' := by
  have hfixity : ∀ op, t.content = .operator op →
      (op.fixity = .prefixOp ↔ (us.getLast?.map Token.kind).all Token.Kind.awaitsOperand = true) ∧
        (op.fixity = .infixOp ↔ (us.getLast?.map Token.kind).any Token.Kind.endsOperand = true) := by
    intro op ht
    rw [← Expectation.behind_eq_operand_iff, ← Expectation.behind_eq_operator_iff]
    exact fixity_of_operatorAt? (operatorAt?_of_tokenize h hsplit ht)
  refine ⟨hfixity, ?_, ?_, ?_⟩
  · intro hprevious op ht
    have hop := operatorAt?_of_tokenize h hsplit ht
    rw [hprevious] at hop
    cases hop
  · intro c before between hbefore hbetween hc
    obtain ⟨d, rest, n, hd, hread⟩ := exists_contentAt_of_tokenize h hsplit
    obtain rfl : d = c := Option.some.inj (hd.symm.trans hc)
    refine ⟨⟨fun ht => (hfixity before ht).1.1 (g.prefix_fixity d before hbefore), fun hleft => ?_⟩,
      ⟨fun ht => (hfixity between ht).2.1 (g.infix_fixity d between hbetween), fun hleft => ?_⟩⟩
    · have hop : g.operatorAt? .operand d = some before := hbefore
      rw [Expectation.behind_eq_operand_iff.2 hleft] at hread
      exact content_of_operatorAt? hop hread
    · have hop : g.operatorAt? .operator d = some between := hbetween
      rw [Expectation.behind_eq_operator_iff.2 hleft] at hread
      exact content_of_operatorAt? hop hread
  · intro text' e' us' vs' t' h' hsplit' hprevious op op' ht ht' hsymbol
    have hop := operatorAt?_of_tokenize h hsplit ht
    have hop' := operatorAt?_of_tokenize h' hsplit' ht'
    rw [hprevious, ← hsymbol] at hop'
    exact Option.some.inj (hop.symm.trans hop')

private def opposite : Operator Int := .prefixOf '-' 5 (fun a => .ok (-a)) .unbounded

private def less : Operator Int := .infixOf '-' .left 1 (fun a b => .ok (a - b)) .unbounded

/-- The integers with a negation and a difference of one glyph. -/
private def differences : Grammar Int :=
  .ofDeclarations (fun numeral => if numeral = "2" then .ok 2 else .error ⟨"unknown numeral"⟩)
    [.prefixOp '-' 5 (fun a => .ok (-a)) none,
      .infixOp '-' .left 1 (fun a b => .ok (a - b)) none]

private def differenceTokens : List (Token Int) :=
  [⟨.operator opposite, 0, 1⟩, ⟨.number 2, 1, 2⟩, ⟨.operator less, 2, 3⟩,
    ⟨.operator opposite, 4, 5⟩, ⟨.openBrace '(', 6, 7⟩, ⟨.operator opposite, 7, 8⟩,
    ⟨.number 2, 8, 9⟩, ⟨.closeBrace ')', 9, 10⟩]

/-- With white space before it or not, the glyph is a negation but directly behind the number. -/
theorem operator_of_previous_difference :
    differences.tokenize "-2- - (-2)" = .ok (.ofTokens differenceTokens) ∧
      differenceTokens = differenceTokens.take 3 ++ ⟨.operator opposite, 4, 5⟩ ::
        differenceTokens.drop 4 ∧
      (opposite.fixity = .prefixOp ↔
        ((differenceTokens.take 3).getLast?.map Token.kind).all Token.Kind.awaitsOperand = true) ∧
      (opposite.fixity = .infixOp ↔
        ((differenceTokens.take 3).getLast?.map Token.kind).any Token.Kind.endsOperand = true) := by
  have htokens : differences.tokenize "-2- - (-2)" = .ok (.ofTokens differenceTokens) := by
    with_unfolding_all rfl
  have hsplit : (Expression.ofTokens differenceTokens : Expression differences).tokens =
      differenceTokens.take 3 ++ ⟨.operator opposite, 4, 5⟩ :: differenceTokens.drop 4 := rfl
  obtain ⟨hfixity, -, -, -⟩ := operator_of_previous differences htokens hsplit
  exact ⟨htokens, hsplit, hfixity opposite rfl⟩

end Grammar

end Reckon

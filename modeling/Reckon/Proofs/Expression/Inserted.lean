import Reckon.Proofs.Expression.Relocated

/-!
# Proofs/Expression/Inserted — white space between tokens

A white-space character that carries on neither a name nor a numeral may be put anywhere into a text
but within a token: **the text is read, put into order and run as before**, and what stands behind the
character has moved by one place (`Grammar.whitespace_irrelevant`).
-/

namespace Reckon

variable {α : Type}

/-- The text with a character put in at a place. -/
def Text.insertAt (text : String) (p : Nat) (c : Char) : String :=
  String.ofList (text.toList.take p ++ c :: text.toList.drop p)

/-- Where a place of a text is when a character has been put in at `p`. -/
def Text.placeAfter (p q : Nat) : Nat := if p ≤ q then q + 1 else q

/-- Where the span of a token is when a character has been put in at `p`. -/
def Span.shiftFrom (p : Nat) (s : Span) : Span := if p ≤ s.start then s.shift 1 else s

theorem Span.start_shiftFrom (p : Nat) (s : Span) :
    (s.shiftFrom p).start = Text.placeAfter p s.start := by
  rw [shiftFrom, Text.placeAfter]
  split <;> rfl

namespace Grammar

variable {g : Grammar α} {w : Char}

/-- **White space between two tokens moves those behind it by one place.** -/
theorem ScansBefore.insert {cs : List Char} {ts : List (Token α)} {expected : Expectation} {p : Nat}
    (h : g.ScansBefore [] expected 0 cs ts) (hspace : g.isWhitespace w = true)
    (hname : Token.isNamePart w = false) (hpoint : w ≠ '.') (hp : p ≤ cs.length)
    (hwhole : ∀ t ∈ ts, ¬ (t.span.start < p ∧ p < t.span.stop)) :
    g.ScansBefore [] expected 0 (cs.take p ++ w :: cs.drop p)
      (ts.map (Token.relocate (Span.shiftFrom p))) := by
  have hwhole : ∀ t ∈ ts, ¬ (t.span.start < 0 + p ∧ 0 + p < t.span.stop) := by simpa using hwhole
  obtain ⟨us, vs, rfl, hus, hvs⟩ := h.divide hp hwhole
  have hlength : (cs.take p).length = p := by simp [hp]
  have hbefore : us.map (Token.relocate (Span.shiftFrom p)) = us := by
    conv_rhs => rw [← List.map_id us]
    refine List.map_congr_left fun t ht => ?_
    obtain ⟨-, hstart, hstop⟩ := hus.bounds ht
    rw [Token.relocate, Span.shiftFrom, if_neg (by omega), id]
  have hbehind : vs.map (Token.relocate (Span.shiftFrom p)) =
      vs.map (Token.relocate (Span.shift 1)) := by
    refine List.map_congr_left fun t ht => ?_
    obtain ⟨hstart, -, -⟩ := hvs.bounds ht
    rw [Token.relocate, Token.relocate, Span.shiftFrom, if_pos (by omega)]
  have hbreak : BeginsLike (cs.drop p ++ []) (w :: cs.drop p ++ []) := fun d hd => by
    obtain rfl : w = d := by simpa using hd
    exact .inr ⟨hname, Token.isNumeralPart_eq_false hname hpoint⟩
  rw [List.map_append, hbefore, hbehind]
  refine (hus.before hbreak).append (.space hspace ?_)
  rw [hlength]
  exact hvs.shift 1

variable {text : String} {p : Nat} {e : Expression g}

/-- **White space between two tokens is read over**: the tokens behind it have moved by one place. -/
theorem tokenize_insertAt (h : g.tokenize text = .ok e) (hspace : g.isWhitespace w = true)
    (hname : Token.isNamePart w = false) (hpoint : w ≠ '.') (hp : p ≤ text.length)
    (hwhole : ∀ t ∈ e.tokens, ¬ (t.span.start < p ∧ p < t.span.stop)) :
    g.tokenize (Text.insertAt text p w) = .ok (e.relocate (Span.shiftFrom p)) := by
  obtain ⟨-, hofTokens, hscans⟩ := scansBefore_of_tokenize h
  have hlonger := hscans.insert hspace hname hpoint (by rwa [String.length_toList]) hwhole
  have hne : Text.insertAt text p w ≠ "" := fun hempty => by
    simpa [Text.insertAt] using congrArg String.toList hempty
  rw [hofTokens, Expression.relocate_ofTokens]
  exact ScansBefore.tokenize_eq_ok (by rwa [Text.insertAt, String.toList_ofList]) hne

/-- **White space between tokens does not count.**  A white-space character that carries on neither a
name nor a numeral may be put anywhere into a text but within a token: the text has the same tokens
and variables as before, and each token behind the character has moved by one place.  So the text is
put into the same order and has the same value, or it has the same error, which has moved with its
token. -/
theorem whitespace_irrelevant (g : Grammar α) {w : Char} {text : String} {p : Nat}
    {e : Expression g} (hspace : g.isWhitespace w = true) (halphabetic : Text.isAlphabetic w = false)
    (hnumeric : Text.isNumeric w = false) (hpoint : w ≠ '.') (h : g.tokenize text = .ok e)
    (hp : p ≤ text.length)
    (hwhole : ∀ t ∈ e.tokens, ¬ (t.span.start < p ∧ p < t.span.stop)) :
    (∃ e', g.tokenize (Text.insertAt text p w) = .ok e' ∧
        e'.tokens.map Token.content = e.tokens.map Token.content ∧ e'.names = e.names ∧
        e'.tokens.map Token.span = e.tokens.map fun t => t.span.shiftFrom p) ∧
      (g.parse (Text.insertAt text p w)).map (·.tokens.map Token.content) =
        ((g.parse text).map (·.tokens.map Token.content)).mapError
          (Error.relocate (Text.placeAfter p)) ∧
      ∀ bindings, g.parseAndRun (Text.insertAt text p w) bindings =
        (g.parseAndRun text bindings).mapError (Error.relocate (Text.placeAfter p)) := by
  have hname : Token.isNamePart w = false := by rw [Token.isNamePart, halphabetic, hnumeric]; rfl
  have htokenize := tokenize_insertAt h hspace hname hpoint hp hwhole
  have hparse : g.parse (Text.insertAt text p w) =
      ((g.parse text).map (Expression.relocate (Span.shiftFrom p))).mapError
        (Error.relocate (Text.placeAfter p)) := by
    rw [parse, parse, htokenize, h, ok_bind, ok_bind,
      Expression.shunt_relocate (Span.start_shiftFrom p)]
  refine ⟨⟨_, htokenize, e.map_content_relocate _, rfl, e.map_span_relocate _⟩, ?_,
    fun bindings => ?_⟩
  · rw [hparse, ← mapError_map, map_map]
    simp only [Expression.map_content_relocate]
  · rw [parseAndRun, parseAndRun, hparse, mapError_bind]
    cases g.parse text with
    | error e => rfl
    | ok x => exact x.evaluate_relocate (Span.start_shiftFrom p) bindings

/-- The integers with a negation and a difference of one glyph, and with variables. -/
private def signedTerms : Grammar Int :=
  .ofDeclarations (fun numeral => if numeral = "2" then .ok 2 else .error ⟨"unknown numeral"⟩)
    [.prefixOp '-' 5 (fun a => .ok (-a)) none,
      .infixOp '-' .left 1 (fun a b => .ok (a - b)) none, .freeVariables true]

private def signedTermTokens : List (Token Int) :=
  [⟨.operator (.prefixOf '-' 5 (fun a => .ok (-a)) .unbounded), 0, 1⟩, ⟨.number 2, 1, 2⟩,
    ⟨.operator (.infixOf '-' .left 1 (fun a b => .ok (a - b)) .unbounded), 2, 3⟩,
    ⟨.variable "x", 3, 4⟩]

/-- A line break behind the negation leaves it one, and moves the fault of a variable without a
value. -/
theorem whitespace_irrelevant_negation :
    signedTerms.tokenize "-2-x" = .ok (.ofTokens signedTermTokens) ∧
      Text.insertAt "-2-x" 1 '\n' = "-\n2-x" ∧
      (∃ e', signedTerms.tokenize "-\n2-x" = .ok e' ∧
        e'.tokens.map Token.content = signedTermTokens.map Token.content ∧
        e'.tokens.map Token.span = [⟨0, 1⟩, ⟨2, 3⟩, ⟨3, 4⟩, ⟨4, 5⟩]) ∧
      signedTerms.parseAndRun "-2-x" {} = .error (.invalidName "x" (some 3)) ∧
      signedTerms.parseAndRun "-\n2-x" {} = .error (.invalidName "x" (some 4)) := by
  have htokens : signedTerms.tokenize "-2-x" = .ok (.ofTokens signedTermTokens) := by
    with_unfolding_all rfl
  have hinsert : Text.insertAt "-2-x" 1 '\n' = "-\n2-x" := by decide
  have hvalue : signedTerms.parseAndRun "-2-x" {} = .error (.invalidName "x" (some 3)) := by
    with_unfolding_all rfl
  have hwhole : ∀ t ∈ signedTermTokens, ¬ (t.span.start < 1 ∧ 1 < t.span.stop) := by
    simp [signedTermTokens]
  have hspace : signedTerms.isWhitespace '\n' = true := by decide
  obtain ⟨⟨e', he', hcontent, -, hspan⟩, -, hrun⟩ :=
    whitespace_irrelevant signedTerms hspace (by decide) (by decide) (by decide) htokens (by decide)
      hwhole
  rw [hinsert] at he' hrun
  refine ⟨htokens, hinsert, ⟨e', he', hcontent, hspan⟩, hvalue, ?_⟩
  rw [hrun, hvalue]
  rfl

end Grammar

end Reckon

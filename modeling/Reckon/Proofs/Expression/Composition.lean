import Mathlib.Data.List.Forall2
import Reckon.Proofs.Expression.Arranged
import Reckon.Proofs.Expression.PhraseValue
import Reckon.Proofs.Expression.Scan

/-!
# Proofs/Expression/Composition — texts in the place of operands

A text that has a value, whatever it looks like, is an operand once it stands in braces: within a
longer text **it is read, put into order and run as it is alone**.  So an operator between or before
braced texts, or a function of texts, has the outcome of its operation on their values
(`Grammar.parseAndRun_composed`).
-/

namespace Reckon

variable {α : Type}

/-! ## Braced texts -/

namespace Grammar

variable (g : Grammar α)

/-- A text in braces. -/
def braced (text : String) : String :=
  String.ofList (g.openBrace :: (text.toList ++ [g.closeBrace]))

/-- Texts one after the other, with the separator between each two. -/
def separated (texts : List String) : String :=
  String.ofList ([g.separator].intercalate (texts.map String.toList))

/-- The contents of tokens in braces. -/
def bracedContents (contents : List (Token.Content α)) : List (Token.Content α) :=
  .openBrace g.openBrace :: (contents ++ [.closeBrace g.closeBrace])

/-- The contents of tokens with separators between the lists. -/
def separatedContents (lists : List (List (Token.Content α))) : List (Token.Content α) :=
  [.separator g.separator].intercalate lists

variable {g} {expected : Expectation} {text : String} {texts : List String} {rest : List Char}
  {contents others : List (Token.Content α)} {lists : List (List (Token.Content α))}

theorem reads_iff : g.Reads text contents ↔ text ≠ "" ∧ g.Spells .operand text.toList contents := by
  by_cases htext : text = ""
  · simp [Reads, tokens, htext]
  · rw [Reads, tokens, if_neg (by simpa using htext), Cursor.ofText]
    refine ⟨?_, fun h => h.2 0⟩
    rintro ⟨ts, hts, rfl⟩
    exact ⟨htext, spells_iff_scans.2 (scans_of_tokensFrom hts)⟩

variable (hg : g.MarksApart)
include hg

/-- **A text in braces is read as it is alone.** -/
theorem spells_braced (h : g.Spells .operand text.toList contents)
    (hrest : g.Spells .operator rest others) :
    g.Spells expected ((g.braced text).toList ++ rest) (g.bracedContents contents ++ others) := by
  simp only [braced, bracedContents, String.toList_ofList, List.cons_append, List.append_assoc,
    List.nil_append]
  exact spells_openBrace hg (h.append (breaks_of_isMark hg isMark_closeBrace)
    (spells_closeBrace hg hrest))

/-- Texts with separators between them are read one after the other. -/
theorem spells_separated
    (h : List.Forall₂ (fun text contents => g.Spells .operand text.toList contents) texts lists) :
    g.Spells .operand (g.separated texts).toList (g.separatedContents lists) := by
  rw [separated, String.toList_ofList]
  induction h with
  | nil => exact spells_nil
  | @cons text contents texts lists hfirst hothers ih =>
    cases hothers with
    | nil => simpa [separatedContents] using hfirst
    | cons =>
      rw [List.map_cons, List.map_cons, separatedContents, List.intercalate_cons_cons,
        List.intercalate_cons_cons, List.append_assoc, List.append_assoc]
      exact hfirst.append (breaks_of_isMark hg isMark_separator) (spells_separator hg ih)

end Grammar

/-! ## Their order -/

namespace Token.Content

variable {g : Grammar α} {stack cs rest out : List (Token.Content α)}
  {lists outs : List (List (Token.Content α))} {o c : Char}

/-- Lists in braces, with separators between them, are arranged one after the other. -/
theorem arrange_separated (h : List.Forall₂ (fun cs out => arrange [] cs = some out) lists outs) :
    arrange (openBrace o :: stack) (g.separatedContents lists ++ closeBrace c :: rest) =
      (arrange stack rest).map (outs.flatten ++ ·) := by
  have hempty : closeGroup? (openBrace o :: stack) = some ([], openBrace o :: stack) := rfl
  induction h with
  | nil => simp [Grammar.separatedContents, arrange, hempty]
  | @cons cs out lists outs hfirst hothers ih =>
    cases hothers with
    | nil =>
      have hwithin : arrange ([] ++ openBrace o :: stack) (cs ++ closeBrace c :: rest) =
          (arrange (openBrace o :: stack) (closeBrace c :: rest)).map (out ++ ·) :=
        arrange_within hfirst ⟨c, rest, .inl rfl⟩
      simpa [Grammar.separatedContents, arrange, hempty] using hwithin
    | cons =>
      rw [Grammar.separatedContents] at ih ⊢
      rw [List.intercalate_cons_cons, List.append_assoc, List.append_assoc]
      rw [← List.nil_append (openBrace o :: stack), List.singleton_append,
        arrange_within hfirst ⟨_, _, .inr rfl⟩]
      simp [arrange, hempty, ih, Function.comp_def]

/-- **A list in braces is arranged as it is alone.** -/
theorem arrange_braced (h : arrange [] cs = some out) :
    arrange stack (g.bracedContents cs ++ rest) = (arrange stack rest).map (out ++ ·) := by
  have hone : g.separatedContents [cs] = cs := by simp [Grammar.separatedContents]
  have hlists : List.Forall₂ (fun cs out => arrange [] cs = some out) [cs] [out] := .cons h .nil
  rw [Grammar.bracedContents, List.cons_append, List.append_assoc, List.singleton_append, arrange,
    ← hone, arrange_separated hlists, List.flatten_singleton]

end Token.Content

/-! ## Their values -/

section Values

variable {g : Grammar α} {bindings : Bindings α} {out : List (Token.Content α)}
  {outs : List (List (Token.Content α))} {v : α} {vs : List α}

/-- Where a token runs, any token that stands for the same does. -/
theorem Token.runOn_eq_ok_of_content {value? : String → Option α} {t u : Token α}
    (htu : t.content = u.content) {stack after : List α} (h : t.runOn value? stack = .ok after) :
    u.runOn value? stack = .ok after := by
  simp only [runOn, htu] at h ⊢
  cases hc : u.content with
  | number | operator | function => simpa [hc] using h
  | «variable» name => cases hv : value? name <;> simp_all
  | openBrace | closeBrace | separator => simp [hc] at h

/-- Whether tokens run, and to which stack, depends on what they stand for. -/
theorem runOn_eq_ok_of_contents {value? : String → Option α} {ts us : List (Token α)}
    (htu : ts.map Token.content = us.map Token.content) {stack after : List α}
    (h : runOn value? stack ts = .ok after) : runOn value? stack us = .ok after := by
  induction ts generalizing us stack with
  | nil => simpa [List.map_eq_nil_iff.1 htu.symm] using h
  | cons t ts ih =>
    obtain ⟨u, us, rfl, hut, husts⟩ := List.map_eq_cons_iff.1 htu.symm
    rw [runOn, List.foldlM_cons] at h ⊢
    obtain ⟨between, ht, hts⟩ := bind_eq_ok_iff.1 h
    rw [Token.runOn_eq_ok_of_content hut.symm ht, ok_bind]
    exact ih husts.symm hts

/-- Tokens of these contents put one value on any stack. -/
def Puts (g : Grammar α) (bindings : Bindings α) (out : List (Token.Content α)) (v : α) : Prop :=
  ∀ ts : List (Token α), ts.map Token.content = out → ∀ stack,
    runOn (g.valueOf? bindings) stack ts = .ok (v :: stack)

/-- **What gives a value gives it on top of any stack.** -/
theorem puts_of_evaluate {e : Expression g} (h : e.evaluate bindings = .ok v) :
    Puts g bindings (e.tokens.map Token.content) v := by
  obtain ⟨tree, hfits, hpost, hv⟩ := Expression.exists_tree_of_evaluate h
  intro ts hts stack
  refine runOn_eq_ok_of_contents hts.symm ?_
  rw [← hpost, runOn_postorder hfits, hv, map_ok]

theorem runOn_flatten (h : List.Forall₂ (Puts g bindings) outs vs) {ts : List (Token α)}
    (hts : ts.map Token.content = outs.flatten) (stack : List α) :
    runOn (g.valueOf? bindings) stack ts = .ok (vs.reverse ++ stack) := by
  induction h generalizing ts stack with
  | nil => simp [List.map_eq_nil_iff.1 hts]
  | cons hout _ ih =>
    obtain ⟨us, ws, rfl, hus, hws⟩ := List.map_eq_append_iff.1 hts
    rw [runOn_append, hout us hus, ok_bind, ih hws, List.reverse_cons, List.append_assoc,
      List.singleton_append]

/-- An operation behind what puts its operands on the stack has its outcome on them. -/
theorem runOn_flatten_concat (h : List.Forall₂ (Puts g bindings) outs vs) {t : Token α}
    (ht : t.arity? = some vs.length) {ts : List (Token α)}
    (hts : ts.map Token.content = outs.flatten ++ [t.content]) :
    ∃ u : Token α, u.content = t.content ∧ runOn (g.valueOf? bindings) [] ts =
      (u.outcome g bindings vs).map ([·]) := by
  obtain ⟨us, ws, rfl, hus, hws⟩ := List.map_eq_append_iff.1 hts
  obtain ⟨u, rfl, hu⟩ := List.map_eq_singleton_iff.1 hws
  have harity : u.arity? = some vs.length := by simpa only [Token.arity?, hu] using ht
  refine ⟨u, hu, ?_⟩
  rw [runOn_append, runOn_flatten h hus, ok_bind, runOn_singleton, Token.runOn_append harity]

end Values

/-! ## Texts in the place of operands -/

namespace Grammar

variable {g : Grammar α} {bindings : Bindings α} {text : String} {texts : List String} {v : α}
  {vs : List α} {contents : List (Token.Content α)} {lists outs : List (List (Token.Content α))}

/-- A text is read as tokens that are put into an order in which they give a value. -/
structure Gives (g : Grammar α) (bindings : Bindings α) (text : String)
    (contents out : List (Token.Content α)) (v : α) : Prop where
  spelled : g.Spells .operand text.toList contents
  arranged : Token.Content.arrange [] contents = some out
  puts : Puts g bindings out v

theorem exists_gives (h : g.parseAndRun text bindings = .ok v) :
    ∃ contents out, g.Gives bindings text contents out v := by
  obtain ⟨e, hparse, hv⟩ := bind_eq_ok_iff.1 h
  obtain ⟨contents, hreads, harrange⟩ :=
    exists_parse_iff.1 ⟨e, hparse, phase_of_parse hparse, rfl⟩
  exact ⟨contents, _, (reads_iff.1 hreads).2, harrange, puts_of_evaluate hv⟩

theorem exists_all_gives
    (h : List.Forall₂ (fun text v => g.parseAndRun text bindings = .ok v) texts vs) :
    ∃ lists outs, List.Forall₂ (fun text cs => g.Spells .operand text.toList cs) texts lists ∧
      List.Forall₂ (fun cs out => Token.Content.arrange [] cs = some out) lists outs ∧
      List.Forall₂ (Puts g bindings) outs vs := by
  induction h with
  | nil => exact ⟨[], [], .nil, .nil, .nil⟩
  | cons hfirst _ ih =>
    obtain ⟨contents, out, hspelled, harranged, hputs⟩ := exists_gives hfirst
    obtain ⟨lists, outs, hlists, houts, hvs⟩ := ih
    exact ⟨contents :: lists, out :: outs, .cons hspelled hlists, .cons harranged houts,
      .cons hputs hvs⟩

/-- A text whose tokens come out as an operation behind its operands has its outcome on them. -/
theorem exists_parseAndRun_eq_outcome (hreads : g.Reads text contents) {t : Token α}
    (harrange : Token.Content.arrange [] contents = some (outs.flatten ++ [t.content]))
    (houts : List.Forall₂ (Puts g bindings) outs vs) (ht : t.arity? = some vs.length) :
    ∃ u : Token α, u.content = t.content ∧
      g.parseAndRun text bindings = u.outcome g bindings vs := by
  obtain ⟨e, hparse, hphase, htokens⟩ := exists_parse_iff.2 ⟨contents, hreads, harrange⟩
  obtain ⟨u, hu, hrun⟩ := runOn_flatten_concat houts ht htokens
  refine ⟨u, hu, ?_⟩
  rw [parseAndRun, hparse, ok_bind, Expression.evaluate, hphase]
  simp only [hrun]
  cases u.outcome g bindings vs <;> rfl

theorem parseAndRun_eq_operator (hreads : g.Reads text contents) {op : Operator α}
    (harrange : Token.Content.arrange [] contents = some (outs.flatten ++ [.operator op]))
    (houts : List.Forall₂ (Puts g bindings) outs vs) (hop : op.fixity.arity = vs.length) :
    g.parseAndRun text bindings = op.operation.outcome op.text vs := by
  obtain ⟨u, hu, hrun⟩ := exists_parseAndRun_eq_outcome (t := ⟨.operator op, .single 0⟩) hreads
    harrange houts (by simp [Token.arity?, op.arity_eq, hop])
  rw [hrun, Phrase.outcome_operator hu]

theorem parseAndRun_eq_function (hreads : g.Reads text contents) {f : NamedFunction α}
    (harrange : Token.Content.arrange [] contents = some (outs.flatten ++ [.function f]))
    (houts : List.Forall₂ (Puts g bindings) outs vs) (hf : f.arity = vs.length) :
    g.parseAndRun text bindings = f.operation.outcome f.name vs := by
  have harity : f.operation.arity = vs.length := hf
  obtain ⟨u, hu, hrun⟩ := exists_parseAndRun_eq_outcome (t := ⟨.function f, .single 0⟩) hreads
    harrange houts (by simp [Token.arity?, harity])
  rw [hrun, Phrase.outcome_function hu]

section Composed

variable (hg : g.MarksApart) {a b : String} {va vb : α} {op : Operator α} {f : NamedFunction α}
include hg

theorem parseAndRun_infixed (hop : g.infixOperators.get? op.symbol = some op)
    (ha : g.parseAndRun a bindings = .ok va) (hb : g.parseAndRun b bindings = .ok vb) :
    g.parseAndRun (g.braced a ++ op.text ++ g.braced b) bindings =
      op.operation.outcome op.text [va, vb] := by
  obtain ⟨as, aout, hareads, hasorted, haputs⟩ := exists_gives ha
  obtain ⟨bs, bout, hbreads, hbsorted, hbputs⟩ := exists_gives hb
  have hplace : op.fixity = .infixOp := g.infix_fixity _ _ hop
  have hreads : g.Reads (g.braced a ++ op.text ++ g.braced b)
      (g.bracedContents as ++ .operator op :: (g.bracedContents bs ++ [])) := by
    refine reads_iff.2 ⟨by simp [braced], ?_⟩
    have hafter : Expectation.after (.operator op) = .operand := by
      simp [Expectation.after, hplace]
    have hglyph : g.IsGlyph op.symbol := isGlyph_of_infix hop
    have htext : (g.braced a ++ op.text ++ g.braced b).toList =
        (g.braced a).toList ++ op.symbol :: ((g.braced b).toList ++ []) := by
      simp [Operator.text]
    rw [htext]
    refine spells_braced hg hareads (spells_operator hg hop hglyph ?_)
    rw [hafter]
    exact spells_braced hg hbreads spells_nil
  refine parseAndRun_eq_operator hreads ?_ (.cons haputs (.cons hbputs .nil))
    (by simp [hplace, Fixity.arity])
  rw [Token.Content.arrange_braced hasorted, Token.Content.arrange, List.takeWhile_nil,
    List.dropWhile_nil, Token.Content.arrange_braced hbsorted]
  simp [Token.Content.arrange, Token.Content.isCall]

theorem parseAndRun_prefixed (hop : g.prefixOperators.get? op.symbol = some op)
    (ha : g.parseAndRun a bindings = .ok va) :
    g.parseAndRun (op.text ++ g.braced a) bindings = op.operation.outcome op.text [va] := by
  obtain ⟨as, aout, hareads, hasorted, haputs⟩ := exists_gives ha
  have hplace : op.fixity = .prefixOp := g.prefix_fixity _ _ hop
  have hreads : g.Reads (op.text ++ g.braced a)
      (.operator op :: (g.bracedContents as ++ [])) := by
    refine reads_iff.2 ⟨by simp [braced], ?_⟩
    have hglyph : g.IsGlyph op.symbol := isGlyph_of_prefix hop
    have htext : (op.text ++ g.braced a).toList = op.symbol :: ((g.braced a).toList ++ []) := by
      simp [Operator.text]
    rw [htext]
    exact spells_operator hg hop hglyph (spells_braced hg hareads spells_nil)
  refine parseAndRun_eq_operator hreads ?_ (.cons haputs .nil) (by simp [hplace, Fixity.arity])
  rw [Token.Content.arrange, List.takeWhile_nil, List.dropWhile_nil,
    Token.Content.arrange_braced hasorted]
  simp [Token.Content.arrange, Token.Content.isCall]

theorem parseAndRun_call (hname : Token.IsName f.name) (hf : g.functions.get? f.name = some f)
    (htexts : List.Forall₂ (fun text v => g.parseAndRun text bindings = .ok v) texts vs)
    (harity : f.arity = texts.length) :
    g.parseAndRun (f.name ++ g.braced (g.separated texts)) bindings =
      f.operation.outcome f.name vs := by
  obtain ⟨lists, outs, hlists, houts, hvs⟩ := exists_all_gives htexts
  have hreads : g.Reads (f.name ++ g.braced (g.separated texts))
      (.function f :: (g.bracedContents (g.separatedContents lists) ++ [])) := by
    refine reads_iff.2 ⟨by simp [braced], ?_⟩
    have hbreaks : Breaks ((g.braced (g.separated texts)).toList ++ []) := by
      rw [braced, String.toList_ofList]
      exact breaks_of_isMark hg isMark_openBrace
    have htext : (f.name ++ g.braced (g.separated texts)).toList =
        f.name.toList ++ ((g.braced (g.separated texts)).toList ++ []) := by simp
    rw [htext]
    exact spells_name hg hname hbreaks (fun offset => by simp [contentOfName, hf])
      (spells_braced hg (spells_separated hg hlists) spells_nil)
  refine parseAndRun_eq_function hreads ?_ hvs (harity.trans htexts.length_eq)
  rw [Token.Content.arrange, bracedContents, List.append_nil, Token.Content.arrange,
    Token.Content.arrange_separated houts]
  simp [Token.Content.arrange, Token.Content.isCall]

/-- A text in braces is parsed as it is without them. -/
theorem exists_parse_braced {e : Expression g} (h : g.parse a = .ok e) :
    ∃ e' : Expression g, g.parse (g.braced a) = .ok e' ∧ e'.phase = e.phase ∧
      e'.tokens.map Token.content = e.tokens.map Token.content := by
  obtain ⟨contents, hreads, harrange⟩ := exists_parse_iff.1 ⟨e, h, phase_of_parse h, rfl⟩
  have hbraced : g.Reads (g.braced a) (g.bracedContents contents ++ []) := by
    refine reads_iff.2 ⟨by simp [braced], ?_⟩
    rw [← List.append_nil (g.braced a).toList]
    exact spells_braced hg (reads_iff.1 hreads).2 spells_nil
  obtain ⟨e', hparse, hphase, htokens⟩ :=
    exists_parse_iff.2 ⟨_, hbraced, Token.Content.arrange_braced harrange⟩
  exact ⟨e', hparse, hphase.trans (phase_of_parse h).symm, by simpa using htokens⟩

/-- **Texts compose.**  Where marks are told apart, texts that have values may stand in braces for
the operands of any operator, and as they are for the arguments of any function that can be called
by its name; the whole text then has the outcome of the operation on these values.  Braces around a
whole text change nothing. -/
theorem parseAndRun_composed (bindings : Bindings α) :
    (∀ (op : Operator α) (a b : String) (va vb : α),
      g.infixOperators.get? op.symbol = some op → g.parseAndRun a bindings = .ok va →
      g.parseAndRun b bindings = .ok vb →
      g.parseAndRun (g.braced a ++ op.text ++ g.braced b) bindings =
        op.operation.outcome op.text [va, vb]) ∧
    (∀ (op : Operator α) (a : String) (va : α), g.prefixOperators.get? op.symbol = some op →
      g.parseAndRun a bindings = .ok va →
      g.parseAndRun (op.text ++ g.braced a) bindings = op.operation.outcome op.text [va]) ∧
    (∀ (f : NamedFunction α) (texts : List String) (vs : List α), Token.IsName f.name →
      g.functions.get? f.name = some f → f.arity = texts.length →
      List.Forall₂ (fun text v => g.parseAndRun text bindings = .ok v) texts vs →
      g.parseAndRun (f.name ++ g.braced (g.separated texts)) bindings =
        f.operation.outcome f.name vs) ∧
    ∀ (a : String) (e : Expression g), g.parse a = .ok e →
      ∃ e' : Expression g, g.parse (g.braced a) = .ok e' ∧ e'.phase = e.phase ∧
        e'.tokens.map Token.content = e.tokens.map Token.content :=
  ⟨fun _ _ _ _ _ hop ha hb => parseAndRun_infixed hg hop ha hb,
    fun _ _ _ hop ha => parseAndRun_prefixed hg hop ha,
    fun _ _ _ hname hf harity htexts => parseAndRun_call hg hname hf htexts harity,
    fun _ _ h => exists_parse_braced hg h⟩

end Composed

/-- The integers with a sum, a negation, a maximum, and a function whose name is a numeral. -/
private def sums : Grammar Int :=
  .ofDeclarations (fun numeral => if numeral = "2" then .ok 2 else .error ⟨"unknown numeral"⟩)
    [.infixOp '+' .left 1 (fun a b => .ok (a + b)) none,
      .prefixOp '-' 5 (fun a => .ok (-a)) none,
      .function "max" (.binary fun a b => .ok (max a b)) none,
      .function "2" (.nullary (.ok 42)) none]

private theorem sums_marksApart : sums.MarksApart :=
  .of_lists ['+', '-'] (fun _ hc => Grammar.mem_glyphs hc) rfl rfl rfl rfl

private def plus : Operator Int := .infixOf '+' .left 1 (fun a b => .ok (a + b)) .unbounded

private def minus : Operator Int := .prefixOf '-' 5 (fun a => .ok (-a)) .unbounded

private def maximum : NamedFunction Int := ⟨"max", .binary fun a b => .ok (max a b), .unbounded⟩

/-- `2 2 +`, whose operator has no operand behind it, has a value, and so has what is made of it. -/
theorem parseAndRun_composed_sums :
    sums.MarksApart ∧ sums.parseAndRun "2 2 +" ∅ = .ok 4 ∧
      sums.parseAndRun "(2 2 +)+(2)" ∅ = .ok 6 ∧ sums.parseAndRun "-(2 2 +)" ∅ = .ok (-4) ∧
      sums.parseAndRun "max(2 2 +,2)" ∅ = .ok 4 := by
  obtain ⟨hinfixed, hprefixed, hcall, -⟩ := parseAndRun_composed sums_marksApart ∅
  have htwo : sums.parseAndRun "2" ∅ = .ok 2 := by decide +kernel
  have hfour : sums.parseAndRun "2 2 +" ∅ = .ok 4 := by decide +kernel
  have hsum : sums.braced "2 2 +" ++ plus.text ++ sums.braced "2" = "(2 2 +)+(2)" := by decide
  have hminus : minus.text ++ sums.braced "2 2 +" = "-(2 2 +)" := by decide
  have hmax : maximum.name ++ sums.braced (sums.separated ["2 2 +", "2"]) = "max(2 2 +,2)" := by
    decide
  have hname : Token.IsName maximum.name :=
    ⟨'m', ['a', 'x'], by decide, by decide, List.all_eq_true.1 rfl⟩
  refine ⟨sums_marksApart, hfour, ?_, ?_, ?_⟩
  · rw [← hsum, hinfixed plus _ _ _ _ rfl hfour htwo]
    rfl
  · rw [← hminus, hprefixed minus _ _ rfl hfour]
    rfl
  · rw [← hmax, hcall maximum _ [4, 2] hname rfl rfl (.cons hfour (.cons htwo .nil))]
    rfl

private def numeralNamed : NamedFunction Int := ⟨"2", .nullary (.ok 42), .unbounded⟩

/-- A function that bears a numeral as its name is never called: its name is read as a number. -/
theorem parseAndRun_composed_numeral :
    sums.MarksApart ∧ sums.functions.get? numeralNamed.name = some numeralNamed ∧
      numeralNamed.arity = 0 ∧
      numeralNamed.operation.outcome numeralNamed.name [] = .ok 42 ∧
      numeralNamed.name ++ sums.braced (sums.separated []) = "2()" ∧
      sums.parseAndRun "2()" ∅ = .ok 2 :=
  ⟨sums_marksApart, rfl, rfl, rfl, by decide, by decide +kernel⟩

end Grammar

end Reckon

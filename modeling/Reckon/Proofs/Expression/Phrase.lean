import Reckon.Expression.Run
import Reckon.Proofs.Expression.HeldBack
import Reckon.Proofs.Expression.Spelling
import Reckon.Proofs.Expression.TreeValue

/-!
# Proofs/Expression/Phrase — what is written is what is read

A phrase is an expression with the braces that it is written with.  Where its operators bind as the
braces say (`Phrase.Legible`), **its text is read as the postorder of its tree**
(`Phrase.Legible.parse`), and the value of that is the value of the phrase
(`Phrase.Complete.evaluate`).
-/

namespace Reckon

variable {α : Type}

/-- An expression as it is written. -/
inductive Phrase (α : Type) where
  | number (numeral : String) (value : α)
  | «variable» (name : String)
  | prefixed (op : Operator α) (operand : Phrase α)
  | infixed (op : Operator α) (left right : Phrase α)
  /-- A phrase in braces. -/
  | group (inner : Phrase α)
  | call (f : NamedFunction α) (arguments : List (Phrase α))

namespace Phrase

/-! ## The text of a phrase -/

section Text

variable (g : Grammar α) (gap : List Char)

mutual

/-- The text of a phrase, with white space `gap` on both sides of an operator between operands. -/
def chars : Phrase α → List Char
  | number numeral _ => numeral.toList
  | «variable» name => name.toList
  | prefixed op p => op.symbol :: chars p
  | infixed op l r => chars l ++ (gap ++ op.symbol :: (gap ++ chars r))
  | group p => g.openBrace :: (chars p ++ [g.closeBrace])
  | call f ps => f.name.toList ++ g.openBrace :: (charsAll [] ps ++ [g.closeBrace])

/-- The texts of arguments, `lead` before the first one and a separator before each other. -/
def charsAll (lead : List Char) : List (Phrase α) → List Char
  | [] => []
  | p :: ps => lead ++ (chars p ++ charsAll [g.separator] ps)

end

mutual

/-- What the tokens of a phrase stand for. -/
def contents : Phrase α → List (Token.Content α)
  | number _ v => [.number v]
  | «variable» name => [.variable name]
  | prefixed op p => .operator op :: contents p
  | infixed op l r => contents l ++ .operator op :: contents r
  | group p => .openBrace g.openBrace :: (contents p ++ [.closeBrace g.closeBrace])
  | call f ps => .function f :: .openBrace g.openBrace ::
      (contentsAll [] ps ++ [.closeBrace g.closeBrace])

/-- What the tokens of arguments stand for. -/
def contentsAll (lead : List (Token.Content α)) : List (Phrase α) → List (Token.Content α)
  | [] => []
  | p :: ps => lead ++ (contents p ++ contentsAll [.separator g.separator] ps)

end

end Text

/-! ## The tree of a phrase -/

mutual

/-- The phrase without its braces. -/
def tree : Phrase α → Tree (Token.Content α)
  | number _ v => .node (.number v) []
  | «variable» name => .node (.variable name) []
  | prefixed op p => .node (.operator op) [tree p]
  | infixed op l r => .node (.operator op) [tree l, tree r]
  | group p => tree p
  | call f ps => .node (.function f) (trees ps)

/-- Phrases without their braces. -/
def trees : List (Phrase α) → List (Tree (Token.Content α))
  | [] => []
  | p :: ps => tree p :: trees ps

end

/-! ## What is legible -/

/-- The operators that meet what is held back before the phrase. -/
def leftEdge : Phrase α → List (Operator α)
  | prefixed op _ => [op]
  | infixed op l _ => leftEdge l ++ [op]
  | _ => []

/-- The operators that are still held back at the end of the phrase. -/
def rightEdge : Phrase α → List (Operator α)
  | prefixed op p => op :: rightEdge p
  | infixed op _ r => op :: rightEdge r
  | _ => []

/-- The phrase does not start with an operator. -/
def startsBare : Phrase α → Bool
  | prefixed _ _ => false
  | infixed _ l _ => startsBare l
  | _ => true

/-- What stands in the phrase stands for itself in the grammar, and what a reader takes together is
together in the phrase. -/
inductive Legible (g : Grammar α) : Phrase α → Prop
  | number {numeral : String} {v : α} (lexeme : Token.IsNumeral numeral)
      (value : g.convert numeral = .ok v) : Legible g (.number numeral v)
  | «variable» {name : String} (lexeme : Token.IsName name) (free : g.functions.get? name = none)
      (admitted : g.admitsVariable name = true) : Legible g (.variable name)
  | prefixed {op : Operator α} {p : Phrase α}
      (known : g.prefixOperators.get? op.symbol = some op) (bare : p.startsBare = true)
      (right : ∀ o ∈ p.leftEdge, op.goesBefore o = false) (operand : Legible g p) :
      Legible g (.prefixed op p)
  | infixed {op : Operator α} {l r : Phrase α} (known : g.infixOperators.get? op.symbol = some op)
      (left : ∀ o ∈ l.rightEdge, o.goesBefore op = true)
      (right : ∀ o ∈ r.leftEdge, op.goesBefore o = false) (first : Legible g l)
      (second : Legible g r) : Legible g (.infixed op l r)
  | group {p : Phrase α} (inner : Legible g p) : Legible g (.group p)
  | call {f : NamedFunction α} {ps : List (Phrase α)} (lexeme : Token.IsName f.name)
      (known : g.functions.get? f.name = some f) (arguments : ∀ p ∈ ps, Legible g p) :
      Legible g (.call f ps)

/-! ## Reading the text -/

section Spelling

variable {g : Grammar α} {gap : List Char} {p : Phrase α} {expected : Expectation}
  {rest : List Char} {ts : List (Token.Content α)}

/-- The phrase may start here. -/
def MayStart (p : Phrase α) (expected : Expectation) : Prop :=
  expected = .operand ∨ expected = .bareOperand ∧ p.startsBare = true

/-- The text of the phrase is read as its tokens, whatever follows. -/
def IsSpelled (g : Grammar α) (gap : List Char) (p : Phrase α) : Prop :=
  ∀ (expected : Expectation) (rest : List Char) (ts : List (Token.Content α)),
    p.MayStart expected → Grammar.Breaks rest → g.Spells .operator rest ts →
    g.Spells expected (p.chars g gap ++ rest) (p.contents g ++ ts)

/-- Arguments are read one after the other, up to the brace that closes them. -/
theorem spells_arguments (hg : g.MarksApart) {ps : List (Phrase α)}
    (hps : ∀ p ∈ ps, p.IsSpelled g gap) (hrest : g.Spells .operator rest ts) {lead : List Char}
    {first : List (Token.Content α)}
    (hlead : ∀ cs us, g.Spells .operand cs us → g.Spells expected (lead ++ cs) (first ++ us)) :
    g.Spells expected (charsAll g gap lead ps ++ g.closeBrace :: rest)
      (contentsAll g first ps ++ .closeBrace g.closeBrace :: ts) := by
  induction ps generalizing expected lead first with
  | nil =>
    rw [charsAll, contentsAll]
    exact Grammar.spells_closeBrace hg hrest
  | cons p ps ih =>
    rw [charsAll, contentsAll]
    simp only [List.append_assoc]
    refine hlead _ _ (hps p (by simp) _ _ _ (.inl rfl) ?_ ?_)
    · cases ps with
      | nil => rw [charsAll]; exact Grammar.breaks_of_isMark hg Grammar.isMark_closeBrace
      | cons q ps => rw [charsAll]; exact Grammar.breaks_of_isMark hg Grammar.isMark_separator
    · exact ih (fun q hq => hps q (by simp [hq])) fun cs us h => Grammar.spells_separator hg h

/-- **The text of a legible phrase is read as its tokens.** -/
theorem Legible.isSpelled (hg : g.MarksApart) (hgap : ∀ c ∈ gap, g.isWhitespace c = true)
    (hp : p.Legible g) : p.IsSpelled g gap := by
  induction hp with
  | number lexeme value =>
    intro expected rest ts hstart hbreaks h
    rw [chars, contents]
    exact Grammar.spells_numeral hg lexeme value hbreaks h
  | @«variable» name lexeme free admitted =>
    intro expected rest ts hstart hbreaks h
    rw [chars, contents]
    exact Grammar.spells_name hg lexeme hbreaks
      (fun offset => by simp [Grammar.contentOfName, free, admitted]) h
  | @prefixed op p known bare _ _ ih =>
    intro expected rest ts hstart hbreaks h
    obtain rfl : expected = .operand := hstart.resolve_right (by simp [startsBare])
    have hafter : Expectation.after (.operator op) = .bareOperand := by
      simp [Expectation.after, g.prefix_fixity _ _ known]
    rw [chars, contents]
    refine Grammar.spells_operator hg known (Grammar.isGlyph_of_prefix known) ?_
    rw [hafter]
    exact ih _ _ _ (.inr ⟨rfl, bare⟩) hbreaks h
  | @infixed op l r known _ _ _ _ ihl ihr =>
    intro expected rest ts hstart hbreaks h
    have hafter : Expectation.after (.operator op) = .operand := by
      simp [Expectation.after, g.infix_fixity _ _ known]
    have hglyph : g.IsGlyph op.symbol := Grammar.isGlyph_of_infix known
    rw [chars, contents]
    simp only [List.append_assoc, List.cons_append]
    refine ihl _ _ _ hstart (Grammar.breaks_gap hg hgap (.inl hglyph)) (Grammar.spells_gap hgap ?_)
    refine Grammar.spells_operator hg known hglyph ?_
    rw [hafter]
    exact Grammar.spells_gap hgap (ihr _ _ _ (.inl rfl) hbreaks h)
  | group _ ih =>
    intro expected rest ts hstart hbreaks h
    rw [chars, contents]
    simp only [List.append_assoc, List.cons_append, List.nil_append]
    exact Grammar.spells_openBrace hg (ih _ _ _ (.inl rfl)
      (Grammar.breaks_of_isMark hg Grammar.isMark_closeBrace) (Grammar.spells_closeBrace hg h))
  | call lexeme known _ ih =>
    intro expected rest ts hstart hbreaks h
    rw [chars, contents]
    simp only [List.append_assoc, List.cons_append, List.nil_append]
    refine Grammar.spells_name hg lexeme (Grammar.breaks_of_isMark hg Grammar.isMark_openBrace)
      (fun offset => by simp [Grammar.contentOfName, known]) (Grammar.spells_openBrace hg ?_)
    exact spells_arguments hg ih h fun cs us h => h

end Spelling

/-! ## Reordering the tokens -/

section Ordering

variable {g : Grammar α} {p : Phrase α} {m : List (Placed α)} {x : Placed α} {op : Operator α}

/-- What follows the phrase takes out all that is held back at its end. -/
def Ended (p : Phrase α) (m : List (Placed α)) : Prop :=
  (∀ i, (Held.function i : Held α).YieldsTo m) ∧
    ∀ o ∈ p.rightEdge, ∀ i, (Held.operator i o).YieldsTo m

theorem ended_of_closes (h : Closes m) : p.Ended m :=
  ⟨fun _ => Held.yieldsTo_of_closes rfl h, fun _ _ _ => Held.yieldsTo_of_closes rfl h⟩

theorem ended_operator (hx : x.content = .operator op)
    (h : ∀ o ∈ p.rightEdge, o.goesBefore op = true) : p.Ended (x :: m) := by
  have hyields : ∀ held : Held α, held.YieldsTo (x :: m) ↔ held.goesBefore op = true := by
    intro held
    simp only [Placed.content] at hx
    simp [Held.YieldsTo, hx]
  exact ⟨fun i => (hyields _).2 rfl, fun o ho i => (hyields _).2 (h o ho)⟩

/-- The tokens `u` of the phrase are put into the postorder of a tree of its shape, wherever they
stand. -/
structure IsOrdered (p : Phrase α) (u : List (Placed α)) (tree : Tree (Placed α)) : Prop where
  shape : tree.map Placed.content = p.tree
  within : ∀ x ∈ tree.postorder, x ∈ u
  order : ∀ (stack : List (Held α)) (m : List (Placed α)), (∀ o ∈ p.leftEdge, Keeps stack o) →
    p.Ended m → postorderFrom stack (u ++ m) = emit tree.indices (postorderFrom stack m)

/-- The tokens `u` of the arguments are put into the postorders of trees of their shapes, one after the
other, up to the brace that closes them. -/
structure AreOrdered (ps : List (Phrase α)) (u : List (Placed α)) (trees : List (Tree (Placed α))) :
    Prop where
  shapes : Tree.mapAll Placed.content trees = Phrase.trees ps
  within : ∀ x ∈ Tree.postorderAll trees, x ∈ u
  order : ∀ (start : Nat) (stack : List (Held α)) (m : List (Placed α)), Closes m →
    postorderFrom (.openBrace start :: stack) (u ++ m) =
      emit (Tree.indicesAll trees) (postorderFrom (.openBrace start :: stack) m)

section Constructors

variable {l r : Phrase α} {ps : List (Phrase α)} {u v before : List (Placed α)}
  {o c : Placed α} {s t : Char} {tree first second : Tree (Placed α)} {trees : List (Tree (Placed α))}

/-- A token that goes out where it stands is ordered as it is. -/
theorem isOrdered_single (hshape : p.tree = .node x.content [])
    (horder : ∀ stack m, postorderFrom stack (x :: m) = emit [x.2] (postorderFrom stack m)) :
    p.IsOrdered [x] (.node x []) where
  shape := by rw [hshape, Tree.map_node, Tree.mapAll_nil]
  within := by simp
  order stack m _ _ := by
    rw [List.singleton_append, horder]
    simp

theorem IsOrdered.prefixed (hx : x.content = .operator op)
    (right : ∀ o ∈ p.leftEdge, op.goesBefore o = false) (h : p.IsOrdered u tree) :
    (Phrase.prefixed op p).IsOrdered (x :: u) (.node x [tree]) where
  shape := by simp [hx, h.shape, Phrase.tree]
  within y hy := by
    simpa [or_comm] using (by simpa using hy : y ∈ tree.postorder ∨ y = x).imp_left (h.within y)
  order stack m hstack hm := by
    have hyields : (Held.operator x.2 op).YieldsTo m := hm.2 op (by simp [rightEdge]) x.2
    rw [List.cons_append, postorderFrom_operator hx (hstack op (by simp [leftEdge])),
      h.order _ _ (fun o ho => keeps_operator_iff.2 (right o ho))
        ⟨hm.1, fun o ho => hm.2 o (by simp [rightEdge, ho])⟩,
      postorderFrom_of_yieldsTo hyields]
    simp [Held.index?]

theorem IsOrdered.infixed (hx : x.content = .operator op)
    (left : ∀ o ∈ l.rightEdge, o.goesBefore op = true)
    (right : ∀ o ∈ r.leftEdge, op.goesBefore o = false) (hl : l.IsOrdered u first)
    (hr : r.IsOrdered v second) :
    (Phrase.infixed op l r).IsOrdered (u ++ x :: v) (.node x [first, second]) where
  shape := by simp [hx, hl.shape, hr.shape, Phrase.tree]
  within y hy := by
    simp only [Tree.postorder_node, Tree.postorderAll_cons, Tree.postorderAll_nil,
      List.append_nil, List.mem_append, List.mem_singleton] at hy
    rw [List.mem_append, List.mem_cons]
    rcases hy with (hy | hy) | hy
    · exact .inl (hl.within y hy)
    · exact .inr (.inr (hr.within y hy))
    · exact .inr (.inl hy)
  order stack m hstack hm := by
    have hyields : (Held.operator x.2 op).YieldsTo m := hm.2 op (by simp [rightEdge]) x.2
    rw [List.append_assoc, List.cons_append,
      hl.order _ _ (fun o ho => hstack o (by simp [leftEdge, ho])) (ended_operator hx left),
      postorderFrom_operator hx (hstack op (by simp [leftEdge])),
      hr.order _ _ (fun o ho => keeps_operator_iff.2 (right o ho))
        ⟨hm.1, fun o ho => hm.2 o (by simp [rightEdge, ho])⟩,
      postorderFrom_of_yieldsTo hyields]
    simp [Held.index?]

theorem IsOrdered.group (ho : o.content = .openBrace s) (hc : c.content = .closeBrace t)
    (h : p.IsOrdered u tree) : (Phrase.group p).IsOrdered (o :: (u ++ [c])) tree where
  shape := by rw [h.shape, Phrase.tree]
  within y hy := by simp [h.within y hy]
  order stack m _ _ := by
    rw [List.cons_append, List.append_assoc, List.singleton_append, postorderFrom_openBrace ho,
      h.order _ _ (fun o _ => keeps_openBrace _ stack o)
        (ended_of_closes (closes_of_closeBrace hc m)),
      postorderFrom_closeBrace hc]

theorem AreOrdered.call {f : NamedFunction α} (hx : x.content = .function f)
    (ho : o.content = .openBrace s) (hc : c.content = .closeBrace t) (h : AreOrdered ps u trees) :
    (Phrase.call f ps).IsOrdered (x :: o :: (u ++ [c])) (.node x trees) where
  shape := by rw [Tree.map_node, hx, h.shapes, Phrase.tree]
  within y hy := by
    rw [Tree.postorder_node, List.mem_append, List.mem_singleton] at hy
    rcases hy with hy | rfl
    · simp [h.within y hy]
    · simp
  order stack m _ hm := by
    rw [List.cons_append, List.cons_append, List.append_assoc, List.singleton_append,
      postorderFrom_function hx, postorderFrom_openBrace ho,
      h.order _ _ _ (closes_of_closeBrace hc m),
      postorderFrom_closeBrace hc, postorderFrom_of_yieldsTo (hm.1 x.2)]
    simp [Held.index?]

/-- Before an argument stands nothing, or a separator that is skipped. -/
theorem AreOrdered.cons (hskip : ∀ start stack m, postorderFrom (.openBrace start :: stack)
      (before ++ m) = postorderFrom (.openBrace start :: stack) m)
    (hcloses : ∀ m, Closes m → Closes (v ++ m)) (h : p.IsOrdered u tree)
    (hs : AreOrdered ps v trees) : AreOrdered (p :: ps) (before ++ (u ++ v)) (tree :: trees) where
  shapes := by rw [Tree.mapAll_cons, h.shape, hs.shapes, Phrase.trees]
  within y hy := by
    simp only [Tree.postorderAll_cons, List.mem_append] at hy ⊢
    exact .inr (hy.imp (h.within y) (hs.within y))
  order start stack m hm := by
    rw [List.append_assoc, List.append_assoc, hskip,
      h.order _ _ (fun o _ => keeps_openBrace start stack o) (ended_of_closes (hcloses m hm)),
      hs.order start stack m hm]
    simp

end Constructors

/-- Arguments are ordered one after the other, up to the brace that closes them. -/
theorem exists_ordered_arguments {ps : List (Phrase α)}
    (hps : ∀ p ∈ ps, ∀ u : List (Placed α), u.map Placed.content = p.contents g →
      ∃ tree, p.IsOrdered u tree) {lead : List (Token.Content α)}
    (hlead : lead = [] ∨ lead = [.separator g.separator]) {u : List (Placed α)}
    (hu : u.map Placed.content = contentsAll g lead ps) : ∃ trees, AreOrdered ps u trees := by
  induction ps generalizing lead u with
  | nil =>
    rw [contentsAll, List.map_eq_nil_iff] at hu
    subst hu
    exact ⟨[], by simp [Phrase.trees], by simp, by simp⟩
  | cons p ps ih =>
    rw [contentsAll] at hu
    obtain ⟨before, u, rfl, hbefore, hu⟩ := List.map_eq_append_iff.1 hu
    obtain ⟨first, others, rfl, hfirst, hothers⟩ := List.map_eq_append_iff.1 hu
    obtain ⟨tree, htree⟩ := hps p (by simp) first hfirst
    obtain ⟨trees, htrees⟩ := ih (fun q hq => hps q (by simp [hq])) (.inr rfl) hothers
    refine ⟨tree :: trees, .cons (fun start stack m => ?_) (fun m hm => ?_) htree htrees⟩
    · rcases hlead with rfl | rfl
      · rw [List.map_eq_nil_iff.1 hbefore, List.nil_append]
      · obtain ⟨t, rfl, ht⟩ := List.map_eq_singleton_iff.1 hbefore
        exact postorderFrom_separator ht
    · cases ps with
      | nil =>
        rw [contentsAll, List.map_eq_nil_iff] at hothers
        rwa [hothers, List.nil_append]
      | cons q ps =>
        rw [contentsAll] at hothers
        obtain ⟨t, others, rfl, ht, -⟩ := List.map_eq_cons_iff.1 hothers
        exact closes_of_separator ht _

/-- **The tokens of a legible phrase are put into the postorder of its tree.** -/
theorem Legible.exists_ordered (hp : p.Legible g) {u : List (Placed α)}
    (hu : u.map Placed.content = p.contents g) : ∃ tree, p.IsOrdered u tree := by
  -- in each case the tokens `u` are split as the contents of the phrase are
  induction hp generalizing u with
  | number _ _ =>
    rw [contents] at hu
    obtain ⟨x, rfl, hx⟩ := List.map_eq_singleton_iff.1 hu
    exact ⟨_, isOrdered_single (by rw [hx, tree]) fun stack m => postorderFrom_number hx⟩
  | «variable» _ _ _ =>
    rw [contents] at hu
    obtain ⟨x, rfl, hx⟩ := List.map_eq_singleton_iff.1 hu
    exact ⟨_, isOrdered_single (by rw [hx, tree]) fun stack m => postorderFrom_variable hx⟩
  | prefixed _ _ right _ ih =>
    rw [contents] at hu
    obtain ⟨x, u, rfl, hx, hu⟩ := List.map_eq_cons_iff.1 hu
    obtain ⟨tree, htree⟩ := ih hu
    exact ⟨_, htree.prefixed hx right⟩
  | infixed _ left right _ _ ihl ihr =>
    rw [contents] at hu
    obtain ⟨u, w, rfl, hl, hw⟩ := List.map_eq_append_iff.1 hu
    obtain ⟨x, v, rfl, hx, hr⟩ := List.map_eq_cons_iff.1 hw
    obtain ⟨first, hfirst⟩ := ihl hl
    obtain ⟨second, hsecond⟩ := ihr hr
    exact ⟨_, hfirst.infixed hx left right hsecond⟩
  | group _ ih =>
    rw [contents] at hu
    obtain ⟨o, v, rfl, ho, hv⟩ := List.map_eq_cons_iff.1 hu
    obtain ⟨u, w, rfl, hinner, hw⟩ := List.map_eq_append_iff.1 hv
    obtain ⟨c, rfl, hc⟩ := List.map_eq_singleton_iff.1 hw
    obtain ⟨tree, htree⟩ := ih hinner
    exact ⟨tree, htree.group ho hc⟩
  | call _ _ _ ih =>
    rw [contents] at hu
    obtain ⟨x, w, rfl, hx, hw⟩ := List.map_eq_cons_iff.1 hu
    obtain ⟨o, v, rfl, ho, hv⟩ := List.map_eq_cons_iff.1 hw
    obtain ⟨u, w, rfl, hargs, hw⟩ := List.map_eq_append_iff.1 hv
    obtain ⟨c, rfl, hc⟩ := List.map_eq_singleton_iff.1 hw
    obtain ⟨trees, htrees⟩ := exists_ordered_arguments (fun p hp u hu => ih p hp hu) (.inl rfl) hargs
    exact ⟨_, htrees.call hx ho hc⟩

end Ordering

end Phrase

end Reckon

import Mathlib.Data.List.Basic
import Reckon.Proofs.Expression.Phrase

/-!
# Proofs/Expression/PhraseValue — the value of what is written

The text of a legible phrase is parsed (`Phrase.Legible.parse`), and **the value of the expression
is that of the phrase**, operand by operand from the left, a fault included
(`Phrase.Complete.evaluate`).
-/

namespace Reckon

variable {α : Type}

/-- The name of the variable that a token stands for, if it is one. -/
def Token.Content.variableName? : Token.Content α → Option String
  | .variable name => some name
  | _ => none

theorem Token.variableName?_eq (t : Token α) : t.variableName? = t.content.variableName? := by
  obtain ⟨content, span⟩ := t
  cases content <;> rfl

namespace Phrase

/-! ## The variables of a phrase -/

mutual

/-- The names of the variables, from left to right. -/
def names : Phrase α → List String
  | number _ _ => []
  | «variable» name => [name]
  | prefixed _ p => names p
  | infixed _ l r => names l ++ names r
  | group p => names p
  | call _ ps => namesAll ps

/-- The names of the variables in phrases, from left to right. -/
def namesAll : List (Phrase α) → List String
  | [] => []
  | p :: ps => names p ++ namesAll ps

end

mutual

theorem filterMap_contents (g : Grammar α) :
    ∀ p : Phrase α, (p.contents g).filterMap Token.Content.variableName? = p.names
  | number _ _ => by simp [contents, names, Token.Content.variableName?]
  | «variable» name => by simp [contents, names, Token.Content.variableName?]
  | prefixed _ p => by
    rw [contents, names, List.filterMap_cons_none rfl, filterMap_contents g p]
  | infixed _ l r => by
    rw [contents, names, List.filterMap_append, List.filterMap_cons_none rfl,
      filterMap_contents g l, filterMap_contents g r]
  | group p => by
    rw [contents, names, List.filterMap_cons_none rfl, List.filterMap_append,
      filterMap_contents g p, List.filterMap_cons_none rfl, List.filterMap_nil, List.append_nil]
  | call f ps => by
    rw [contents, names, List.filterMap_cons_none rfl, List.filterMap_cons_none rfl,
      List.filterMap_append, filterMap_contentsAll g [] rfl ps, List.filterMap_cons_none rfl,
      List.filterMap_nil, List.append_nil]

theorem filterMap_contentsAll (g : Grammar α) (lead : List (Token.Content α))
    (hlead : lead.filterMap Token.Content.variableName? = []) : ∀ ps : List (Phrase α),
    (contentsAll g lead ps).filterMap Token.Content.variableName? = namesAll ps
  | [] => by simp [contentsAll, namesAll]
  | p :: ps => by
    simp only [contentsAll, namesAll, List.filterMap_append, hlead, filterMap_contents g p,
      filterMap_contentsAll g [.separator g.separator] rfl ps, List.nil_append]

end

/-! ## Parsing the text -/

section Parsing

variable {g : Grammar α} {gap : List Char} {p : Phrase α}

/-- The tokens that the indices of a tree point at are those in the tree. -/
theorem select_indices {ts : List (Token α)} {tree : Tree (Placed α)}
    (h : ∀ x ∈ tree.postorder, x ∈ ts.zipIdx) :
    Token.select ts tree.indices = (tree.map Prod.fst).postorder := by
  rw [Token.select, Tree.indices, Tree.postorder_map, List.filterMap_map]
  refine List.filterMap_eq_map_iff_forall_eq_some.2 fun x hx => ?_
  simpa [List.mem_zipIdx_iff_getElem?] using h x hx

theorem Legible.chars_ne_nil (hp : p.Legible g) : p.chars g gap ≠ [] := by
  cases hp with
  | number lexeme _ =>
    obtain ⟨c, cs, htext, -⟩ := lexeme
    simp [chars, htext]
  | «variable» lexeme _ _ =>
    obtain ⟨c, cs, htext, -⟩ := lexeme
    simp [chars, htext]
  | prefixed | infixed | group | call => simp [chars]

/-- **The text of a legible phrase is parsed as its tree.** -/
theorem Legible.parse (hg : g.MarksApart) (hgap : ∀ c ∈ gap, g.isWhitespace c = true)
    (hp : p.Legible g) : ∃ (e : Expression g) (tree : Tree (Token α)),
      g.parse (String.ofList (p.chars g gap)) = .ok e ∧ e.phase = .operandsFirst ∧
        e.tokens = tree.postorder ∧ tree.map Token.content = p.tree ∧
        e.names = .ofList p.names := by
  obtain ⟨ts, hts, hcontents⟩ := hp.isSpelled hg hgap .operand [] [] (.inl rfl) (by
    simp [Grammar.Breaks]) Grammar.spells_nil 0
  rw [List.append_nil] at hts hcontents
  obtain ⟨placed, hshape, hwithin, horder⟩ := hp.exists_ordered (u := ts.zipIdx) (by
    rw [← hcontents]
    exact (List.map_map).symm.trans (by rw [List.zipIdx_map_fst]))
  have hpostorder : postorder ts = .ok placed.indices := by
    have h := horder [] [] (fun o _ => keeps_nil o) (ended_of_closes closes_nil)
    rw [List.append_nil] at h
    rw [postorder, h, postorderFrom, Held.giveOutAll, emit_ok, List.append_nil]
  have htokens : g.tokens (String.ofList (p.chars g gap)) = .ok ts := by
    rw [Grammar.tokens, if_neg (by simp [hp.chars_ne_nil]), Cursor.ofText, String.toList_ofList,
      hts]
  have hnames : ts.filterMap (·.variableName?) = p.names := by
    rw [← filterMap_contents g p, ← hcontents, List.filterMap_map]
    exact List.filterMap_congr fun t _ => t.variableName?_eq
  refine ⟨⟨Token.select ts placed.indices, .operandsFirst, .ofList p.names⟩,
    placed.map Prod.fst, ?_, rfl, select_indices hwithin, by rw [Tree.map_map, ← hshape], rfl⟩
  simp [Grammar.parse, Grammar.tokenize, htokens, Expression.shunt, Expression.ofTokens, hpostorder,
    hnames]

end Parsing

/-! ## The value of a phrase -/

section Value

variable (valueOf : String → α)

mutual

/-- The value of a phrase in which each name has a value. -/
def value : Phrase α → Except Error α
  | number _ v => .ok v
  | «variable» name => .ok (valueOf name)
  | prefixed op p => do
    let a ← value p
    op.operation.outcome op.text [a]
  | infixed op l r => do
    let a ← value l
    let b ← value r
    op.operation.outcome op.text [a, b]
  | group p => value p
  | call f ps => do
    let operands ← values ps
    f.operation.outcome f.name operands

/-- The values of phrases from left to right, up to the first that has none. -/
def values : List (Phrase α) → Except Error (List α)
  | [] => .ok []
  | p :: ps => do
    let v ← value p
    let vs ← values ps
    return v :: vs

end

/-- Every function has as many arguments as it takes. -/
inductive Complete : Phrase α → Prop
  | number (numeral : String) (v : α) : Complete (.number numeral v)
  | «variable» (name : String) : Complete (.variable name)
  | prefixed {op : Operator α} {p : Phrase α} (place : op.fixity = .prefixOp)
      (operand : Complete p) : Complete (.prefixed op p)
  | infixed {op : Operator α} {l r : Phrase α} (place : op.fixity = .infixOp) (first : Complete l)
      (second : Complete r) : Complete (.infixed op l r)
  | group {p : Phrase α} (inner : Complete p) : Complete (.group p)
  | call {f : NamedFunction α} {ps : List (Phrase α)} (arity : f.arity = ps.length)
      (arguments : ∀ p ∈ ps, Complete p) : Complete (.call f ps)

variable {valueOf} {g : Grammar α} {bindings : Bindings α} {p : Phrase α}

theorem outcome_operator {t : Token α} {op : Operator α} (h : t.content = .operator op) :
    t.outcome g bindings = op.operation.outcome op.text := by
  funext operands
  simp only [Token.outcome, h]

theorem outcome_function {t : Token α} {f : NamedFunction α} (h : t.content = .function f) :
    t.outcome g bindings = f.operation.outcome f.name := by
  funext operands
  simp only [Token.outcome, h]

/-- Trees of the shapes of arguments have the values of the arguments, if each of them does. -/
theorem fits_and_values {ps : List (Phrase α)}
    (hps : ∀ p ∈ ps, ∀ {tree : Tree (Token α)}, tree.map Token.content = p.tree →
      (∀ name ∈ p.names, g.valueOf? bindings name = some (valueOf name)) →
      tree.Fits ∧ tree.value g bindings = p.value valueOf) {ts : List (Tree (Token α))}
    (hts : ts.map (Tree.map Token.content) = trees ps)
    (hnames : ∀ name ∈ namesAll ps, g.valueOf? bindings name = some (valueOf name)) :
    ts.length = ps.length ∧ (∀ t ∈ ts, t.Fits) ∧
      Tree.values g bindings ts = values valueOf ps := by
  induction ps generalizing ts with
  | nil =>
    obtain rfl := List.map_eq_nil_iff.1 (hts.trans (by rw [trees]))
    simp [values]
  | cons p ps ih =>
    rw [trees] at hts
    obtain ⟨t, ts, rfl, ht, hts⟩ := List.map_eq_cons_iff.1 hts
    obtain ⟨hfits, hvalue⟩ := hps p (by simp) ht fun name h => hnames name (by simp [namesAll, h])
    obtain ⟨hlen, hall, hvalues⟩ := ih (fun q hq => hps q (by simp [hq])) hts
      fun name h => hnames name (by simp [namesAll, h])
    refine ⟨by simp [hlen], by simpa using ⟨hfits, hall⟩, ?_⟩
    rw [Tree.values_cons, hvalue, hvalues, values]

/-- **A tree of the shape of a complete phrase is a tree of operations, with the value of the
phrase.** -/
theorem Complete.fits_and_value (hp : p.Complete) {tree : Tree (Token α)}
    (htree : tree.map Token.content = p.tree)
    (hnames : ∀ name ∈ p.names, g.valueOf? bindings name = some (valueOf name)) :
    tree.Fits ∧ tree.value g bindings = p.value valueOf := by
  induction hp generalizing tree with
  | number numeral v =>
    obtain ⟨t, ts, rfl, ht, hts⟩ := Tree.map_eq_node_iff.1 htree
    obtain rfl := List.map_eq_nil_iff.1 hts
    refine ⟨.node (by simp [Token.arity?, ht]) (by simp), ?_⟩
    simp [Tree.value_node, Token.outcome, ht, value]
  | «variable» name =>
    obtain ⟨t, ts, rfl, ht, hts⟩ := Tree.map_eq_node_iff.1 htree
    obtain rfl := List.map_eq_nil_iff.1 hts
    refine ⟨.node (by simp [Token.arity?, ht]) (by simp), ?_⟩
    rw [Tree.value_node, Tree.values_nil, ok_bind, Token.outcome_variable ht,
      hnames name (by simp [names]), value]
  | @prefixed op p place _ ih =>
    obtain ⟨t, ts, rfl, ht, hts⟩ := Tree.map_eq_node_iff.1 htree
    obtain ⟨tree, rfl, hshape⟩ := List.map_eq_singleton_iff.1 hts
    obtain ⟨hfits, hvalue⟩ := ih hshape (by simpa [names] using hnames)
    refine ⟨.node ?_ (by simpa using hfits), ?_⟩
    · simp [Token.arity?, ht, op.arity_eq, place, Fixity.arity]
    · rw [Tree.value_node, Tree.values_singleton, hvalue, outcome_operator ht, value, map_bind]
  | @infixed op l r place _ _ ihl ihr =>
    obtain ⟨t, ts, rfl, ht, hts⟩ := Tree.map_eq_node_iff.1 htree
    obtain ⟨first, ts, rfl, hfirst, hts⟩ := List.map_eq_cons_iff.1 hts
    obtain ⟨second, rfl, hsecond⟩ := List.map_eq_singleton_iff.1 hts
    obtain ⟨hfits, hvalue⟩ := ihl hfirst fun name h => hnames name (by simp [names, h])
    obtain ⟨hfits', hvalue'⟩ := ihr hsecond fun name h => hnames name (by simp [names, h])
    refine ⟨.node ?_ (by simpa using ⟨hfits, hfits'⟩), ?_⟩
    · simp [Token.arity?, ht, op.arity_eq, place, Fixity.arity]
    · rw [Tree.value_node, Tree.values_cons, Tree.values_singleton, hvalue, hvalue',
        outcome_operator ht, value]
      simp only [bind_assoc, map_bind, pure_bind]
  | group _ ih => exact ih htree hnames
  | @call f ps arity _ ih =>
    obtain ⟨t, ts, rfl, ht, hts⟩ := Tree.map_eq_node_iff.1 htree
    obtain ⟨hlen, hfits, hvalues⟩ := fits_and_values ih hts (by simpa [names] using hnames)
    refine ⟨.node ?_ hfits, ?_⟩
    · have harity : f.operation.arity = ps.length := arity
      simp [Token.arity?, ht, harity, hlen]
    · rw [Tree.value_node, hvalues, outcome_function ht, value]

/-- **The text of a phrase has the value of the phrase.** -/
theorem Complete.evaluate (hp : p.Complete) (valueOf : String → α) {e : Expression g}
    {tree : Tree (Token α)} (hphase : e.phase = .operandsFirst)
    (htokens : e.tokens = tree.postorder) (htree : tree.map Token.content = p.tree)
    (hnames : ∀ name ∈ p.names, g.valueOf? bindings name = some (valueOf name)) :
    e.evaluate bindings = p.value valueOf := by
  obtain ⟨hfits, hvalue⟩ := hp.fits_and_value htree hnames
  rw [Expression.evaluate_of_fits hphase hfits htokens, hvalue]

end Value

end Phrase

end Reckon

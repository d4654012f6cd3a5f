import Mathlib.Data.Set.Defs
import Reckon.Proofs.Expression.HeldBack

/-!
# Proofs/Expression/Climbing — holding operators back is precedence climbing

    expression ::= unit (infix unit)*          unit ::= primary | prefix primary
    primary ::= number | variable | '(' expression ')' | function '(' ')'
              | function '(' expression (',' expression)* ')'

A list of tokens of that form (`Derives`) can be read by recursive descent: `climb` reads an operand
and then goes on over the operators that the one it was called for does not stop.  What is held back
on the stack stands for the calls that are not finished yet (`Tops`), so **reordering gives out the
postorder of the tree that is read** (`agrees`, `exists_climbed_postorder`).
-/

namespace Reckon

variable {α : Type}

/-! ## Well-formed lists of tokens -/

/-- The kinds of phrase. -/
inductive Category where
  | expression
  /-- Operators between operands, each with its right operand. -/
  | chain
  | unit
  | primary
  | arguments
deriving DecidableEq, Repr

/-- `Derives ops content k s rest` says that a phrase of kind `k` with operators of `ops` stands at
the start of `s`, with `rest` behind it. -/
inductive Derives {β : Type} (ops : Set (Operator α)) (content : β → Token.Content α) :
    Category → List β → List β → Prop
  | expression {s m r : List β} (first : Derives ops content .unit s m)
      (others : Derives ops content .chain m r) : Derives ops content .expression s r
  | done (r : List β) : Derives ops content .chain r r
  | infixed {t : β} {op : Operator α} {s m r : List β} (h : content t = .operator op)
      (known : op ∈ ops) (place : op.fixity = .infixOp) (operand : Derives ops content .unit s m)
      (others : Derives ops content .chain m r) : Derives ops content .chain (t :: s) r
  | bare {s r : List β} (operand : Derives ops content .primary s r) : Derives ops content .unit s r
  | prefixed {t : β} {op : Operator α} {s r : List β} (h : content t = .operator op)
      (known : op ∈ ops) (place : op.fixity = .prefixOp)
      (operand : Derives ops content .primary s r) : Derives ops content .unit (t :: s) r
  | number {t : β} {v : α} (r : List β) (h : content t = .number v) :
      Derives ops content .primary (t :: r) r
  | «variable» {t : β} {name : String} (r : List β) (h : content t = .variable name) :
      Derives ops content .primary (t :: r) r
  | group {o c : β} {oc cc : Char} {s r : List β} (opening : content o = .openBrace oc)
      (closing : content c = .closeBrace cc) (inner : Derives ops content .expression s (c :: r)) :
      Derives ops content .primary (o :: s) r
  | constantCall {f o c : β} {fn : NamedFunction α} {oc cc : Char} (r : List β)
      (h : content f = .function fn) (opening : content o = .openBrace oc)
      (closing : content c = .closeBrace cc) : Derives ops content .primary (f :: o :: c :: r) r
  | call {f o c : β} {fn : NamedFunction α} {oc cc : Char} {s r : List β}
      (h : content f = .function fn) (opening : content o = .openBrace oc)
      (closing : content c = .closeBrace cc) (inner : Derives ops content .arguments s (c :: r)) :
      Derives ops content .primary (f :: o :: s) r
  | lastArgument {s r : List β} (argument : Derives ops content .expression s r) :
      Derives ops content .arguments s r
  | argument {t : β} {sep : Char} {s m r : List β} (h : content t = .separator sep)
      (argument : Derives ops content .expression s (t :: m))
      (others : Derives ops content .arguments m r) : Derives ops content .arguments s r

/-- The list is an expression over the operators of `ops` and nothing else. -/
def IsExpression (ops : Set (Operator α)) (ts : List (Token α)) : Prop :=
  Derives ops Token.content .expression ts []

/-! ## Precedence climbing -/

/-- The operator that an operand is read for stops before `next`: it binds tighter, or alike while
the chain groups to the left. -/
def Stops (context : Option (Operator α)) (next : Operator α) : Prop :=
  ∃ op, context = some op ∧ (next.precedence < op.precedence ∨
    op.precedence = next.precedence ∧ next.associativity.groupsLeft = true)

instance (context : Option (Operator α)) (next : Operator α) : Decidable (Stops context next) :=
  match context with
  | none => isFalse (by simp [Stops])
  | some op => decidable_of_iff (next.precedence < op.precedence ∨
      op.precedence = next.precedence ∧ next.associativity.groupsLeft = true) (by simp [Stops])

/-- What has been read from the start of a list, and the rest of it, of fewer than `n` tokens. -/
structure Reading (α β : Type) (n : Nat) where
  value : β
  rest : List (Placed α)
  short : rest.length < n

mutual

/-- The expression that `s` starts with, as an operand of the operator `context`. -/
def climb (context : Option (Operator α)) (s : List (Placed α)) :
    Option (Reading α (Tree (Placed α)) s.length) := do
  let ⟨left, m, _⟩ ← readUnit s
  let ⟨tree, rest, _⟩ ← extend context left m
  return ⟨tree, rest, by omega⟩
termination_by (s.length, 2)

/-- The operand `left` with the operators that follow it and that `context` does not stop before. -/
def extend (context : Option (Operator α)) (left : Tree (Placed α)) (m : List (Placed α)) :
    Option (Reading α (Tree (Placed α)) (m.length + 1)) :=
  match m with
  | [] => some ⟨left, [], by simp⟩
  | t :: s =>
    match t.1.content with
    | .operator op =>
      if op.fixity = .infixOp ∧ ¬ Stops context op then do
        let ⟨right, m, _⟩ ← climb (some op) s
        let ⟨tree, rest, _⟩ ← extend context (.node t [left, right]) m
        return ⟨tree, rest, by simp only [List.length_cons]; omega⟩
      else some ⟨left, t :: s, by simp⟩
    | _ => some ⟨left, t :: s, by simp⟩
termination_by (m.length, 0)

/-- The operand that `s` starts with, a prefix operator before it included. -/
def readUnit (s : List (Placed α)) : Option (Reading α (Tree (Placed α)) s.length) :=
  match s with
  | [] => none
  | t :: s =>
    match t.1.content with
    | .number _ | .variable _ => some ⟨.node t [], s, by simp⟩
    | .operator op =>
      if op.fixity = .prefixOp then do
        let ⟨operand, rest, _⟩ ← climb (some op) s
        return ⟨.node t [operand], rest, by simp only [List.length_cons]; omega⟩
      else none
    | .openBrace _ => do
      let ⟨tree, rest, _⟩ ← readGroup s
      return ⟨tree, rest, by simp only [List.length_cons]; omega⟩
    | .function _ => do
      let ⟨trees, rest, _⟩ ← readCall s
      return ⟨.node t trees, rest, by simp only [List.length_cons]; omega⟩
    | .closeBrace _ | .separator _ => none
termination_by (s.length, 1)

/-- The expression that `s` starts with, up to the brace that closes it. -/
def readGroup (s : List (Placed α)) : Option (Reading α (Tree (Placed α)) s.length) := do
  let ⟨tree, m, hm⟩ ← climb none s
  match m, hm with
  | [], _ => none
  | c :: rest, hm =>
    match c.1.content with
    | .closeBrace _ => return ⟨tree, rest, by simp only [List.length_cons] at hm; omega⟩
    | _ => none
termination_by (s.length, 3)

/-- The arguments in braces that `s` starts with. -/
def readCall (s : List (Placed α)) : Option (Reading α (List (Tree (Placed α))) s.length) :=
  match s with
  | [] | [_] => none
  | o :: c :: r =>
    match o.1.content, c.1.content with
    | .openBrace _, .closeBrace _ => some ⟨[], r, by simp only [List.length_cons]; omega⟩
    | .openBrace _, _ => do
      let ⟨trees, rest, _⟩ ← readArguments (c :: r)
      return ⟨trees, rest, by simp only [List.length_cons] at *; omega⟩
    | _, _ => none
termination_by (s.length, 0)

/-- The arguments that `s` starts with, up to the brace that closes them. -/
def readArguments (s : List (Placed α)) :
    Option (Reading α (List (Tree (Placed α))) s.length) := do
  let ⟨tree, m, hm⟩ ← climb none s
  match m, hm with
  | [], _ => none
  | c :: m, hm =>
    match c.1.content with
    | .separator _ => do
      let ⟨trees, rest, _⟩ ← readArguments m
      return ⟨tree :: trees, rest, by simp only [List.length_cons] at hm; omega⟩
    | .closeBrace _ => return ⟨[tree], m, by simp only [List.length_cons] at hm; omega⟩
    | _ => none
termination_by (s.length, 3)
decreasing_by
  · decreasing_tactic
  · exact Prod.Lex.left _ _ (Nat.lt_of_succ_lt hm)

end

/-! ## What the readers read -/

/-- A reader has read `value` and left `rest`. -/
def Reads {β : Type} {n : Nat} (reading : Option (Reading α β n)) (value : β)
    (rest : List (Placed α)) : Prop := ∃ h, reading = some ⟨value, rest, h⟩

theorem Reads.length_lt {β : Type} {n : Nat} {reading : Option (Reading α β n)} {value : β}
    {rest : List (Placed α)} (h : Reads reading value rest) : rest.length < n := h.1

section Readers

variable {context : Option (Operator α)} {op : Operator α} {t o c : Placed α}
  {s m rest : List (Placed α)} {left right tree : Tree (Placed α)} {trees : List (Tree (Placed α))}

theorem climb_reads (hleft : Reads (readUnit s) left m)
    (hrest : Reads (extend context left m) tree rest) : Reads (climb context s) tree rest := by
  obtain ⟨hm, hleft⟩ := hleft
  obtain ⟨hr, hrest⟩ := hrest
  refine ⟨by omega, ?_⟩
  rw [climb, hleft]
  simp [hrest]

/-- Nothing stands at the start of `m` that the operand before it could be extended with. -/
def Ends (context : Option (Operator α)) (m : List (Placed α)) : Prop :=
  ∀ t ∈ m.head?, ∀ op, t.1.content = .operator op → op.fixity = .infixOp → Stops context op

theorem extend_reads_ends (h : Ends context m) : Reads (extend context left m) left m := by
  refine ⟨by simp, ?_⟩
  match m with
  | [] => rw [extend]
  | t :: s =>
    rw [extend]
    match hc : t.1.content with
    | .operator op =>
      have hstop : ¬ (op.fixity = .infixOp ∧ ¬ Stops context op) :=
        fun hgo => hgo.2 (h t (by simp) op hc hgo.1)
      simp only [if_neg hstop]
    | .number _ | .variable _ | .function _ | .openBrace _ | .closeBrace _ | .separator _ => rfl

theorem extend_reads_infixed (h : t.1.content = .operator op) (place : op.fixity = .infixOp)
    (hgo : ¬ Stops context op) (hright : Reads (climb (some op) s) right m)
    (hrest : Reads (extend context (.node t [left, right]) m) tree rest) :
    Reads (extend context left (t :: s)) tree rest := by
  obtain ⟨hm, hright⟩ := hright
  obtain ⟨hr, hrest⟩ := hrest
  refine ⟨by simp only [List.length_cons]; omega, ?_⟩
  rw [extend]
  simp [h, place, hgo, hright, hrest]

theorem readUnit_reads_number {v : α} (h : t.1.content = .number v) :
    Reads (readUnit (t :: s)) (.node t []) s := by
  refine ⟨by simp, ?_⟩
  rw [readUnit]
  simp [h]

theorem readUnit_reads_variable {name : String} (h : t.1.content = .variable name) :
    Reads (readUnit (t :: s)) (.node t []) s := by
  refine ⟨by simp, ?_⟩
  rw [readUnit]
  simp [h]

theorem readUnit_reads_prefixed (h : t.1.content = .operator op) (place : op.fixity = .prefixOp)
    (hoperand : Reads (climb (some op) s) tree rest) :
    Reads (readUnit (t :: s)) (.node t [tree]) rest := by
  obtain ⟨hr, hoperand⟩ := hoperand
  refine ⟨by simp only [List.length_cons]; omega, ?_⟩
  rw [readUnit]
  simp [h, place, hoperand]

theorem readUnit_reads_group {oc cc : Char} (ho : o.1.content = .openBrace oc)
    (hc : c.1.content = .closeBrace cc) (hinner : Reads (climb none s) tree (c :: rest)) :
    Reads (readUnit (o :: s)) tree rest := by
  obtain ⟨hr, hinner⟩ := hinner
  rw [List.length_cons] at hr
  refine ⟨by simp only [List.length_cons]; omega, ?_⟩
  rw [readUnit]
  simp [ho, readGroup, hinner, hc]

theorem readUnit_reads_call {f : NamedFunction α} (h : t.1.content = .function f)
    (hcall : Reads (readCall s) trees rest) :
    Reads (readUnit (t :: s)) (.node t trees) rest := by
  obtain ⟨hr, hcall⟩ := hcall
  refine ⟨by simp only [List.length_cons]; omega, ?_⟩
  rw [readUnit]
  simp [h, hcall]

theorem readCall_reads_nil {oc cc : Char} (ho : o.1.content = .openBrace oc)
    (hc : c.1.content = .closeBrace cc) : Reads (readCall (o :: c :: rest)) [] rest := by
  refine ⟨by simp only [List.length_cons]; omega, ?_⟩
  rw [readCall]
  simp [ho, hc]

theorem readCall_reads_arguments {oc : Char} (ho : o.1.content = .openBrace oc)
    (hc : ∀ cc, c.1.content ≠ .closeBrace cc) (hargs : Reads (readArguments (c :: s)) trees rest) :
    Reads (readCall (o :: c :: s)) trees rest := by
  obtain ⟨hr, hargs⟩ := hargs
  refine ⟨by simp only [List.length_cons] at hr ⊢; omega, ?_⟩
  rw [readCall]
  simp only [ho]
  match hcc : c.1.content with
  | .closeBrace cc => exact absurd hcc (hc cc)
  | .number _ | .variable _ | .operator _ | .function _ | .openBrace _ | .separator _ =>
    simp [hargs]

theorem readArguments_reads_last {cc : Char} (hc : c.1.content = .closeBrace cc)
    (hlast : Reads (climb none s) tree (c :: rest)) : Reads (readArguments s) [tree] rest := by
  obtain ⟨hr, hlast⟩ := hlast
  rw [List.length_cons] at hr
  refine ⟨by omega, ?_⟩
  rw [readArguments]
  simp [hlast, hc]

theorem readArguments_reads_cons {sep : Char} (ht : t.1.content = .separator sep)
    (hfirst : Reads (climb none s) tree (t :: m)) (hothers : Reads (readArguments m) trees rest) :
    Reads (readArguments s) (tree :: trees) rest := by
  obtain ⟨hm, hfirst⟩ := hfirst
  obtain ⟨hr, hothers⟩ := hothers
  rw [List.length_cons] at hm
  refine ⟨by omega, ?_⟩
  rw [readArguments]
  simp [hfirst, ht, hothers]

end Readers

/-! ## What a well-formed list looks like -/

section Derivations

variable {β : Type} {ops : Set (Operator α)} {content : β → Token.Content α} {s m r : List β}

/-- Renaming what the tokens are taken from keeps a derivation. -/
theorem Derives.of_map {γ : Type} (f : γ → β) {k : Category} {s : List γ} {r : List β}
    (h : Derives ops content k (s.map f) r) :
    ∃ r' : List γ, r = r'.map f ∧ Derives ops (fun x => content (f x)) k s r' := by
  generalize hs : s.map f = s' at h
  induction h generalizing s with
  | expression _ _ first others =>
    obtain ⟨m, rfl, hfirst⟩ := first hs
    obtain ⟨r, rfl, hothers⟩ := others rfl
    exact ⟨r, rfl, .expression hfirst hothers⟩
  | done r => exact ⟨s, hs.symm, .done s⟩
  | infixed h known place _ _ operand others =>
    obtain ⟨t, s, rfl, rfl, htail⟩ := List.map_eq_cons_iff.1 hs
    obtain ⟨m, rfl, hoperand⟩ := operand htail
    obtain ⟨r, rfl, hothers⟩ := others rfl
    exact ⟨r, rfl, .infixed h known place hoperand hothers⟩
  | bare _ operand =>
    obtain ⟨r, rfl, hoperand⟩ := operand hs
    exact ⟨r, rfl, .bare hoperand⟩
  | prefixed h known place _ operand =>
    obtain ⟨t, s, rfl, rfl, htail⟩ := List.map_eq_cons_iff.1 hs
    obtain ⟨r, rfl, hoperand⟩ := operand htail
    exact ⟨r, rfl, .prefixed h known place hoperand⟩
  | number r h =>
    obtain ⟨t, s, rfl, rfl, rfl⟩ := List.map_eq_cons_iff.1 hs
    exact ⟨s, rfl, .number s h⟩
  | «variable» r h =>
    obtain ⟨t, s, rfl, rfl, rfl⟩ := List.map_eq_cons_iff.1 hs
    exact ⟨s, rfl, .variable s h⟩
  | group opening closing _ inner =>
    obtain ⟨o, s, rfl, rfl, htail⟩ := List.map_eq_cons_iff.1 hs
    obtain ⟨m, hm, hinner⟩ := inner htail
    obtain ⟨c, r, rfl, rfl, rfl⟩ := List.map_eq_cons_iff.1 hm.symm
    exact ⟨r, rfl, .group opening closing hinner⟩
  | constantCall r h opening closing =>
    obtain ⟨t, s, rfl, rfl, htail⟩ := List.map_eq_cons_iff.1 hs
    obtain ⟨o, s, rfl, rfl, hrest⟩ := List.map_eq_cons_iff.1 htail
    obtain ⟨c, s, rfl, rfl, rfl⟩ := List.map_eq_cons_iff.1 hrest
    exact ⟨s, rfl, .constantCall s h opening closing⟩
  | call h opening closing _ inner =>
    obtain ⟨t, s, rfl, rfl, htail⟩ := List.map_eq_cons_iff.1 hs
    obtain ⟨o, s, rfl, rfl, hrest⟩ := List.map_eq_cons_iff.1 htail
    obtain ⟨m, hm, hinner⟩ := inner hrest
    obtain ⟨c, r, rfl, rfl, rfl⟩ := List.map_eq_cons_iff.1 hm.symm
    exact ⟨r, rfl, .call h opening closing hinner⟩
  | lastArgument _ argument =>
    obtain ⟨r, rfl, hargument⟩ := argument hs
    exact ⟨r, rfl, .lastArgument hargument⟩
  | argument h _ _ first others =>
    obtain ⟨m, hm, hfirst⟩ := first hs
    obtain ⟨t, m, rfl, rfl, rfl⟩ := List.map_eq_cons_iff.1 hm.symm
    obtain ⟨r, rfl, hothers⟩ := others rfl
    exact ⟨r, rfl, .argument h hfirst hothers⟩

/-- An operand starts with no operator and with no brace that closes. -/
theorem Derives.head_of_primary (h : Derives ops content .primary s r) :
    ∃ t s', s = t :: s' ∧ (∀ op, content t ≠ .operator op) ∧ ∀ c, content t ≠ .closeBrace c := by
  cases h with
  | number r h | «variable» r h => exact ⟨_, _, rfl, by simp [h], by simp [h]⟩
  | group opening _ _ => exact ⟨_, _, rfl, by simp [opening], by simp [opening]⟩
  | constantCall r h _ _ | call h _ _ _ => exact ⟨_, _, rfl, by simp [h], by simp [h]⟩

theorem Derives.head_of_unit (h : Derives ops content .unit s r) :
    ∃ t s', s = t :: s' ∧ ∀ c, content t ≠ .closeBrace c := by
  cases h with
  | bare operand =>
    obtain ⟨t, s', rfl, -, hclose⟩ := operand.head_of_primary
    exact ⟨t, s', rfl, hclose⟩
  | prefixed h _ _ _ => exact ⟨_, _, rfl, by simp [h]⟩

theorem Derives.head_of_arguments (h : Derives ops content .arguments s r) :
    ∃ t s', s = t :: s' ∧ ∀ c, content t ≠ .closeBrace c := by
  cases h with
  | lastArgument argument => cases argument with | expression first _ => exact first.head_of_unit
  | argument _ argument _ => cases argument with | expression first _ => exact first.head_of_unit

end Derivations

/-! ## Reading on a stack -/

/-- No operator before its operand binds exactly as tightly as one between operands. -/
def PlacesApart (ops : Set (Operator α)) : Prop :=
  ∀ p ∈ ops, ∀ q ∈ ops, p.fixity = .prefixOp → q.fixity = .infixOp → p.precedence ≠ q.precedence

/-- The operator that an operand is read for is on top of the stack; without one, a brace is, or
nothing. -/
inductive Tops : Option (Operator α) → List (Held α) → Prop
  | bottom : Tops none []
  | group (start : Nat) (stack : List (Held α)) : Tops none (.openBrace start :: stack)
  | operator (i : Nat) (op : Operator α) (stack : List (Held α)) :
      Tops (some op) (.operator i op :: stack)

/-- Nothing on the stack goes before an operator that `s` starts with. -/
def Receives (stack : List (Held α)) (s : List (Placed α)) : Prop :=
  ∀ t ∈ s.head?, ∀ op, t.1.content = .operator op → Keeps stack op

section Stack

variable {ops : Set (Operator α)} {context : Option (Operator α)} {stack : List (Held α)}
  {s m r : List (Placed α)} {op : Operator α}

theorem stops_iff_goesBefore {next : Operator α} (hnext : next.fixity = .infixOp) :
    Stops (some op) next ↔ op.goesBefore next = true := by
  simp [Stops, Operator.goesBefore, Operator.isPrefixOp, hnext]

theorem Tops.keeps (h : Tops context stack) (hop : op.fixity = .infixOp)
    (hgo : ¬ Stops context op) : Keeps stack op := by
  cases h with
  | bottom => exact keeps_nil op
  | group start stack => exact keeps_openBrace start stack op
  | operator i held stack =>
    rw [stops_iff_goesBefore hop] at hgo
    exact keeps_operator_iff.2 (Bool.eq_false_iff.2 hgo)

theorem receives_of_primary (h : Derives ops Placed.content .primary s m) : Receives stack s := by
  obtain ⟨t, s', rfl, hop, -⟩ := h.head_of_primary
  simp only [Receives, List.head?_cons, Option.mem_some_iff, forall_eq']
  exact fun op h => absurd h (hop op)

/-- No operator before an operand makes one between operands go first. -/
theorem Tops.receives (hops : PlacesApart ops) (h : Tops context stack)
    (hcontext : ∀ op, context = some op → op ∈ ops ∧ op.fixity = .infixOp)
    (hs : Derives ops Placed.content .unit s m) : Receives stack s := by
  cases hs with
  | bare operand => exact receives_of_primary operand
  | @prefixed t p s _ hp known place _ =>
    simp only [Receives, List.head?_cons, Option.mem_some_iff, forall_eq']
    intro op hop
    obtain rfl : p = op := by simpa [Placed.content, hop, eq_comm] using hp
    cases h with
    | bottom => exact keeps_nil p
    | group start stack => exact keeps_openBrace start stack p
    | operator i held stack =>
      obtain ⟨hheld, hinfix⟩ := hcontext held rfl
      have hne : held.precedence ≠ p.precedence := (hops p known held hheld place hinfix).symm
      simp [Operator.goesBefore, Operator.isPrefixOp, place, hne]

/-- A function that has its arguments goes out as soon as anything follows. -/
theorem function_yieldsTo {i : Nat} (hm : Derives ops Placed.content .chain m r) (hr : Closes r) :
    (Held.function i : Held α).YieldsTo m := by
  cases hm with
  | done => exact Held.yieldsTo_of_closes rfl hr
  | infixed h _ _ _ _ =>
    simp only [Placed.content] at h
    simp [Held.YieldsTo, h, Held.goesBefore]

/-- An operator goes out where the reading of its operand ends. -/
theorem operator_yieldsTo {i : Nat} (hm : Derives ops Placed.content .chain m r) (hr : Closes r)
    (hends : Ends (some op) m) : (Held.operator i op : Held α).YieldsTo m := by
  cases hm with
  | done => exact Held.yieldsTo_of_closes rfl hr
  | @infixed t next s _ _ h _ place _ _ =>
    have hstop := hends t (by simp) next h place
    rw [stops_iff_goesBefore place] at hstop
    simp only [Placed.content] at h
    simpa [Held.YieldsTo, h, Held.goesBefore] using hstop

/-- Where no operator is stopped before, the whole chain has been read. -/
theorem eq_of_ends_none (hm : Derives ops Placed.content .chain m r) (hends : Ends none m) :
    m = r := by
  cases hm with
  | done => rfl
  | @infixed t next s _ _ h _ place _ _ =>
    obtain ⟨op, hop, -⟩ := hends t (by simp) next h place
    cases hop

/-! ## Climbing and reordering agree -/

/-- Climbing reads an operand and what extends it from the start of `s`, and reordering gives out
its postorder there, whatever lies below on the stack. -/
def Agrees (ops : Set (Operator α)) (s : List (Placed α)) : Prop :=
  ∀ (m r : List (Placed α)) (context : Option (Operator α)) (stack : List (Held α)),
    Derives ops Placed.content .unit s m → Derives ops Placed.content .chain m r → Closes r →
    Tops context stack → Receives stack s →
    ∃ tree m', Reads (climb context s) tree m' ∧ Derives ops Placed.content .chain m' r ∧
      Ends context m' ∧ postorderFrom stack s = emit tree.indices (postorderFrom stack m')

/-- A group holds one expression, which is read to its end. -/
theorem Agrees.expression {start : Nat} (hs : Agrees ops s)
    (h : Derives ops Placed.content .expression s r) (hr : Closes r) (hops : PlacesApart ops) :
    ∃ tree, Reads (climb none s) tree r ∧ postorderFrom (.openBrace start :: stack) s =
      emit tree.indices (postorderFrom (.openBrace start :: stack) r) := by
  cases h with
  | expression first others =>
    have htop : Tops none (.openBrace start :: stack) := .group start stack
    obtain ⟨tree, m, hread, hchain, hends, hpost⟩ :=
      hs _ _ _ _ first others hr htop (htop.receives hops (by simp) first)
    obtain rfl : m = r := eq_of_ends_none hchain hends
    exact ⟨tree, hread, hpost⟩

/-- Arguments are read one after the other, each in the group of them all. -/
theorem readArguments_agrees {n start : Nat} {s : List (Placed α)}
    (ih : ∀ s' : List (Placed α), s'.length < n → Agrees ops s')
    (hops : PlacesApart ops) {c : Placed α} {cc : Char} (hc : c.content = .closeBrace cc)
    (h : Derives ops Placed.content .arguments s (c :: r)) (hn : s.length < n) :
    ∃ trees, Reads (readArguments s) trees r ∧ postorderFrom (.openBrace start :: stack) s =
      emit (Tree.indicesAll trees) (postorderFrom (.openBrace start :: stack) (c :: r)) := by
  -- on the length: an induction on the derivation would speak of all kinds of phrases at once.
  -- The type of a reading has the length in it, so the length is named apart
  obtain ⟨l, hl⟩ : ∃ l, s.length = l := ⟨_, rfl⟩
  induction l using Nat.strongRecOn generalizing s with
  | ind l hrec =>
    subst hl
    cases h with
    | lastArgument argument =>
      obtain ⟨tree, hread, hpost⟩ :=
        (ih s hn).expression argument (closes_of_closeBrace hc r) hops
      exact ⟨[tree], readArguments_reads_last hc hread, by rw [hpost]; simp⟩
    | @argument t sep _ m _ ht argument others =>
      obtain ⟨tree, hread, hpost⟩ := (ih s hn).expression argument (closes_of_separator ht m) hops
      have hlt : m.length < s.length := Nat.lt_of_succ_lt hread.length_lt
      obtain ⟨trees, hreads, hposts⟩ := hrec m.length hlt others (by omega) rfl
      refine ⟨tree :: trees, readArguments_reads_cons ht hread hreads, ?_⟩
      rw [hpost, postorderFrom_separator ht, hposts]
      simp

/-- **One operand**: what it takes is read, and given out before the operator or function that
takes it. -/
theorem readUnit_agrees (ih : ∀ s' : List (Placed α), s'.length < s.length → Agrees ops s')
    (hops : PlacesApart ops) (h : Derives ops Placed.content .unit s m)
    (hm : Derives ops Placed.content .chain m r) (hr : Closes r) (hstack : Receives stack s) :
    ∃ tree m', Reads (readUnit s) tree m' ∧ Derives ops Placed.content .chain m' r ∧
      postorderFrom stack s = emit tree.indices (postorderFrom stack m') := by
  cases h with
  | @prefixed t op s _ ht known place operand =>
    obtain ⟨tree, m', hread, hchain, hends, hpost⟩ := ih s (by simp) _ _ _ _ (.bare operand) hm hr
      (.operator t.2 op stack) (receives_of_primary operand)
    refine ⟨.node t [tree], m', readUnit_reads_prefixed ht place hread, hchain, ?_⟩
    rw [postorderFrom_operator ht (hstack t rfl op ht), hpost,
      postorderFrom_of_yieldsTo (operator_yieldsTo hchain hr hends)]
    simp [Held.index?]
  | bare operand =>
    cases operand with
    | @number t v _ ht =>
      refine ⟨.node t [], m, readUnit_reads_number ht, hm, ?_⟩
      rw [postorderFrom_number ht]
      simp
    | @«variable» t name _ ht =>
      refine ⟨.node t [], m, readUnit_reads_variable ht, hm, ?_⟩
      rw [postorderFrom_variable ht]
      simp
    | @group o c oc cc s _ ho hc inner =>
      obtain ⟨tree, hread, hpost⟩ :=
        (ih s (by simp)).expression inner (closes_of_closeBrace hc m) hops
      refine ⟨tree, m, readUnit_reads_group ho hc hread, hm, ?_⟩
      rw [postorderFrom_openBrace ho, hpost, postorderFrom_closeBrace hc]
    | @constantCall f o c fn oc cc _ hf ho hc =>
      refine ⟨.node f [], m, readUnit_reads_call hf (readCall_reads_nil ho hc), hm, ?_⟩
      rw [postorderFrom_function hf, postorderFrom_openBrace ho, postorderFrom_closeBrace hc,
        postorderFrom_of_yieldsTo (function_yieldsTo hm hr)]
      simp [Held.index?]
    | @call f o c fn oc cc s _ hf ho hc inner =>
      obtain ⟨a, s, rfl, ha⟩ := inner.head_of_arguments
      obtain ⟨trees, hread, hpost⟩ := readArguments_agrees
        (fun s' (hs' : s'.length < (f :: o :: a :: s).length) => ih s' hs') hops hc inner (by simp)
      refine ⟨.node f trees, m,
        readUnit_reads_call hf (readCall_reads_arguments ho ha hread), hm, ?_⟩
      rw [postorderFrom_function hf, postorderFrom_openBrace ho, hpost,
        postorderFrom_closeBrace hc, postorderFrom_of_yieldsTo (function_yieldsTo hm hr)]
      simp [Held.index?]

/-- **Operators between operands**: one that is not stopped before is held back while its right
operand is read, and goes out behind it. -/
theorem extend_agrees {n : Nat} {m : List (Placed α)}
    (ih : ∀ s : List (Placed α), s.length < n → Agrees ops s)
    (hops : PlacesApart ops) (hm : Derives ops Placed.content .chain m r) (hr : Closes r)
    (hn : m.length < n) (htop : Tops context stack) (left : Tree (Placed α)) :
    ∃ tree m', Reads (extend context left m) tree m' ∧ Derives ops Placed.content .chain m' r ∧
      Ends context m' ∧
      emit left.indices (postorderFrom stack m) = emit tree.indices (postorderFrom stack m') := by
  -- on the length again: the right operand takes any number of links off the chain
  obtain ⟨l, hl⟩ : ∃ l, m.length = l := ⟨_, rfl⟩
  induction l using Nat.strongRecOn generalizing m left with
  | ind l hrec =>
    subst hl
    cases hm with
    | done =>
      have hends : Ends context r := by
        intro t ht op hop
        rcases hr t ht with ⟨c, hc⟩ | ⟨c, hc⟩ <;> simp [hop] at hc
      exact ⟨left, r, extend_reads_ends hends, .done r, hends, rfl⟩
    | @infixed t op s m₁ _ ht known place operand others =>
      by_cases hgo : Stops context op
      · have hends : Ends context (t :: s) := by
          intro t' ht' op' hop' _
          obtain rfl : t = t' := by simpa using ht'
          obtain rfl : op = op' := by simpa [Placed.content, hop', eq_comm] using ht
          exact hgo
        exact ⟨left, _, extend_reads_ends hends, .infixed ht known place operand others, hends, rfl⟩
      · rw [List.length_cons] at hn
        have htop' : Tops (some op) (.operator t.2 op :: stack) := .operator t.2 op stack
        obtain ⟨right, m', hread, hchain, hends, hpost⟩ := ih s (by omega) _ _ _ _ operand others hr
          htop' (htop'.receives hops (by simpa using ⟨known, place⟩) operand)
        have hlt : m'.length < s.length := hread.length_lt
        obtain ⟨tree, m'', hrest, hchain', hends', hpost'⟩ := hrec m'.length
          (by rw [List.length_cons]; omega) hchain (by omega) (.node t [left, right]) rfl
        refine ⟨tree, m'', extend_reads_infixed ht place hgo hread hrest, hchain', hends', ?_⟩
        rw [← hpost', postorderFrom_operator ht (htop.keeps place hgo), hpost,
          postorderFrom_of_yieldsTo (operator_yieldsTo hchain hr hends)]
        simp [Held.index?]

/-- **Climbing and reordering agree** on all that is well formed. -/
theorem agrees (hops : PlacesApart ops) (s : List (Placed α)) : Agrees ops s := by
  intro m r context stack hs hm hr htop hstack
  have ih : ∀ s' : List (Placed α), s'.length < s.length → Agrees ops s' :=
    fun s' _ => agrees hops s'
  obtain ⟨left, m₁, hleft, hchain, hpost⟩ := readUnit_agrees ih hops hs hm hr hstack
  obtain ⟨tree, m', hread, hchain', hends, hpost'⟩ :=
    extend_agrees ih hops hchain hr hleft.length_lt htop left
  exact ⟨tree, m', climb_reads hleft hread, hchain', hends, by rw [hpost, hpost']⟩
termination_by s.length

end Stack

/-! ## Whole lists -/

/-- The tree that climbing makes of a list of tokens, if it reads the list to its end. -/
def climbed? (ts : List (Token α)) : Option (Tree (Placed α)) :=
  (climb none ts.zipIdx).bind fun reading => if reading.rest = [] then some reading.value else none

/-- **Reordering gives the postorder of the tree that climbing builds**, and both succeed. -/
theorem exists_climbed_postorder {ops : Set (Operator α)} (hops : PlacesApart ops)
    {ts : List (Token α)} (h : IsExpression ops ts) :
    ∃ tree, climbed? ts = some tree ∧ postorder ts = .ok tree.indices := by
  have hplaced : Derives ops Token.content .expression (ts.zipIdx.map Prod.fst) [] := by
    rwa [List.zipIdx_map_fst]
  obtain ⟨r, hr, hplaced⟩ := hplaced.of_map Prod.fst
  obtain rfl : r = [] := List.map_eq_nil_iff.1 hr.symm
  cases hplaced with
  | expression first others =>
    obtain ⟨tree, m, ⟨hlt, hclimb⟩, hchain, hends, hpost⟩ := agrees hops ts.zipIdx _ _ none []
      first others closes_nil .bottom (by simp [Receives])
    obtain rfl : m = [] := eq_of_ends_none hchain hends
    refine ⟨tree, by simp [climbed?, hclimb], ?_⟩
    rw [postorder, hpost, postorderFrom, Held.giveOutAll, emit_ok, List.append_nil]

end Reckon

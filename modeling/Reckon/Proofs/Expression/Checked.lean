import Mathlib.Algebra.GroupWithZero.Nat
import Mathlib.Data.List.Forall2
import Reckon.Proofs.Expression.Positions
import Reckon.Proofs.Grammar.Built

/-!
# Proofs/Expression/Checked — the engine with every check in place

The checked engine **knows only indices and bounds**: it cuts the text by counts of bytes, its stack
holds indices of tokens, its values stand in one list with the last one at the end, operands are looked
up one by one, and operators are made of operations of any arity.  Wherever it might cut within a
character, or a token, an operator, a value or an operand might not be there, it checks, and has a
*lapse* if it is so.  It never has one, and has every value and every error that the engine has
(`Checked.parseAndRun_eq`).
-/

namespace Reckon

variable {α : Type}

/-- A check that does not hold. -/
inductive Lapse where
  /-- An assertion about the number of operands, the arity of an operator or the start of a match. -/
  | misuse (fault : Misuse)
  /-- A text cut within a character. -/
  | withinCharacter (bytes : Nat)
  /-- A token that takes no character, after which reading would not go on. -/
  | standstill
  | noToken (index : Nat)
  | noOperator (index : Nat)
  /-- More values are to be taken off the stack than there are. -/
  | valuesMissing (arity found : Nat)
  | noOperand (index : Nat)
  | noValue
  /-- A brace or a separator among the tokens that are run. -/
  | mark (c : Char)
deriving DecidableEq, Repr

/-- Why the checked engine stops without a value. -/
inductive Halt where
  | lapse (lapse : Lapse)
  | fault (error : Error)
deriving DecidableEq, Repr

namespace Checked

/-! ## Reading -/

section Reading

variable (g : Grammar α)

/-- The number of bytes of a text. -/
def byteLength (cs : List Char) : Nat := (cs.map Char.utf8Size).sum

/-- A text cut behind so many bytes, if that is not within a character. -/
def cut? (bytes : Nat) : List Char → Option (List Char × List Char)
  | [] => if bytes = 0 then some ([], []) else none
  | c :: cs =>
    if bytes = 0 then some ([], c :: cs)
    else if c.utf8Size ≤ bytes then (cut? (bytes - c.utf8Size) cs).map fun p => (c :: p.1, p.2)
    else none

/-- The next so many bytes, or all if there are fewer, and the cursor behind them. -/
def advance (k : Cursor) (bytes : Nat) : Except Halt (Excerpt × Cursor) :=
  match cut? (min bytes (byteLength k.rest)) k.rest with
  | some (text, rest) =>
    let stop := k.offset + text.length
    .ok (⟨text, ⟨k.offset, stop⟩⟩, ⟨rest, stop⟩)
  | none => .error (.lapse (.withinCharacter bytes))

/-- What the pattern finds at the cursor; it must begin there. -/
def lexeme? (k : Cursor) (pattern : Pattern) : Except Halt (Option (Excerpt × Cursor)) := do
  match ← (k.read pattern).mapError fun fault => .lapse (.misuse fault) with
  | some (excerpt, _) => (advance k (byteLength excerpt.text)).map some
  | none => .ok none

/-- The token of what has been read, and the cursor behind it. -/
def tokenOf (content : Except Error (Token.Content α)) (read : Excerpt × Cursor) :
    Except Halt (Token α × Cursor) :=
  (content.mapError .fault).map fun content => (⟨content, read.1.span⟩, read.2)

/-- The token at a cursor before the character `c`, and the cursor behind it. -/
def readToken (expected : Expectation) (c : Char) (k : Cursor) : Except Halt (Token α × Cursor) :=
  match g.operatorAt? expected c with
  | some op => advance k c.utf8Size >>= tokenOf (.ok (.operator op))
  | none => do
    match ← lexeme? k .name with
    | some read => tokenOf (g.contentOfName read.1.span.start (String.ofList read.1.text)) read
    | none =>
      match ← lexeme? k .numeral with
      | some read => tokenOf (g.contentOfNumeral read.1.span.start (String.ofList read.1.text)) read
      | none => advance k c.utf8Size >>= tokenOf (g.contentOfMark k.offset c)

/-- White space or a token, and the cursor behind it. -/
def readPiece (expected : Expectation) (c : Char) (k : Cursor) :
    Except Halt (Option (Token α) × Cursor) :=
  if g.isWhitespace c then (advance k c.utf8Size).map fun read => (none, read.2)
  else (readToken g expected c k).map fun p => (some p.1, p.2)

/-- The tokens from the cursor on; whatever is read must take the cursor forward. -/
def readFrom (expected : Expectation) : Cursor → Except Halt (List (Token α))
  | ⟨[], _⟩ => .ok []
  | ⟨c :: cs, offset⟩ => do
    let (t?, next) ← readPiece g expected c ⟨c :: cs, offset⟩
    if next.rest.length < (c :: cs).length then
      match t? with
      | none => readFrom expected next
      | some t => (readFrom (.after t.content) next).map (t :: ·)
    else .error (.lapse .standstill)
termination_by k => k.rest.length
decreasing_by all_goals assumption

/-- The tokens of a text, which must not be empty. -/
def read (text : String) : Except Halt (List (Token α)) :=
  if text.isEmpty then .error (.fault (.invalidSyntax .emptyText none))
  else readFrom g .operand (.ofText text)

variable {g} {expected : Expectation} {offset : Nat} {c : Char} {cs : List Char}

theorem byteLength_append (cs ds : List Char) :
    byteLength (cs ++ ds) = byteLength cs + byteLength ds := by
  simp [byteLength]

theorem cut?_append (cs ds : List Char) : cut? (byteLength cs) (cs ++ ds) = some (cs, ds) := by
  induction cs with
  | nil => cases ds <;> rfl
  | cons c cs ih =>
    have hlength : byteLength (c :: cs) = c.utf8Size + byteLength cs := rfl
    have hpos := c.utf8Size_pos
    rw [List.cons_append, cut?, if_neg (by omega), if_pos (by omega), hlength,
      Nat.add_sub_cancel_left, ih]
    rfl

/-- Cut by the bytes of the next characters, a text falls apart behind them. -/
theorem cut?_take (cs : List Char) (n : Nat) :
    cut? (min (byteLength (cs.take n)) (byteLength cs)) cs = some (cs.take n, cs.drop n) := by
  have hlength : byteLength cs = byteLength (cs.take n) + byteLength (cs.drop n) := by
    rw [← byteLength_append, List.take_append_drop]
  have hcut := cut?_append (cs.take n) (cs.drop n)
  rw [List.take_append_drop] at hcut
  rw [Nat.min_eq_left (by omega), hcut]

/-- **Characters are taken whole**, by the bytes that they have. -/
theorem advance_take (k : Cursor) (n : Nat) :
    advance k (byteLength (k.rest.take n)) = .ok (k.take n) := by
  rw [advance, cut?_take]
  rfl

theorem advance_utf8Size : advance ⟨c :: cs, offset⟩ c.utf8Size =
    .ok (Cursor.take ⟨c :: cs, offset⟩ 1) := advance_take ⟨c :: cs, offset⟩ 1

/-- A lexeme is found where the cursor stands, or not at all. -/
theorem lexeme?_ofReader {start part : Char → Bool} :
    lexeme? ⟨c :: cs, offset⟩ (.ofReader (Token.lexeme? start part)) =
      .ok (if start c then
        some (Cursor.take ⟨c :: cs, offset⟩ ((cs.takeWhile part).length + 1)) else none) := by
  rw [lexeme?, Cursor.read, Pattern.ofReader, Token.lexeme?]
  cases start c with
  | true => exact congrArg (Except.map some) (advance_take ⟨c :: cs, offset⟩ _)
  | false => rfl

@[simp] theorem start_take (k : Cursor) (n : Nat) : (k.take n).1.span.start = k.offset := rfl

@[simp] theorem text_take (part : Char → Bool) :
    (Cursor.take ⟨c :: cs, offset⟩ ((cs.takeWhile part).length + 1)).1.text =
      c :: cs.takeWhile part := by
  have hprefix := List.prefix_iff_eq_take.1 (List.takeWhile_prefix part (l := cs))
  rw [Cursor.take, List.take_succ_cons, ← hprefix]

/-- **A token is read as the text goes on**, by patterns that look nowhere else. -/
theorem readToken_eq (g : Grammar α) (expected : Expectation) (offset : Nat) (c : Char)
    (cs : List Char) :
    readToken g expected c ⟨c :: cs, offset⟩ =
      ((g.contentAt expected offset c cs).mapError .fault).map fun p =>
        (⟨p.1, (Cursor.take ⟨c :: cs, offset⟩ (p.2 + 1)).1.span⟩,
          (Cursor.take ⟨c :: cs, offset⟩ (p.2 + 1)).2) := by
  rw [readToken, Grammar.contentAt, advance_utf8Size]
  cases g.operatorAt? expected c with
  | some op => rfl
  | none =>
    rw [Pattern.name, Pattern.numeral, Token.name?, Token.numeral?]
    simp only [lexeme?_ofReader, ok_bind]
    by_cases hname : Token.isNameStart c = true
    · simp only [if_pos hname, tokenOf, mapError_map, map_map, text_take, start_take]
    · simp only [if_neg hname]
      by_cases hnumeral : Token.isNumeralStart c = true
      · simp only [if_pos hnumeral, tokenOf, mapError_map, map_map, text_take, start_take]
      · simp only [if_neg hnumeral, tokenOf, mapError_map, map_map]

theorem readFrom_eq (g : Grammar α) (expected : Expectation) (k : Cursor) :
    readFrom g expected k = (g.tokensFrom expected k).mapError .fault := by
  obtain ⟨cs, offset⟩ := k
  generalize hlen : cs.length = len
  induction len using Nat.strongRecOn generalizing expected cs offset with
  | ind len ih =>
    subst hlen
    match cs with
    | [] => rw [readFrom, Grammar.tokensFrom, mapError_ok]
    | c :: cs =>
      have hshorter : ∀ n, (Cursor.take ⟨c :: cs, offset⟩ (n + 1)).2.rest.length <
          (c :: cs).length := fun n => by
        simp only [Cursor.take, List.length_drop, List.length_cons]
        omega
      rw [readFrom, Grammar.tokensFrom, readPiece]
      split
      · rw [advance_utf8Size, map_ok, ok_bind]
        dsimp only
        rw [if_pos (hshorter 0)]
        exact ih _ (hshorter 0) _ _ _ rfl
      · rw [readToken_eq]
        cases g.contentAt expected offset c cs with
        | error e => rfl
        | ok p =>
          obtain ⟨content, more⟩ := p
          simp only [mapError_ok, map_ok, ok_bind]
          rw [if_pos (hshorter more), ih _ (hshorter more) _ _ _ rfl, mapError_map]

theorem read_eq (g : Grammar α) (text : String) : read g text = (g.tokens text).mapError .fault := by
  rw [read, Grammar.tokens]
  split
  · rfl
  · exact readFrom_eq g .operand _

end Reading

/-! ## Reordering -/

/-- A token that is held back, by its index alone. -/
inductive Entry where
  | operator (index : Nat)
  | function (index : Nat)
  | openBrace (index : Nat)
deriving DecidableEq, Repr

section Reordering

variable (ts : List (Token α))

/-- The token at an index. -/
def tokenAt (index : Nat) : Except Halt (Token α) :=
  match ts[index]? with
  | some t => .ok t
  | none => .error (.lapse (.noToken index))

/-- The operator at an index. -/
def operatorAt (index : Nat) : Except Halt (Operator α) := do
  match (← tokenAt ts index).content with
  | .operator op => .ok op
  | _ => .error (.lapse (.noOperator index))

/-- The indices that are given out before `next` is held back, and the stack that is left. -/
def popBefore (next : Operator α) : List Entry → Except Halt (List Nat × List Entry)
  | [] => .ok ([], [])
  | .openBrace i :: stack => .ok ([], .openBrace i :: stack)
  | .function i :: stack => (popBefore next stack).map fun p => (i :: p.1, p.2)
  | .operator i :: stack => do
    let held ← operatorAt ts i
    if held.goesBefore next then (popBefore next stack).map fun p => (i :: p.1, p.2)
    else .ok ([], .operator i :: stack)

/-- The indices that are given out at the end of a group, and the stack from its brace on. -/
def popGroup? : List Entry → Option (List Nat × List Entry)
  | [] => none
  | .openBrace i :: stack => some ([], .openBrace i :: stack)
  | .operator i :: stack | .function i :: stack => (popGroup? stack).map fun p => (i :: p.1, p.2)

/-- The indices that are given out at the end. -/
def popAll : List Entry → Except Halt (List Nat)
  | [] => .ok []
  | .openBrace i :: _ => do
    let t ← tokenAt ts i
    .error (.fault (.invalidSyntax .missingCloseBrace (some t.span.start)))
  | .operator i :: stack | .function i :: stack => (popAll stack).map (i :: ·)

/-- The order of the tokens that are still to be read. -/
def orderFrom (stack : List Entry) : List (Placed α) → Except Halt (List Nat)
  | [] => popAll ts stack
  | (t, index) :: rest =>
    match t.content with
    | .number _ | .variable _ => (orderFrom stack rest).map (index :: ·)
    | .function _ => orderFrom (.function index :: stack) rest
    | .openBrace _ => orderFrom (.openBrace index :: stack) rest
    | .operator op => do
      let (given, kept) ← popBefore ts op stack
      (orderFrom (.operator index :: kept) rest).map (given ++ ·)
    | .separator _ =>
      match popGroup? stack with
      | none =>
        .error (.fault (.invalidSyntax .missingOpenBraceOrSeparator (some t.span.start)))
      | some (given, kept) => (orderFrom kept rest).map (given ++ ·)
    | .closeBrace _ =>
      match popGroup? stack with
      | none => .error (.fault (.invalidSyntax .missingOpenBrace (some t.span.start)))
      | some (given, kept) => (orderFrom kept.tail rest).map (given ++ ·)

/-- **What an index on the stack points at.** -/
inductive Entry.PointsAt : Entry → Held α → Prop
  | operator {i : Nat} {t : Token α} {op : Operator α} (token : ts[i]? = some t)
      (content : t.content = .operator op) : PointsAt (.operator i) (.operator i op)
  | function (i : Nat) : PointsAt (.function i) (.function i)
  | openBrace {i : Nat} {t : Token α} (token : ts[i]? = some t) :
      PointsAt (.openBrace i) (.openBrace t.span.start)

variable {ts} {entries : List Entry} {stack : List (Held α)}

theorem popBefore_eq (h : List.Forall₂ (Entry.PointsAt ts) entries stack) (op : Operator α) :
    ∃ kept, popBefore ts op entries =
        .ok ((stack.takeWhile (·.goesBefore op)).filterMap Held.index?, kept) ∧
      List.Forall₂ (Entry.PointsAt ts) kept (stack.dropWhile (·.goesBefore op)) := by
  induction h with
  | nil => exact ⟨[], rfl, .nil⟩
  | @cons entry held entries stack hentry hrest ih =>
    obtain ⟨kept, hpop, hkept⟩ := ih
    cases hentry with
    | openBrace token => exact ⟨_, rfl, .cons (.openBrace token) hrest⟩
    | function i => exact ⟨kept, by rw [popBefore, hpop]; rfl, hkept⟩
    | @operator i t held token content =>
      have hat : operatorAt ts i = .ok held := by simp [operatorAt, tokenAt, token, content]
      rw [popBefore, hat, ok_bind]
      by_cases hgoes : held.goesBefore op = true
      · have hgoes' : (Held.operator i held).goesBefore op = true := hgoes
        rw [if_pos hgoes, hpop, List.takeWhile_cons_of_pos hgoes', List.dropWhile_cons_of_pos hgoes']
        exact ⟨kept, rfl, hkept⟩
      · have hgoes' : ¬ (Held.operator i held).goesBefore op = true := hgoes
        rw [if_neg hgoes, List.takeWhile_cons_of_neg hgoes', List.dropWhile_cons_of_neg hgoes']
        exact ⟨_, rfl, .cons (.operator token content) hrest⟩

theorem popGroup?_eq (h : List.Forall₂ (Entry.PointsAt ts) entries stack) :
    (popGroup? entries = none ∧ Held.closeGroup? stack = none) ∨
      ∃ given kept rest, popGroup? entries = some (given.filterMap Held.index?, kept) ∧
        Held.closeGroup? stack = some (given, rest) ∧
          List.Forall₂ (Entry.PointsAt ts) kept rest := by
  induction h with
  | nil => exact .inl ⟨rfl, rfl⟩
  | @cons entry held entries stack hentry hrest ih =>
    cases hentry with
    | openBrace token => exact .inr ⟨[], _, _, rfl, rfl, .cons (.openBrace token) hrest⟩
    | function i | operator token content =>
      rw [popGroup?, Held.closeGroup?_cons rfl]
      rcases ih with ⟨hpop, hclose⟩ | ⟨given, kept, rest, hpop, hclose, hkept⟩
      · exact .inl ⟨by rw [hpop]; rfl, by rw [hclose]; rfl⟩
      · refine .inr ⟨_, kept, rest, ?_, by rw [hclose]; rfl, hkept⟩
        rw [hpop]
        rfl

theorem popAll_eq (h : List.Forall₂ (Entry.PointsAt ts) entries stack) :
    popAll ts entries = (Held.giveOutAll stack).mapError .fault := by
  induction h with
  | nil => rfl
  | cons hentry hrest ih =>
    cases hentry with
    | openBrace token => simp [popAll, Held.giveOutAll, tokenAt, token]
    | function i | operator token content => rw [popAll, ih, Held.giveOutAll, mapError_map]

/-- **Indices on the stack point at what is held back**, so none of them is looked up in vain. -/
theorem orderFrom_eq (h : List.Forall₂ (Entry.PointsAt ts) entries stack) {rest : List (Placed α)}
    (hrest : ∀ x ∈ rest, ts[x.2]? = some x.1) :
    orderFrom ts entries rest = (postorderFrom stack rest).mapError .fault := by
  induction rest generalizing entries stack with
  | nil => exact popAll_eq h
  | cons x rest ih =>
    obtain ⟨t, i⟩ := x
    have ht : ts[i]? = some t := hrest (t, i) (by simp)
    have ih : ∀ {entries stack}, List.Forall₂ (Entry.PointsAt ts) entries stack →
        orderFrom ts entries rest = (postorderFrom stack rest).mapError .fault :=
      fun h => ih h fun x hx => hrest x (by simp [hx])
    rw [orderFrom, postorderFrom]
    cases hc : t.content with
    | function _ => exact ih (.cons (.function i) h)
    | openBrace _ => exact ih (.cons (.openBrace ht) h)
    | operator op =>
      obtain ⟨kept, hpop, hkept⟩ := popBefore_eq h op
      simp only [hpop, ok_bind, ih (.cons (.operator ht hc) hkept), mapError_map]
    | separator _ =>
      rcases popGroup?_eq h with ⟨hpop, hclose⟩ | ⟨given, kept, below, hpop, hclose, hkept⟩
      · simp only [hpop, hclose, mapError_error]
      · simp only [hpop, hclose, ih hkept, mapError_map]
    | closeBrace _ =>
      rcases popGroup?_eq h with ⟨hpop, hclose⟩ | ⟨given, kept, below, hpop, hclose, hkept⟩
      · simp only [hpop, hclose, mapError_error]
      · have htail : List.Forall₂ (Entry.PointsAt ts) kept.tail below.tail := by
          cases hkept with
          | nil => exact .nil
          | cons _ hkept => exact hkept
        simp only [hpop, hclose, ih htail, mapError_map]
    | _ => simp only [ih h, mapError_map]

theorem order_eq (ts : List (Token α)) :
    orderFrom ts [] ts.zipIdx = (postorder ts).mapError .fault :=
  orderFrom_eq .nil fun _ hx => List.mem_zipIdx_iff_getElem?.1 hx

end Reordering

/-! ## Running -/

section Running

/-- The operand at an index. -/
def operandAt (operands : List α) (index : Nat) : Except Halt α :=
  match operands[index]? with
  | some x => .ok x
  | none => .error (.lapse (.noOperand index))

/-- The first `n` operands, looked up one after the other. -/
def operandsAt (operands : List α) : (n : Nat) → Except Halt { xs : List α // xs.length = n }
  | 0 => .ok ⟨[], rfl⟩
  | n + 1 => do
    let xs ← operandsAt operands n
    let x ← operandAt operands n
    .ok ⟨xs.1 ++ [x], by simp [xs.2]⟩

/-- The result of a native function, which looks up as many operands as its arity. -/
def invoke (n : Native α) (operands : List α) : Except Halt α := do
  let xs ← operandsAt operands n.arity
  (n.body xs.1 xs.2).mapError fun fault => .fault (.domain fault)

/-- The result of an operation, which is called with as many operands as its arity. -/
def call (o : Operation α) (operands : List α) : Except Halt α :=
  if operands.length = o.arity then invoke o.native operands
  else .error (.lapse (.misuse (.operandCount o.arity operands.length)))

/-- How many values are below the topmost `arity` ones. -/
def below (found arity : Nat) : Except Halt Nat :=
  if arity ≤ found then .ok (found - arity) else .error (.lapse (.valuesMissing arity found))

/-- The stack, its top last, after an operation on the values on top of it. -/
def apply (o : Operation α) (name : String) (stack : List α) : Except Halt (List α) :=
  if stack.length < o.arity then .error (.fault (.invalidArguments name o.arity stack.length))
  else do
    let n ← below stack.length o.arity
    if o.permits (stack.drop n) then (call o (stack.drop n)).map (stack.take n ++ [·])
    else .error (.fault (.calculationLimit (.operandsRefused name)))

/-- The stack, its top last, after one token. -/
def step (value? : String → Option α) (stack : List α) (t : Token α) : Except Halt (List α) :=
  match t.content with
  | .number value => .ok (stack ++ [value])
  | .variable name =>
    match value? name with
    | some value => .ok (stack ++ [value])
    | none => .error (.fault (.invalidName name (some t.span.start)))
  | .operator op => apply op.operation op.text stack
  | .function f => apply f.operation f.name stack
  | .openBrace c | .closeBrace c | .separator c => .error (.lapse (.mark c))

/-- The value that is alone on a stack. -/
def lastValue (stack : List α) : Except Halt α :=
  if stack.length ≠ 1 then .error (.fault (.invalidSyntax .valuesLeftOver none))
  else
    match stack[0]? with
    | some value => .ok value
    | none => .error (.lapse .noValue)

theorem operandsAt_eq {operands : List α} {n : Nat} (h : n ≤ operands.length) :
    operandsAt operands n = .ok ⟨operands.take n, List.length_take_of_le h⟩ := by
  induction n with
  | zero => rfl
  | succ n ih =>
    have hx : operands[n]? = some operands[n] := List.getElem?_eq_getElem h
    simp only [operandsAt, ih (by omega), operandAt, hx, ok_bind, List.take_append_getElem]

theorem invoke_eq {n : Native α} {operands : List α} (h : operands.length = n.arity) :
    invoke n operands = (n.body operands h).mapError fun fault => .fault (.domain fault) := by
  have hfound : operandsAt operands n.arity = .ok ⟨operands, h⟩ := by
    rw [operandsAt_eq (Nat.le_of_eq h.symm)]
    simp only [List.take_of_length_le (Nat.le_of_eq h)]
  rw [invoke, hfound, ok_bind]

/-- **A call has as many operands as it looks up.** -/
theorem call_eq {o : Operation α} {operands : List α} (h : operands.length = o.arity) :
    call o operands = (o.call operands).mapError .fault := by
  rw [call, if_pos h, invoke_eq h, o.call_of_length_eq h]
  cases o.native.body operands h <;> rfl

theorem apply_eq (o : Operation α) (name : String) (stack : List α) :
    apply o name stack.reverse = ((o.performOn name stack).mapError .fault).map List.reverse := by
  rw [apply, Operation.performOn, List.length_reverse]
  split
  · rfl
  · next hlen =>
    have hlen : o.arity ≤ stack.length := Nat.le_of_not_lt hlen
    have hoperands : (stack.take o.arity).reverse.length = o.arity := by simp [hlen]
    rw [below, if_pos hlen, ok_bind, ← List.reverse_take, ← List.reverse_drop, Operation.perform]
    split
    · rw [call_eq hoperands]
      cases o.call (stack.take o.arity).reverse <;> simp
    · rfl

theorem step_eq {t : Token α} (ht : t.content.isKept = true) (value? : String → Option α)
    (stack : List α) :
    step value? stack.reverse t = ((t.runOn value? stack).mapError .fault).map List.reverse := by
  unfold step Token.runOn
  match hc : t.content with
  | .number value => simp
  | .variable name =>
    dsimp only
    cases value? name with
    | some value => simp
    | none => rfl
  | .operator op => exact apply_eq op.operation op.text stack
  | .function f => exact apply_eq f.operation f.name stack
  | .openBrace _ | .closeBrace _ | .separator _ => simp [hc, Token.Content.isKept] at ht

theorem run_eq {ts : List (Token α)} (hts : ∀ t ∈ ts, t.content.isKept = true)
    (value? : String → Option α) (stack : List α) :
    ts.foldlM (step value?) stack.reverse =
      ((runOn value? stack ts).mapError .fault).map List.reverse := by
  induction ts generalizing stack with
  | nil => rfl
  | cons t ts ih =>
    rw [List.foldlM_cons, step_eq (hts t (by simp)), runOn, List.foldlM_cons]
    cases t.runOn value? stack with
    | error e => rfl
    | ok after => exact ih (fun t ht => hts t (by simp [ht])) after

theorem lastValue_eq (stack : List α) :
    lastValue stack.reverse = (onlyValue stack).mapError .fault := by
  match stack with
  | [] | [_] => rfl
  | _ :: _ :: _ => simp [lastValue, onlyValue]

end Running

/-! ## From a text to its value -/

/-- The value of a text in which the variables have the given values. -/
def parseAndRun (g : Grammar α) (text : String) (bindings : Bindings α) : Except Halt α := do
  let ts ← read g text
  let order ← orderFrom ts [] ts.zipIdx
  let values ← (Token.takeOut (ts.map some) order).foldlM (step (g.valueOf? bindings)) []
  lastValue values

/-- **The checked engine has no lapse**: it has the values and the errors of the engine. -/
theorem parseAndRun_eq (g : Grammar α) (text : String) (bindings : Bindings α) :
    parseAndRun g text bindings = (g.parseAndRun text bindings).mapError .fault := by
  rw [parseAndRun, Grammar.parseAndRun, Grammar.parse, Grammar.tokenize, read_eq]
  cases g.tokens text with
  | error e => rfl
  | ok ts =>
    have horder := postorder_concludes ts
    simp only [mapError_ok, ok_bind, map_ok, Expression.shunt, Expression.ofTokens, order_eq]
    generalize postorder ts = order at horder
    cases horder with
    | error _ => rfl
    | @ok order horder =>
      have hkept : ∀ t ∈ Token.select ts order, t.content.isKept = true := fun t ht =>
        (List.mem_filter.1 ((Token.select_perm horder).mem_iff.1 ht)).2
      have hrun := run_eq hkept (g.valueOf? bindings) []
      simp only [mapError_ok, map_ok, ok_bind, Token.takeOut_eq_select horder, Expression.evaluate]
      rw [List.reverse_nil] at hrun
      rw [hrun]
      cases runOn (g.valueOf? bindings) [] (Token.select ts order) with
      | error e => rfl
      | ok stack => exact lastValue_eq stack

end Checked

/-! ## Languages that are declared -/

/-- **The engine of a declared language is never at a loss.**  Its operators are made of operations
that fit; with every check in place it has no lapse, and the values and errors that it has without;
and it answers no text with a misuse, nor with a brace where tokens are run. -/
theorem Grammar.ofDeclarations_no_lapse (convert : String → Except ConversionError α)
    (ds : List (Declaration α)) :
    OperatorTable.collect? (ds.filterMap (·.prefixOp? (Declaration.defaultLimiterOf ds))) =
        .ok (ofDeclarations convert ds).prefixOperators ∧
      OperatorTable.collect? (ds.filterMap (·.infixOp? (Declaration.defaultLimiterOf ds))) =
        .ok (ofDeclarations convert ds).infixOperators ∧
      ∀ text bindings,
        (∀ lapse, Checked.parseAndRun (ofDeclarations convert ds) text bindings ≠
          .error (.lapse lapse)) ∧
        Checked.parseAndRun (ofDeclarations convert ds) text bindings =
          ((ofDeclarations convert ds).parseAndRun text bindings).mapError .fault ∧
        (∀ fault, (ofDeclarations convert ds).parseAndRun text bindings ≠ .error (.misuse fault)) ∧
        ∀ c p, (ofDeclarations convert ds).parseAndRun text bindings ≠
          .error (.invalidSyntax (.unexpectedInPostfix c) p) := by
  refine ⟨collect?_prefixOps convert ds, collect?_infixOps convert ds, fun text bindings => ?_⟩
  have hchecked := Checked.parseAndRun_eq (ofDeclarations convert ds) text bindings
  have hreports := (ofDeclarations convert ds).parseAndRun_concludes text bindings
  refine ⟨fun lapse hlapse => ?_, hchecked,
    (ofDeclarations convert ds).parseAndRun_ne_misuse text bindings, fun c p hfault => ?_⟩
  · rw [hchecked] at hlapse
    cases hrun : (ofDeclarations convert ds).parseAndRun text bindings <;> simp [hrun] at hlapse
  · exact (hreports.of_eq_error hfault).ne.2 c p rfl

end Reckon

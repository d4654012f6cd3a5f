import Mathlib
import Reckon.Proofs.Expression.Checked

/-!
# Proofs/Token/Walk — a cursor under any requests

A cursor is peeked at, and reads characters and what patterns find, in any order.  Each request takes
nothing and leaves the cursor, or **takes the part of the text from where the cursor stands to where
it then stands** (`Cursor.passes_reply`).  So the parts are the text up to the cursor, whatever the
requests (`Cursor.walk_keeps_place`).

A cursor that is moved in place counts bytes: it cuts the text by lengths in bytes, moves before it
answers, and is left as it is when a check fails.  It gives the same replies and stands at the same
place (`Checked.attempt_reply`).
-/

namespace Reckon

namespace Pattern

/-- The pattern finds nothing beyond the text. -/
def Within (pattern : Pattern) : Prop :=
  ∀ cs found, pattern cs = some found → found.skipped ≤ cs.length

theorem within_ofReader (reader : List Char → Option (List Char)) : (ofReader reader).Within := by
  intro cs found h
  obtain ⟨taken, -, rfl⟩ := Option.map_eq_some_iff.1 h
  exact Nat.zero_le _

theorem within_anywhere (c : Char) : (anywhere c).Within := by
  intro cs found h
  obtain ⟨skipped, hskipped, rfl⟩ := Option.map_eq_some_iff.1 h
  exact (List.findIdx?_eq_some_iff_findIdx_eq.1 hskipped).1.le

end Pattern

namespace Cursor

/-- A request to a cursor. -/
inductive Request where
  | peek
  | readChar
  | read (pattern : Pattern)

/-- What comes of a request. -/
inductive Reply where
  | peeked (next? : Option Char)
  | taken (excerpt : Excerpt)
  | nothing
  | lapsed (lapse : Lapse)

/-- The part of the text that has been taken. -/
def Reply.excerpt? : Reply → Option Excerpt
  | .taken e => some e
  | .peeked _ | .nothing | .lapsed _ => none

/-- The reply to a request, and the cursor after it. -/
def reply (k : Cursor) : Request → Reply × Cursor
  | .peek => (.peeked k.peek?, k)
  | .readChar =>
    match k.readChar? with
    | some ((c, span), next) => (.taken ⟨[c], span⟩, next)
    | none => (.nothing, k)
  | .read pattern =>
    match k.read pattern with
    | .ok (some (excerpt, next)) => (.taken excerpt, next)
    | .ok none => (.nothing, k)
    | .error fault => (.lapsed (.misuse fault), k)

/-- The replies to requests, one after another, and the cursor after them. -/
def walk (reply : Cursor → Request → Reply × Cursor) (k : Cursor) :
    List Request → List Reply × Cursor
  | [] => ([], k)
  | request :: requests =>
    let (answer, next) := reply k request
    let (answers, last) := walk reply next requests
    (answer :: answers, last)

/-! ## The parts that are taken -/

/-- From one cursor to the other lie these parts of the text, each where the one before it ends. -/
inductive Passes : Cursor → List Excerpt → Cursor → Prop
  | stay (k : Cursor) : Passes k [] k
  | pass {k next last : Cursor} {e : Excerpt} {es : List Excerpt}
      (text : e.text ++ next.rest = k.rest) (offset : next.offset = k.offset + e.text.length)
      (span : e.span = ⟨k.offset, next.offset⟩) (onward : Passes next es last) :
      Passes k (e :: es) last

namespace Passes

variable {k next last : Cursor} {es fs : List Excerpt}

theorem append (h : Passes k es next) (h' : Passes next fs last) : Passes k (es ++ fs) last := by
  induction h with
  | stay k => exact h'
  | pass text offset span _ ih => exact .pass text offset span (ih h')

theorem eq_of_nil (h : Passes k [] last) : last = k := by
  cases h
  rfl

/-- The parts and what is left are what there was. -/
theorem text_eq (h : Passes k es last) : es.flatMap (·.text) ++ last.rest = k.rest := by
  induction h with
  | stay k => rfl
  | pass text _ _ _ ih => rw [List.flatMap_cons, List.append_assoc, ih, text]

/-- The offset counts the characters of the parts. -/
theorem offset_eq (h : Passes k es last) :
    last.offset = k.offset + (es.flatMap (·.text)).length := by
  induction h with
  | stay k => rfl
  | pass _ offset _ _ ih => rw [ih, offset, List.flatMap_cons, List.length_append, Nat.add_assoc]

theorem start_eq (h : Passes k es last) : ∀ e ∈ es.head?, e.span.start = k.offset := by
  intro e he
  cases h with
  | stay k => nomatch he
  | pass _ _ span _ => rw [← Option.some.inj he, span]

/-- Each part starts where the one before it ends. -/
theorem isChain (h : Passes k es last) :
    es.IsChain fun e f => f.span.start = e.span.stop := by
  induction h with
  | stay k => exact .nil
  | pass _ _ span onward ih =>
    refine List.isChain_cons.2 ⟨fun f hf => ?_, ih⟩
    rw [onward.start_eq f hf, span]

/-- The span of each part has as many characters as the part. -/
theorem length_span (h : Passes k es last) : ∀ e ∈ es, e.span.length = e.text.length := by
  induction h with
  | stay k => nofun
  | pass _ offset span _ ih =>
    refine List.forall_mem_cons.2 ⟨?_, ih⟩
    rw [span, Span.length, offset, Nat.add_sub_cancel_left]

end Passes

theorem passes_take (k : Cursor) (n : Nat) : Passes k [(k.take n).1] (k.take n).2 := by
  refine .pass ?_ rfl rfl (.stay _)
  exact List.take_append_drop n k.rest

/-- **A request takes nothing, or what lies between where the cursor stood and where it stands.** -/
theorem passes_reply (k : Cursor) (request : Request) :
    Passes k (k.reply request).1.excerpt?.toList (k.reply request).2 := by
  cases request with
  | peek => exact .stay k
  | readChar =>
    obtain ⟨_ | ⟨c, cs⟩, offset⟩ := k
    · exact .stay _
    · exact passes_take ⟨c :: cs, offset⟩ 1
  | read pattern =>
    rw [reply, Cursor.read]
    cases pattern k.rest with
    | none => exact .stay k
    | some found =>
      dsimp only
      split_ifs
      · exact passes_take k found.length
      · exact .stay k

/-- **So do requests, one after another.** -/
theorem passes_walk (k : Cursor) (requests : List Request) :
    Passes k ((walk reply k requests).1.filterMap Reply.excerpt?) (walk reply k requests).2 := by
  induction requests generalizing k with
  | nil => exact .stay k
  | cons request requests ih =>
    have hcons : (walk reply k (request :: requests)).1.filterMap Reply.excerpt? =
        (k.reply request).1.excerpt?.toList ++
          (walk reply (k.reply request).2 requests).1.filterMap Reply.excerpt? := by
      rw [walk, List.filterMap_cons]
      cases (k.reply request).1.excerpt? <;> rfl
    rw [hcons]
    exact (passes_reply k request).append (ih (k.reply request).2)

end Cursor

namespace Checked

open Cursor (Request Reply)

/-! ## The cursor that is moved in place -/

/-- A computation that moves a cursor. -/
abbrev Move := EStateM Lapse Cursor

/-- Moves over the next so many bytes, or over all if there are fewer. -/
def moveOver (bytes : Nat) : Move Excerpt := do
  let start := (← get).offset
  match cut? (min bytes (byteLength (← get).rest)) (← get).rest with
  | none => throw (.withinCharacter bytes)
  | some (text, rest) =>
    modify fun k => { k with offset := k.offset + text.length }
    modify fun k => { k with rest := rest }
    return ⟨text, ⟨start, (← get).offset⟩⟩

/-- Moves over the next character. -/
def moveOverChar : Move (Option (Char × Span)) := do
  match (← get).peek? with
  | none => return none
  | some c => return some (c, (← moveOver c.utf8Size).span)

/-- Moves over what the pattern finds; it must begin no byte further on. -/
def moveOverMatch (pattern : Pattern) : Move (Option Excerpt) := do
  let rest := (← get).rest
  match pattern rest with
  | none => return none
  | some found =>
    if byteLength (rest.take found.skipped) = 0 then
      return some (← moveOver (byteLength ((rest.drop found.skipped).take found.length)))
    else throw (.misuse (.matchBeyondCursor found.skipped))

/-- The reply to a request. -/
def reply : Request → Move Reply
  | .peek => return .peeked (← get).peek?
  | .readChar => do
    match ← moveOverChar with
    | some (c, span) => return .taken ⟨[c], span⟩
    | none => return .nothing
  | .read pattern => do
    match ← moveOverMatch pattern with
    | some excerpt => return .taken excerpt
    | none => return .nothing

/-- The reply to a request, or the lapse that it ends in, and the cursor as the request leaves it. -/
def attempt (k : Cursor) (request : Request) : Reply × Cursor :=
  match reply request k with
  | .ok answer next => (answer, next)
  | .error lapse next => (.lapsed lapse, next)

theorem length_le_byteLength (cs : List Char) : cs.length ≤ byteLength cs := by
  induction cs with
  | nil => exact le_rfl
  | cons c cs ih =>
    have hlength : byteLength (c :: cs) = c.utf8Size + byteLength cs := rfl
    have hpos := c.utf8Size_pos
    rw [List.length_cons, hlength]
    omega

/-- A computation that has moved the cursor goes on there. -/
theorem bind_of_ok {β γ : Type} {move : Move β} {f : β → Move γ} {k next : Cursor} {b : β}
    (h : move k = .ok b next) : (move >>= f) k = f b next := by
  change EStateM.bind move f k = _
  rw [EStateM.bind, h]

theorem bind_of_error {β γ : Type} {move : Move β} {f : β → Move γ} {k next : Cursor}
    {lapse : Lapse} (h : move k = .error lapse next) : (move >>= f) k = .error lapse next := by
  change EStateM.bind move f k = _
  rw [EStateM.bind, h]

/-- **The bytes of the next characters are moved over as the characters are taken.** -/
theorem moveOver_take (k : Cursor) (n : Nat) :
    moveOver (byteLength (k.rest.take n)) k = .ok (k.take n).1 (k.take n).2 := by
  have hcut := cut?_take k.rest n
  simp only [moveOver, bind, EStateM.bind, get, getThe, MonadStateOf.get, EStateM.get, hcut]
  rfl

theorem moveOverChar_eq (k : Cursor) :
    moveOverChar k =
      match k.readChar? with
      | some (read, next) => .ok (some read) next
      | none => .ok none k := by
  obtain ⟨_ | ⟨c, cs⟩, offset⟩ := k
  · rfl
  · have hmove : moveOver c.utf8Size ⟨c :: cs, offset⟩ = _ := moveOver_take ⟨c :: cs, offset⟩ 1
    exact bind_of_ok hmove

theorem moveOverMatch_eq (k : Cursor) {pattern : Pattern} (hwithin : pattern.Within) :
    moveOverMatch pattern k =
      match k.read pattern with
      | .ok (some (excerpt, next)) => .ok (some excerpt) next
      | .ok none => .ok none k
      | .error fault => .error (.misuse fault) k := by
  have hget : (get : Move Cursor) k = .ok k k := rfl
  rw [moveOverMatch, bind_of_ok hget, Cursor.read]
  cases hpattern : pattern k.rest with
  | none => rfl
  | some found =>
    dsimp only
    by_cases hskipped : found.skipped = 0
    · have hbytes : byteLength (k.rest.take found.skipped) = 0 := by
        rw [hskipped]
        rfl
      rw [if_pos hbytes, if_pos hskipped, hskipped, List.drop_zero]
      exact bind_of_ok (moveOver_take k found.length)
    · -- Within the text, characters that are skipped have bytes; beyond it there are none to count.
      have hlength := length_le_byteLength (k.rest.take found.skipped)
      rw [List.length_take, Nat.min_eq_left (hwithin _ _ hpattern)] at hlength
      have hbytes : byteLength (k.rest.take found.skipped) ≠ 0 := by omega
      rw [if_neg hskipped, if_neg hbytes]
      rfl

/-- **A request in place has the reply of the request, and leaves the cursor as the request does.** -/
theorem attempt_reply (k : Cursor) (request : Request)
    (hwithin : ∀ pattern, request = .read pattern → pattern.Within) :
    attempt k request = k.reply request := by
  cases request with
  | peek => rfl
  | readChar =>
    have hchar := moveOverChar_eq k
    rw [attempt, reply, Cursor.reply]
    rcases hread : k.readChar? with _ | ⟨⟨c, span⟩, next⟩
    all_goals
      rw [hread] at hchar
      rw [bind_of_ok hchar]
      rfl
  | read pattern =>
    have hmatch := moveOverMatch_eq k (hwithin pattern rfl)
    rw [attempt, reply, Cursor.reply]
    rcases hread : k.read pattern with fault | _ | ⟨excerpt, next⟩
    · rw [hread] at hmatch
      rw [bind_of_error hmatch]
    all_goals
      rw [hread] at hmatch
      rw [bind_of_ok hmatch]
      rfl

theorem walk_attempt (k : Cursor) (requests : List Request)
    (hwithin : ∀ pattern, .read pattern ∈ requests → pattern.Within) :
    Cursor.walk attempt k requests = Cursor.walk Cursor.reply k requests := by
  induction requests generalizing k with
  | nil => rfl
  | cons request requests ih =>
    have hrequest : attempt k request = k.reply request := by
      refine attempt_reply k request fun pattern hpattern => hwithin pattern ?_
      exact hpattern ▸ List.mem_cons_self
    have hwithin : ∀ pattern, .read pattern ∈ requests → pattern.Within := fun pattern hpattern =>
      hwithin pattern (List.mem_cons_of_mem request hpattern)
    rw [Cursor.walk, Cursor.walk, hrequest]
    dsimp only
    rw [ih _ hwithin]

end Checked

/-! ## Any requests -/

namespace Cursor

/-- A request that takes nothing leaves the cursor. -/
theorem reply_eq_of_excerpt? {k : Cursor} {request : Request}
    (h : (k.reply request).1.excerpt? = none) : (k.reply request).2 = k := by
  have hpasses := passes_reply k request
  rw [h] at hpasses
  exact hpasses.eq_of_nil

theorem peek?_eq_none_iff (k : Cursor) : k.peek? = none ↔ k.atEnd = true := by
  rw [peek?, atEnd, List.head?_eq_none_iff, List.isEmpty_iff]

/-- **A cursor never loses its place.**  Whatever the requests, the parts that have been taken are the
text up to the cursor, and what is left is the rest of it; the cursor has counted their characters.
The spans of the parts adjoin, from zero on, and have as many characters as the parts.  The cursor is
at the end iff it has counted all characters of the text, and iff there is none to peek at.  A request
that takes nothing leaves the cursor.  All of this is true of the cursor that is moved in place by
counts of bytes, as long as no pattern finds anything beyond the text. -/
theorem walk_keeps_place (text : String) (requests : List Request) :
    let replies := (walk reply (ofText text) requests).1
    let k := (walk reply (ofText text) requests).2
    let excerpts := replies.filterMap Reply.excerpt?
    excerpts.flatMap (·.text) ++ k.rest = text.toList ∧
    k.offset = (excerpts.flatMap (·.text)).length ∧
    (∀ e ∈ excerpts.head?, e.span.start = 0) ∧
    (excerpts.IsChain fun e f => f.span.start = e.span.stop) ∧
    (∀ e ∈ excerpts, e.span.length = e.text.length) ∧
    (k.atEnd = true ↔ k.offset = text.length) ∧
    (k.peek? = none ↔ k.offset = text.length) ∧
    (∀ request, (k.reply request).1.excerpt? = none → (k.reply request).2 = k) ∧
    ((∀ pattern, .read pattern ∈ requests → pattern.Within) →
      walk Checked.attempt (ofText text) requests = (replies, k)) := by
  intro replies k excerpts
  have hpasses : Passes (ofText text) excerpts k := passes_walk (ofText text) requests
  have htext : excerpts.flatMap (·.text) ++ k.rest = text.toList := hpasses.text_eq
  have hoffset : k.offset = (excerpts.flatMap (·.text)).length := by
    rw [hpasses.offset_eq, ofText, Nat.zero_add]
  have hend : k.atEnd = true ↔ k.offset = text.length := by
    rw [atEnd, List.isEmpty_iff, ← List.length_eq_zero_iff, ← String.length_toList, ← htext,
      List.length_append, ← hoffset]
    omega
  exact ⟨htext, hoffset, hpasses.start_eq, hpasses.isChain, hpasses.length_span, hend,
    (peek?_eq_none_iff k).trans hend, fun _ => reply_eq_of_excerpt?, Checked.walk_attempt _ requests⟩

/-- A name is read, a character that is further on is not, and then one character is. -/
theorem walk_keeps_place_letters :
    let requests := [.read .name, .read (.anywhere '1'), .readChar, .peek]
    let k := (walk reply (ofText "λx 1") requests).2
    k = ⟨['1'], 3⟩ ∧ (k.atEnd = true ↔ k.offset = "λx 1".length) ∧
      (walk Checked.attempt (ofText "λx 1") requests).2 = k := by
  intro requests k
  obtain ⟨-, -, -, -, -, hend, -, -, hplace⟩ := walk_keeps_place "λx 1" requests
  refine ⟨by decide, hend, congrArg Prod.snd (hplace fun pattern hpattern => ?_)⟩
  simp only [requests, List.mem_cons, List.not_mem_nil, Request.read.injEq, reduceCtorEq, or_false]
    at hpattern
  rcases hpattern with rfl | rfl
  · exact Pattern.within_ofReader Token.name?
  · exact Pattern.within_anywhere '1'

end Cursor

end Reckon

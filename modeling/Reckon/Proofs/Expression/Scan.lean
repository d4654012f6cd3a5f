import Mathlib.Data.List.Basic
import Reckon.Expression.Run
import Reckon.Proofs.Expression.Spelling

/-!
# Proofs/Expression/Scan — a text read one token at a time

`Grammar.Scans` is the reading of a text as a relation: white space, or one token and then the rest.
**A text that is read in one place is read alike in every place** (`Grammar.spells_iff_scans`), and
before a text that carries on neither a name nor a numeral it is read as it is alone
(`Grammar.Spells.append`).
-/

namespace Reckon

variable {α : Type}

/-- What may stand after tokens of these contents. -/
def Expectation.following (expected : Expectation) (contents : List (Token.Content α)) :
    Expectation :=
  contents.foldl (fun _ content => .after content) expected

@[simp] theorem Expectation.following_nil (expected : Expectation) :
    expected.following ([] : List (Token.Content α)) = expected := rfl

@[simp] theorem Expectation.following_cons (expected : Expectation) (content : Token.Content α)
    (contents : List (Token.Content α)) :
    expected.following (content :: contents) = (after content).following contents := rfl

namespace Grammar

/-- The text `cs` consists of white space and tokens of these contents, and `expected` may stand at
its start. -/
inductive Scans (g : Grammar α) : Expectation → List Char → List (Token.Content α) → Prop
  | done (expected : Expectation) : Scans g expected [] []
  | space {expected : Expectation} {c : Char} {cs : List Char}
      {contents : List (Token.Content α)} (blank : g.isWhitespace c = true)
      (others : Scans g expected cs contents) : Scans g expected (c :: cs) contents
  | token {expected : Expectation} {c : Char} (more : List Char) {rest : List Char}
      {content : Token.Content α} {contents : List (Token.Content α)}
      (solid : g.isWhitespace c = false)
      (read : ∀ offset,
        g.contentAt expected offset c (more ++ rest) = .ok (content, more.length))
      (others : Scans g (.after content) rest contents) :
      Scans g expected (c :: more ++ rest) (content :: contents)

/-- How the token that begins with `c` is found: the character is an operator there, or begins a name
or a numeral, or is a mark. -/
inductive LexemeAt (g : Grammar α) (expected : Expectation) (c : Char) : Prop
  | operator (op : Operator α) (found : g.operatorAt? expected c = some op)
      (read : ∀ offset cs, g.contentAt expected offset c cs = .ok (.operator op, 0))
  | name (start : Token.isNameStart c = true)
      (read : ∀ offset cs, g.contentAt expected offset c cs =
        (g.contentOfName offset (String.ofList (c :: cs.takeWhile Token.isNamePart))).map
          (·, (cs.takeWhile Token.isNamePart).length))
  | numeral (start : Token.isNumeralStart c = true)
      (read : ∀ offset cs, g.contentAt expected offset c cs =
        (g.contentOfNumeral offset (String.ofList (c :: cs.takeWhile Token.isNumeralPart))).map
          (·, (cs.takeWhile Token.isNumeralPart).length))
  | mark (read : ∀ offset cs, g.contentAt expected offset c cs = (g.contentOfMark offset c).map (·, 0))

theorem lexemeAt (g : Grammar α) (expected : Expectation) (c : Char) : g.LexemeAt expected c := by
  cases hop : g.operatorAt? expected c with
  | some op => exact .operator op hop fun offset cs => by simp only [contentAt, hop]
  | none =>
    by_cases hname : Token.isNameStart c = true
    · exact .name hname fun offset cs => by simp only [contentAt, hop, if_pos hname]
    · by_cases hnumeral : Token.isNumeralStart c = true
      · exact .numeral hnumeral fun offset cs => by
          simp only [contentAt, hop, if_neg hname, if_pos hnumeral]
      · exact .mark fun offset cs => by
          simp only [contentAt, hop, if_neg hname, if_neg hnumeral]

variable {g : Grammar α} {expected : Expectation} {offset : Nat} {c : Char} {cs rest : List Char}
  {content : Token.Content α} {contents : List (Token.Content α)} {n : Nat}

theorem breaks_nil : Breaks [] := by simp [Breaks]

/-- What a name stands for depends on the place of the text only in what is reported. -/
theorem contentOfName_eq_ok {name : String} (h : g.contentOfName offset name = .ok content)
    (other : Nat) : g.contentOfName other name = .ok content := by
  rw [contentOfName] at h ⊢
  cases hf : g.functions.get? name with
  | some f => simpa only [hf] using h
  | none =>
    simp only [hf] at h ⊢
    split_ifs at h ⊢
    exact h

theorem contentOfNumeral_eq_ok {numeral : String}
    (h : g.contentOfNumeral offset numeral = .ok content) (other : Nat) :
    g.contentOfNumeral other numeral = .ok content := by
  rw [contentOfNumeral] at h ⊢
  cases hvalue : g.convert numeral with
  | ok value => simpa only [hvalue] using h
  | error cause => simp [hvalue] at h

theorem contentOfMark_eq_ok (h : g.contentOfMark offset c = .ok content) (other : Nat) :
    g.contentOfMark other c = .ok content := by
  rw [contentOfMark] at h ⊢
  split_ifs at h ⊢
  all_goals exact h

/-- **A token stands for the same before any text that does not carry it on, in every place.** -/
theorem contentAt_append (h : g.contentAt expected offset c cs = .ok (content, n))
    (hrest : Breaks rest) : n ≤ cs.length ∧
      ∀ other, g.contentAt expected other c (cs ++ rest) = .ok (content, n) := by
  have hname : (cs ++ rest).takeWhile Token.isNamePart = cs.takeWhile Token.isNamePart :=
    takeWhile_append_of_head fun d hd => (hrest d hd).1
  have hnumeral : (cs ++ rest).takeWhile Token.isNumeralPart = cs.takeWhile Token.isNumeralPart :=
    takeWhile_append_of_head fun d hd => (hrest d hd).2
  cases g.lexemeAt expected c with
  | operator op _ read =>
    rw [read, Except.ok.injEq, Prod.mk.injEq] at h
    obtain ⟨rfl, rfl⟩ := h
    exact ⟨Nat.zero_le _, fun other => read other _⟩
  | name _ read =>
    rw [read] at h
    obtain ⟨_, hcontent, heq⟩ := map_eq_ok_iff.1 h
    obtain ⟨rfl, rfl⟩ := Prod.mk.inj heq
    exact ⟨(List.takeWhile_prefix _).length_le, fun other => by
      rw [read, hname, contentOfName_eq_ok hcontent other, map_ok]⟩
  | numeral _ read =>
    rw [read] at h
    obtain ⟨_, hcontent, heq⟩ := map_eq_ok_iff.1 h
    obtain ⟨rfl, rfl⟩ := Prod.mk.inj heq
    exact ⟨(List.takeWhile_prefix _).length_le, fun other => by
      rw [read, hnumeral, contentOfNumeral_eq_ok hcontent other, map_ok]⟩
  | mark read =>
    rw [read] at h
    obtain ⟨_, hcontent, heq⟩ := map_eq_ok_iff.1 h
    obtain ⟨rfl, rfl⟩ := Prod.mk.inj heq
    exact ⟨Nat.zero_le _, fun other => by rw [read, contentOfMark_eq_ok hcontent other, map_ok]⟩

/-- A text that has been read is white space and tokens. -/
theorem scans_of_tokensFrom {ts : List (Token α)}
    (h : g.tokensFrom expected ⟨cs, offset⟩ = .ok ts) :
    g.Scans expected cs (ts.map Token.content) := by
  generalize hlen : cs.length = len
  induction len using Nat.strongRecOn generalizing expected cs offset ts with
  | ind len ih =>
    subst hlen
    match cs with
    | [] =>
      rw [tokensFrom, Except.ok.injEq] at h
      subst h
      exact .done expected
    | c :: cs =>
      rw [tokensFrom] at h
      split at h
      · next hspace => exact .space hspace (ih _ (by simp) h rfl)
      · next hspace =>
        cases hcontent : g.contentAt expected offset c cs with
        | error e => simp [hcontent] at h
        | ok p =>
          obtain ⟨content, n⟩ := p
          simp only [hcontent] at h
          obtain ⟨others, hothers, rfl⟩ := map_eq_ok_iff.1 h
          obtain ⟨hn, hread⟩ := contentAt_append hcontent breaks_nil
          have hlen : (cs.take n).length = n := by simp [hn]
          have hshorter : (cs.drop n).length < (c :: cs).length := by
            simp only [List.length_drop, List.length_cons]
            omega
          have hothers : g.Scans (.after content) (cs.drop n) (others.map Token.content) :=
            ih _ hshorter hothers rfl
          rw [← List.take_append_drop n cs, ← List.cons_append]
          exact .token _ (by simpa using hspace) (fun other => by simpa [hlen] using hread other)
            hothers

/-- **A text is read alike wherever it starts**, as white space and tokens. -/
theorem spells_iff_scans : g.Spells expected cs contents ↔ g.Scans expected cs contents := by
  constructor
  · intro h
    obtain ⟨ts, hts, rfl⟩ := h 0
    exact scans_of_tokensFrom hts
  · intro h
    induction h with
    | done expected => exact spells_nil
    | space blank _ ih => exact spells_space blank ih
    | token more solid read _ ih => exact spells_cons more solid read ih

/-- **A text is read before another one as it is alone**, if that carries on none of its tokens. -/
theorem Spells.append {others : List (Token.Content α)} (h : g.Spells expected cs contents)
    (hrest : Breaks rest) (hothers : g.Spells (expected.following contents) rest others) :
    g.Spells expected (cs ++ rest) (contents ++ others) := by
  rw [spells_iff_scans] at h
  induction h with
  | done expected => exact hothers
  | space blank _ ih => exact spells_space blank (ih hothers)
  | @token expected c more cs content contents solid read _ ih =>
    rw [List.append_assoc]
    refine spells_cons more solid (fun offset => ?_) (ih hothers)
    rw [← List.append_assoc]
    exact (contentAt_append (read offset) hrest).2 offset

end Grammar

end Reckon

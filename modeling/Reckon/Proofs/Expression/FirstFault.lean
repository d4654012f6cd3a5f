import Reckon.Proofs.Expression.Located
import Reckon.Proofs.Expression.Progress

/-!
# Proofs/Expression/FirstFault — reading fails at the first lexeme that stands for nothing

What stands before that lexeme is read, and what comes behind it is never looked at: **the text up to
the lexeme is a text of the language, and the same fault is found however the text goes on**, as long
as the lexeme does not go on with it (`Grammar.fault_of_tokenize`).
-/

namespace Reckon

variable {α : Type}

/-- A lexeme that ends within a text ends there however the text goes on. -/
theorem takeWhile_append_of_length_lt {part : Char → Bool} {cs : List Char}
    (h : (cs.takeWhile part).length < cs.length) (more : List Char) :
    (cs ++ more).takeWhile part = cs.takeWhile part := by
  rw [List.takeWhile_append, if_neg (Nat.ne_of_lt h)]

namespace Grammar

variable {g : Grammar α} {expected : Expectation} {offset : Nat} {c : Char} {cs : List Char}
  {e : Error}

/-- The error is that no token begins with the character, at the place. -/
def IsInvalidCharacter (p : Nat) (cs : List Char) (e : Error) : Prop :=
  ∃ c, cs.head? = some c ∧ e = .invalidSyntax (.invalidCharacter c) (some p)

/-- The error is that the longest name or numeral at the start of the text, at the place, stands for
nothing. -/
def IsInvalidLexeme (g : Grammar α) (p : Nat) (cs : List Char) (lexeme : String) (e : Error) :
    Prop :=
  (Token.IsLongest Token.IsName lexeme cs ∧ g.functions.get? lexeme = none ∧
      g.admitsVariable lexeme = false ∧ e = .invalidName lexeme (some p)) ∨
    Token.IsLongest Token.IsNumeral lexeme cs ∧
      ∃ cause, g.convert lexeme = .error cause ∧ e = .conversion lexeme p cause

theorem contentOfName_eq_error {name : String} (h : g.contentOfName offset name = .error e) :
    g.functions.get? name = none ∧ g.admitsVariable name = false ∧
      e = .invalidName name (some offset) := by
  rw [contentOfName] at h
  cases hf : g.functions.get? name with
  | some f =>
    simp only [hf] at h
    cases h
  | none =>
    simp only [hf] at h
    split at h
    · cases h
    · next hadmits => exact ⟨rfl, by simpa using hadmits, (Except.error.inj h).symm⟩

theorem contentOfNumeral_eq_error {numeral : String}
    (h : g.contentOfNumeral offset numeral = .error e) :
    ∃ cause, g.convert numeral = .error cause ∧ e = .conversion numeral offset cause := by
  rw [contentOfNumeral] at h
  cases hvalue : g.convert numeral with
  | ok value =>
    simp only [hvalue] at h
    cases h
  | error cause =>
    simp only [hvalue] at h
    exact ⟨cause, rfl, (Except.error.inj h).symm⟩

theorem contentOfMark_eq_error (h : g.contentOfMark offset c = .error e) :
    e = .invalidSyntax (.invalidCharacter c) (some offset) := by
  rw [contentOfMark] at h
  split_ifs at h
  exact (Except.error.inj h).symm

/-- **A lexeme that stands for nothing does so however the text goes on**, unless it goes on with
it. -/
theorem contentAt_eq_error (h : g.contentAt expected offset c cs = .error e) :
    (IsInvalidCharacter offset (c :: cs) e ∧
        ∀ more, g.contentAt expected offset c (cs ++ more) = .error e) ∨
      ∃ lexeme, g.IsInvalidLexeme offset (c :: cs) lexeme e ∧
        (lexeme.length < (c :: cs).length →
          ∀ more, g.contentAt expected offset c (cs ++ more) = .error e) := by
  cases g.lexemeAt expected c with
  | operator op _ read =>
    rw [read] at h
    cases h
  | name start read =>
    rw [read, map_eq_error_iff] at h
    obtain ⟨hfunction, hadmits, rfl⟩ := contentOfName_eq_error h
    refine .inr ⟨_, .inl ⟨Token.isLongest_name start, hfunction, hadmits, rfl⟩,
      fun hlength more => ?_⟩
    rw [← String.length_toList, String.toList_ofList] at hlength
    rw [read, takeWhile_append_of_length_lt (Nat.lt_of_succ_lt_succ hlength), h, map_error]
  | numeral start read =>
    rw [read, map_eq_error_iff] at h
    obtain ⟨cause, hcause, rfl⟩ := contentOfNumeral_eq_error h
    refine .inr ⟨_, .inr ⟨Token.isLongest_numeral start, cause, hcause, rfl⟩,
      fun hlength more => ?_⟩
    rw [← String.length_toList, String.toList_ofList] at hlength
    rw [read, takeWhile_append_of_length_lt (Nat.lt_of_succ_lt_succ hlength), h, map_error]
  | mark read =>
    rw [read, map_eq_error_iff] at h
    obtain rfl := contentOfMark_eq_error h
    exact .inl ⟨⟨c, rfl, rfl⟩, fun more => by rw [read, h, map_error]⟩

/-- **Reading fails at the first lexeme that stands for nothing, and nowhere else.**  The error has a
place within the text, and the text up to there is read.  At the place stands a character that no
token begins with, and every text that begins with this one has the same error; or there stands a
name or a numeral that stands for nothing, and if it ends within the text, every text that begins
with this one has the same error. -/
theorem fault_of_tokenize (g : Grammar α) {text : String} {e : Error} (htext : text ≠ "")
    (h : g.tokenize text = .error e) :
    ∃ p, e.position? = some p ∧ p < text.length ∧
      (0 < p → ∃ x, g.tokenize (String.ofList (text.toList.take p)) = .ok x) ∧
      ((IsInvalidCharacter p (text.toList.drop p) e ∧ ∀ s, g.tokenize (text ++ s) = .error e) ∨
        ∃ lexeme, g.IsInvalidLexeme p (text.toList.drop p) lexeme e ∧
          (p + lexeme.length < text.length → ∀ s, g.tokenize (text ++ s) = .error e)) := by
  rw [tokenize_eq htext, map_eq_error_iff] at h
  obtain ⟨before, rest, ts, hsplit, hscans, c, cs, rfl, hsolid, hread⟩ :=
    exists_stuck_of_tokensFrom h
  rw [Nat.zero_add] at hread
  have hlength : text.length = before.length + (c :: cs).length := by
    rw [← String.length_toList, hsplit, List.length_append]
  have hdrop : text.toList.drop before.length = c :: cs := by rw [hsplit, List.drop_left]
  -- What was read before the lexeme is read alike before the longer text.
  have hextends : (∀ more, g.contentAt (Expectation.operand.following (ts.map Token.content))
      before.length c (cs ++ more) = .error e) → ∀ s, g.tokenize (text ++ s) = .error e := by
    intro hmore s
    have hlonger : g.ScansBefore (c :: (cs ++ s.toList)) .operand 0 before ts :=
      hscans.before fun d hd => .inl hd
    refine hlonger.tokenize_eq_error ⟨c, cs ++ s.toList, rfl, hsolid, hmore s.toList⟩ ?_
    rw [String.toList_append, hsplit, List.append_assoc, List.cons_append]
  refine ⟨before.length, ?_, by simp [hlength], fun hpositive => ?_, ?_⟩
  · exact ((g.contentAt_concludes _ _ c cs).of_eq_error hread).1
  · have htake : text.toList.take before.length = before := by rw [hsplit, List.take_left]
    have hne : String.ofList before ≠ "" := fun hempty => by
      have hnil : before = [] := by simpa using congrArg String.toList hempty
      simp [hnil] at hpositive
    have hpart := hscans.before beginsLike_nil
    exact ⟨_, by rw [htake]; exact ScansBefore.tokenize_eq_ok (by rwa [String.toList_ofList]) hne⟩
  · rw [hdrop]
    rcases contentAt_eq_error hread with ⟨hfault, hmore⟩ | ⟨lexeme, hfault, hmore⟩
    · exact .inl ⟨hfault, hextends hmore⟩
    · exact .inr ⟨lexeme, hfault, fun hends => hextends (hmore (by omega))⟩

/-- The integers with a sum and a difference. -/
private def sumsAndDifferences : Grammar Int :=
  .ofDeclarations (fun numeral => if numeral = "2" then .ok 2 else .error ⟨"unknown numeral"⟩)
    [.infixOp '+' .left 1 (fun a b => .ok (a + b)) none,
      .infixOp '-' .left 1 (fun a b => .ok (a - b)) none]

/-- A name that stands for nothing is found however the text goes on behind it. -/
theorem fault_of_tokenize_unknown :
    sumsAndDifferences.tokenize "2+λx-2" = .error (.invalidName "λx" (some 2)) ∧
      (∃ x, sumsAndDifferences.tokenize "2+" = .ok x) ∧
      ∀ s, sumsAndDifferences.tokenize ("2+λx-2" ++ s) = .error (.invalidName "λx" (some 2)) := by
  have herror : sumsAndDifferences.tokenize "2+λx-2" = .error (.invalidName "λx" (some 2)) := by
    with_unfolding_all rfl
  obtain ⟨p, hp, -, hbefore, hfault⟩ := fault_of_tokenize sumsAndDifferences (by decide) herror
  obtain rfl : 2 = p := Option.some.inj hp
  refine ⟨herror, hbefore (by decide), ?_⟩
  rcases hfault with ⟨⟨_, -, hcharacter⟩, -⟩ | ⟨lexeme, ⟨-, -, -, hname⟩ | ⟨-, _, -, hnumeral⟩, hmore⟩
  · cases hcharacter
  · obtain rfl : "λx" = lexeme := (Error.invalidName.inj hname).1
    exact hmore (by decide)
  · cases hnumeral

end Grammar

end Reckon

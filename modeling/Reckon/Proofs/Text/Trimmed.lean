import Mathlib.Data.List.TakeWhile
import Reckon.Text.Blank

/-!
# Proofs/Text/Trimmed — text between white space

Trimming leaves of a text its core, **and nothing else if the core is without white space**
(`Text.trimBlank_eq_iff`).
-/

namespace Reckon.Text

/-- The text is the core with white space before and after it. -/
def HasCore (text core : List Char) : Prop :=
  ∃ before after, text = before ++ core ++ after ∧ (∀ c ∈ before, isBlank c = true) ∧
    ∀ c ∈ after, isBlank c = true

/-- White space is one of these code points. -/
theorem isBlank_iff {c : Char} :
    isBlank c = true ↔ ∃ r ∈ blankRanges, r.1 ≤ c.toNat ∧ c.toNat ≤ r.2 :=
  Ranges.covers_iff blankRanges_ascend

/-- A visible character of the basic block is not white space. -/
theorem isBlank_eq_false {c : Char} (hlo : 0x21 ≤ c.toNat) (hhi : c.toNat ≤ 0x7E) :
    isBlank c = false := by
  refine Bool.eq_false_iff.2 fun h => ?_
  obtain ⟨r, hr, hr₁, hr₂⟩ := isBlank_iff.1 h
  simp only [blankRanges, List.mem_cons, List.not_mem_nil, or_false] at hr
  rcases hr with rfl | rfl | rfl | rfl | rfl | rfl | rfl | rfl | rfl | rfl <;> omega

/-- A text is what trimming leaves of it, with white space around that. -/
theorem hasCore_trimBlank (text : List Char) : HasCore text (trimBlank text) := by
  refine ⟨text.takeWhile isBlank, ((text.dropWhile isBlank).reverse.takeWhile isBlank).reverse, ?_,
    fun c hc => List.mem_takeWhile_imp hc,
    fun c hc => List.mem_takeWhile_imp (List.mem_reverse.1 hc)⟩
  rw [trimBlank, List.append_assoc, ← List.reverse_append, List.takeWhile_append_dropWhile,
    List.reverse_reverse, List.takeWhile_append_dropWhile]

variable {text core : List Char}

theorem dropWhile_isBlank (hcore : ∀ c ∈ core, isBlank c = false) :
    core.dropWhile isBlank = core := by
  cases core with
  | nil => rfl
  | cons c cs => exact List.dropWhile_cons_of_neg (by simp [hcore c (by simp)])

/-- **A core without white space is what trimming leaves of a text iff it is the core of the text.** -/
theorem trimBlank_eq_iff (hcore : ∀ c ∈ core, isBlank c = false) :
    trimBlank text = core ↔ HasCore text core := by
  constructor
  · rintro rfl
    exact hasCore_trimBlank text
  · rintro ⟨before, after, rfl, hbefore, hafter⟩
    have hfront : (before ++ core ++ after).dropWhile isBlank = (core ++ after).dropWhile isBlank := by
      rw [List.append_assoc, List.dropWhile_append_of_pos hbefore]
    rw [trimBlank, hfront]
    cases core with
    | nil =>
      rw [List.nil_append, List.dropWhile_eq_nil_iff.2 hafter]
      rfl
    | cons c cs =>
      have hkeep : (c :: cs ++ after).dropWhile isBlank = c :: cs ++ after :=
        List.dropWhile_cons_of_neg (by simp [hcore c (by simp)])
      rw [hkeep, List.reverse_append, List.dropWhile_append_of_pos (by simpa using hafter),
        dropWhile_isBlank fun d hd => hcore d (List.mem_reverse.1 hd), List.reverse_reverse]

/-- White space at the end of a text is trimmed. -/
theorem trimBlank_append {after : List Char} (h : ∀ c ∈ after, isBlank c = true) :
    trimBlank (text ++ after) = trimBlank text := by
  rw [trimBlank, trimBlank, List.dropWhile_append]
  split
  · next hblank => rw [List.isEmpty_iff.1 hblank, List.dropWhile_eq_nil_iff.2 h]
  · rw [List.reverse_append, List.dropWhile_append_of_pos (by simpa using h)]

/-- What is asked of a trimmed text, if it is true of no text with white space, is asked of a core. -/
theorem trimBlank_iff {P : List Char → Prop} (hP : ∀ cs, P cs → ∀ c ∈ cs, isBlank c = false) :
    P (trimBlank text) ↔ ∃ cs, HasCore text cs ∧ P cs := by
  constructor
  · exact fun h => ⟨_, hasCore_trimBlank text, h⟩
  · rintro ⟨cs, hcore, h⟩
    rwa [(trimBlank_eq_iff (hP cs h)).2 hcore]

end Reckon.Text

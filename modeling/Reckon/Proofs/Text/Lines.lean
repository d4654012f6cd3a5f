import Reckon.Text.Lines

/-!
# Proofs/Text/Lines — a stream of bytes falls into its lines

No line holds a newline, and the lines of a stream that ends at one, each with a newline after it, are
that stream (`Text.flatMap_lines`).  **Behind whole lines, the lines of what follows are those that it
has alone** (`Text.lines_append`).
-/

namespace Reckon.Text

/-- The stream is made of whole lines: it is empty, or it ends at a newline. -/
def EndsLine (bs : List UInt8) : Prop := bs = [] ∨ bs.getLast? = some newline

variable {a b : List UInt8}

/-- The bytes that encode a text in UTF-8. -/
def encode (text : String) : List UInt8 := text.toUTF8.data.toList

theorem decodeLine?_encode (text : String) : decodeLine? (encode text) = some text :=
  dif_pos text.isValidUTF8

theorem EndsLine.of_cons {c : UInt8} (h : EndsLine (c :: a)) : EndsLine a := by
  rcases a with _ | ⟨d, ds⟩
  · exact .inl rfl
  · refine .inr ?_
    rw [← List.getLast?_cons_cons]
    exact h.resolve_left nofun

/-- Behind a byte that is no newline, the line goes on. -/
theorem EndsLine.ne_nil {c : UInt8} (h : EndsLine (c :: a)) (hc : c ≠ newline) : a ≠ [] := by
  rintro rfl
  exact hc (Option.some.inj (h.resolve_left nofun))

theorem lines_ne_nil (h : a ≠ []) : lines a ≠ [] := by
  rcases a with _ | ⟨c, cs⟩
  · exact absurd rfl h
  · rw [lines]
    split
    · nofun
    · split <;> nofun

/-- **Behind whole lines, the lines of what follows are those that it has alone.** -/
theorem lines_append (h : EndsLine a) : lines (a ++ b) = lines a ++ lines b := by
  induction a with
  | nil => rfl
  | cons c cs ih =>
    have ih := ih h.of_cons
    rw [List.cons_append, lines, lines]
    split
    · rw [ih, List.cons_append]
    · next hc =>
      obtain ⟨line, rest, hlines⟩ := List.exists_cons_of_ne_nil (lines_ne_nil (h.ne_nil hc))
      rw [ih, hlines]
      rfl

/-- **A last line needs no newline.** -/
theorem lines_concat (h : ¬ EndsLine a) : lines (a ++ [newline]) = lines a := by
  induction a with
  | nil => exact absurd (.inl rfl) h
  | cons c cs ih =>
    rw [List.cons_append, lines, lines]
    rcases cs with _ | ⟨d, ds⟩
    · have hc : c ≠ newline := by
        rintro rfl
        exact h (.inr rfl)
      rw [if_neg hc, if_neg hc]
      rfl
    · have hends : ¬ EndsLine (d :: ds) := fun hends => h (.inr (hends.resolve_left nofun))
      rw [ih hends]

/-- The lines of whole lines, each with a newline after it, are the stream. -/
theorem flatMap_lines (h : EndsLine a) : (lines a).flatMap (· ++ [newline]) = a := by
  induction a with
  | nil => rfl
  | cons c cs ih =>
    have ih := ih h.of_cons
    rw [lines]
    split
    · next hc => rw [List.flatMap_cons, ih, hc, List.nil_append, List.singleton_append]
    · next hc =>
      obtain ⟨line, rest, hlines⟩ := List.exists_cons_of_ne_nil (lines_ne_nil (h.ne_nil hc))
      rw [hlines, List.flatMap_cons] at ih
      rw [hlines, List.flatMap_cons, List.cons_append, List.cons_append, ih]

/-- No line holds a newline. -/
theorem newline_not_mem_of_mem_lines {line : List UInt8} (h : line ∈ lines a) : newline ∉ line := by
  induction a generalizing line with
  | nil => nomatch h
  | cons c cs ih =>
    rw [lines] at h
    split at h
    · rcases List.mem_cons.1 h with rfl | h
      · exact List.not_mem_nil
      · exact ih h
    · next hc =>
      have hcons (rest : List UInt8) (hrest : newline ∉ rest) : newline ∉ c :: rest :=
        List.not_mem_cons_of_ne_of_not_mem (Ne.symm hc) hrest
      split at h
      · rw [List.mem_singleton.1 h]
        exact hcons [] List.not_mem_nil
      · next first rest heq =>
        rw [heq] at ih
        rcases List.mem_cons.1 h with rfl | h
        · exact hcons first (ih List.mem_cons_self)
        · exact ih (List.mem_cons_of_mem first h)

end Reckon.Text

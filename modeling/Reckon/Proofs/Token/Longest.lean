import Reckon.Proofs.Grammar.Marks

/-!
# Proofs/Token/Longest — the longest lexeme a text begins with

A lexeme taken greedily, its first character and then all that go on with it, is **the longest of its
kind that the text begins with** (`Token.isLongest_takeWhile`).
-/

namespace Reckon.Token

/-- Of the texts of a kind that `cs` begins with, `lexeme` is the longest. -/
structure IsLongest (P : String → Prop) (lexeme : String) (cs : List Char) : Prop where
  kind : P lexeme
  begins : lexeme.toList <+: cs
  longest : ∀ other, P other → other.toList <+: cs → other.length ≤ lexeme.length

variable {start part : Char → Bool} {c : Char} {cs : List Char}

/-- **The longest lexeme is the first character and all characters that go on with it.** -/
theorem isLongest_takeWhile (hc : start c = true) :
    IsLongest (fun s => ∃ c cs, s.toList = c :: cs ∧ start c = true ∧ ∀ d ∈ cs, part d = true)
      (String.ofList (c :: cs.takeWhile part)) (c :: cs) where
  kind := ⟨c, cs.takeWhile part, by simp, hc, List.all_eq_true.1 List.all_takeWhile⟩
  begins := by
    rw [String.toList_ofList, List.cons_prefix_cons]
    exact ⟨rfl, List.takeWhile_prefix part⟩
  longest := by
    rintro other ⟨d, ds, hother, -, hds⟩ hbegins
    rw [hother, List.cons_prefix_cons] at hbegins
    obtain ⟨rest, rfl⟩ := hbegins.2
    rw [← String.length_toList, ← String.length_toList, hother, String.toList_ofList,
      List.takeWhile_append_of_pos hds]
    simp

theorem isLongest_name (hc : isNameStart c = true) :
    IsLongest IsName (String.ofList (c :: cs.takeWhile isNamePart)) (c :: cs) :=
  isLongest_takeWhile hc

theorem isLongest_numeral (hc : isNumeralStart c = true) :
    IsLongest IsNumeral (String.ofList (c :: cs.takeWhile isNumeralPart)) (c :: cs) :=
  isLongest_takeWhile hc

/-- A text that begins with a lexeme is not empty. -/
theorem IsLongest.ne_nil {P : String → Prop} {lexeme : String} (h : IsLongest P lexeme cs)
    (hne : lexeme.toList ≠ []) : cs ≠ [] := by
  rintro rfl
  exact hne (List.prefix_nil.1 h.begins)

end Reckon.Token

/-!
# Text/Ranges — a property of characters as ranges of code points

A property is a list of closed ranges, **ascending and apart** (`Ranges.AscendsFrom`), so the first
range that ends at or after a code point decides whether it has the property
(`Ranges.covers_iff`).
-/

namespace Reckon.Text

/-- Closed ranges of code points, each a pair of its ends. -/
abbrev Ranges := List (Nat × Nat)

namespace Ranges

/-- No range is reversed, the first begins at `bound` or later, and each further one after the end
of the one before it. -/
def AscendsFrom : Nat → Ranges → Prop
  | _, [] => True
  | bound, (lo, hi) :: rest => bound ≤ lo ∧ lo ≤ hi ∧ AscendsFrom (hi + 1) rest

instance decidableAscendsFrom : (bound : Nat) → (rs : Ranges) → Decidable (AscendsFrom bound rs)
  | _, [] => isTrue trivial
  | bound, (lo, hi) :: rest =>
    have : Decidable (AscendsFrom (hi + 1) rest) := decidableAscendsFrom (hi + 1) rest
    inferInstanceAs (Decidable (bound ≤ lo ∧ lo ≤ hi ∧ AscendsFrom (hi + 1) rest))

/-- Whether the first range that ends at or after `n` begins at or before it. -/
def covers : Ranges → Nat → Bool
  | [], _ => false
  | (lo, hi) :: rest, n => if n ≤ hi then lo ≤ n else covers rest n

/-- A code point below the bound lies in no range. -/
theorem AscendsFrom.le_fst {rs : Ranges} {bound : Nat} (h : AscendsFrom bound rs) :
    ∀ r ∈ rs, bound ≤ r.1 := by
  induction rs generalizing bound with
  | nil => simp
  | cons r rest ih =>
    obtain ⟨hb, hr, hrest⟩ := h
    intro s hs
    rcases List.mem_cons.1 hs with rfl | hs
    · exact hb
    · have := ih hrest s hs
      omega

/-- **The search is membership**: a code point is covered iff some range holds it. -/
theorem covers_iff {rs : Ranges} {bound n : Nat} (h : AscendsFrom bound rs) :
    rs.covers n = true ↔ ∃ r ∈ rs, r.1 ≤ n ∧ n ≤ r.2 := by
  induction rs generalizing bound with
  | nil => simp [covers]
  | cons r rest ih =>
    obtain ⟨lo, hi⟩ := r
    obtain ⟨-, -, hrest⟩ := h
    by_cases hn : n ≤ hi
    · have hout : ∀ s ∈ rest, ¬ s.1 ≤ n := fun s hs => by
        have := hrest.le_fst s hs
        omega
      constructor
      · intro hlo
        exact ⟨(lo, hi), by simp, by simpa [covers, hn] using hlo, hn⟩
      · rintro ⟨s, hs, hlo, -⟩
        rcases List.mem_cons.1 hs with rfl | hs
        · simpa [covers, hn] using hlo
        · exact absurd hlo (hout s hs)
    · simp [covers, hn, ih hrest]

end Ranges

end Reckon.Text

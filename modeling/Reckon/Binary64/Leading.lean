import Reckon.Binary64.Basic

/-!
# Binary64/Leading — integers rounded from their leading bits

An integer is a sequence of words of sixty-four bits, the leading one perhaps shorter.  **Its sixty-four
leading bits are rounded to the nearest double, ties to even**, and what lies below them only tells
whether they are a tie.  Of each word below the leading one, just as many low bits are looked at as
the leading word has (`looksInexact`): all that lies below, in an integer of at most two words.  So a
longer integer close above a tie may be taken for one.
-/

namespace Reckon.Binary64

/-- The number of bits in a word. -/
def wordSize : Nat := 64

/-- The number of bits in the leading word. -/
def leadingWidth (n : Nat) : Nat := n.log2 % wordSize + 1

/-- Whether a bit is set below the leading ones: some word below the leading word is not zero in its
`leadingWidth n` lowest bits. -/
def looksInexact (n : Nat) : Bool :=
  (List.range (n.log2 / wordSize)).any fun j =>
    n / 2 ^ (wordSize * j) % 2 ^ leadingWidth n != 0

/-- The number that is rounded in the place of `n`: the leading bits, the last of which is set for
what is set below, and zeros. -/
def leading (n : Nat) : Nat :=
  let below := n.log2 + 1 - wordSize
  let top := n / 2 ^ below
  (if looksInexact n && top % 2 == 0 then top + 1 else top) * 2 ^ below

/-- The double that an integer becomes; infinite from `2 ^ 1024` on. -/
def ofInt (n : Int) : Float :=
  nearest (decide (n < 0)) (if n.natAbs.log2 < 1024 then leading n.natAbs else n.natAbs) 1

/-- A number of one word is rounded as it is. -/
theorem leading_of_lt {n : Nat} (h : n < 2 ^ wordSize) : leading n = n := by
  have hlog : n.log2 < 64 := by
    rcases Nat.eq_zero_or_pos n with rfl | hn
    · decide
    · exact (Nat.log2_lt (Nat.ne_of_gt hn)).2 h
  have hwords : n.log2 / 64 = 0 := Nat.div_eq_of_lt hlog
  have hbelow : n.log2 + 1 - 64 = 0 := by omega
  simp [leading, looksInexact, wordSize, hwords, hbelow]

end Reckon.Binary64

/-!
# Token/Span — a stretch of a text

A span is half open: it holds the place it starts at and not the one it stops at.  Places count
characters, not bytes.
-/

namespace Reckon

/-- The stretch from `start` up to `stop`. -/
structure Span where
  start : Nat
  stop : Nat
deriving DecidableEq, Repr

namespace Span

/-- The span of one character. -/
def single (start : Nat) : Span := ⟨start, start + 1⟩

variable (s : Span)

/-- The number of characters within; none if the span stops before it starts. -/
def length : Nat := s.stop - s.start

/-- Whether no character is within. -/
def isEmpty : Bool := s.length == 0

/-- The span as a text. -/
def text : String := s!"{s.start}-{s.stop}"

/-- One character is within the span of one character. -/
@[simp] theorem length_single (start : Nat) : (single start).length = 1 := by simp [single, length]

end Span

end Reckon

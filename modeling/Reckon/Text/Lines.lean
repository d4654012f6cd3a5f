/-!
# Text/Lines — a stream of bytes as lines

A line ends at a newline, which belongs to no line; **a last line needs none, and an empty stream
has no line**.
-/

namespace Reckon.Text

/-- The byte that ends a line. -/
def newline : UInt8 := 10

/-- The lines of a stream of bytes, without the newlines that end them. -/
def lines : List UInt8 → List (List UInt8)
  | [] => []
  | b :: bs =>
    if b = newline then [] :: lines bs
    else
      match lines bs with
      | [] => [[b]]
      | line :: rest => (b :: line) :: rest

/-- The text that the bytes encode in UTF-8, if they do. -/
def decodeLine? (bytes : List UInt8) : Option String :=
  String.fromUTF8? ⟨bytes.toArray⟩

end Reckon.Text

/-!
# Blank characters

Unicode `White_Space` and what is built on it: blank texts and texts without blank ends.
-/

namespace DocStore.Text

/-- The `White_Space` characters, as inclusive ranges of code points. -/
def blankRanges : List (Nat × Nat) := [
  (0x09, 0x0d), (0x20, 0x20), (0x85, 0x85), (0xa0, 0xa0), (0x1680, 0x1680), (0x2000, 0x200a),
  (0x2028, 0x2029), (0x202f, 0x202f), (0x205f, 0x205f), (0x3000, 0x3000)]

/-- Whether a code point lies in one of the inclusive ranges. -/
def inRanges (ranges : List (Nat × Nat)) (n : Nat) : Bool :=
  ranges.any fun r => r.1 ≤ n && n ≤ r.2

/-- Whether a character is `White_Space`. -/
def isBlank (c : Char) : Bool := inRanges blankRanges c.toNat

/-- Whether a text holds nothing but blank characters; the empty text does. -/
def allBlank (s : String) : Bool := s.toList.all isBlank

/-- A text without its leading and trailing blank characters, as characters. -/
def trimmed (s : String) : List Char :=
  ((s.toList.dropWhile isBlank).reverse.dropWhile isBlank).reverse

/-- The blank characters that may stand between tokens: space, tab, line feed, form feed and
carriage return. -/
def isSpacing (c : Char) : Bool :=
  c = ' ' || c = '\t' || c = '\n' || c = '\x0c' || c = '\r'

end DocStore.Text

import Splice.Text.Basic

/-!
# White space

A trigger holds no white space. White space is wider than the blanks of a directive line: it takes
in line ends, the separators of Unicode and the four information separators U+001C to U+001F.
-/

namespace Splice.Text

/-- White space, as ranges of code points with both ends included, in increasing order. -/
def spaceRanges : List (Nat × Nat) :=
  [(0x9, 0xD), (0x1C, 0x20), (0x85, 0x85), (0xA0, 0xA0), (0x1680, 0x1680), (0x2000, 0x200A),
   (0x2028, 0x2029), (0x202F, 0x202F), (0x205F, 0x205F), (0x3000, 0x3000)]

/-- A white-space character. -/
def isSpace (c : Char) : Bool :=
  spaceRanges.any fun range => range.1 ≤ c.toNat && c.toNat ≤ range.2

end Splice.Text

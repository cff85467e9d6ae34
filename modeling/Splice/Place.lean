import Splice.Position

/-!
# Places

A place is where a scan of one source has come to: the number of characters before it, and the line
and column it stands on. `Place.next` goes over one character and `Place.skip` over a whole text at
once.
-/

namespace Splice

/-- A point of the source being scanned. The offset is counted from zero, line and column are
counted from one. -/
structure Place where
  offset : Nat
  line : Int
  column : Int
deriving DecidableEq

namespace Place

/-- The place before the first character. -/
def start : Place :=
  ⟨0, 1, 1⟩

/-- A place is the start of a line when it stands on the first column. -/
def isLineStart (p : Place) : Bool :=
  p.column == 1

/-- The place after one character. -/
def next (p : Place) (c : Char) : Place :=
  if c = '\n' then ⟨p.offset + 1, p.line + 1, 1⟩ else ⟨p.offset + 1, p.line, p.column + 1⟩

/-- The place after a text: the lines go up by its line ends, and the column is counted from the
last of them. -/
def skip (p : Place) (passed : Text) : Place where
  offset := p.offset + passed.length
  line := p.line + passed.newlines
  column := if passed.newlines = 0 then p.column + passed.length else passed.lastLine.length + 1

/-- The position that a place of a named source stands for. -/
def position (p : Place) (source : String) : Position :=
  ⟨source, p.line, p.column⟩

end Place

end Splice

import Splice.Text.Decimal

/-!
# Positions

A position names a point of a source by the source's name, a line and a column, both
counted from one. Leaves of the output tree carry the position where they start, and the position
of any of their characters follows from it: `Position.within?`.
-/

namespace Splice

/-- A point of a named source. Lines and columns are counted from one. -/
structure Position where
  source : String
  line : Int
  column : Int
deriving DecidableEq

namespace Position

/-- The first position of a source. -/
def start (source : String) : Position :=
  ⟨source, 1, 1⟩

/-- A position as messages show it: name, line and column with colons between them. -/
def describe (p : Position) : String :=
  p.source ++ ":" ++ Text.showInt p.line ++ ":" ++ Text.showInt p.column

/-- The position reached from `p` by going over a text that starts there. -/
def after (p : Position) (passed : Text) : Position :=
  if passed.newlines = 0 then ⟨p.source, p.line, p.column + passed.length⟩
  else ⟨p.source, p.line + passed.newlines, passed.lastLine.length + 1⟩

/-- The position of the character at `offset` in a span that starts at `p`; there is none outside
the span. -/
def within? (p : Position) (span : Text) (offset : Int) : Option Position :=
  if offset < 0 ∨ (span.length : Int) ≤ offset then none
  else some (p.after (span.take offset.toNat))

/-- The position of the character at a line and column of a span that starts at `p`, where line and
column are counted from the start of the span. -/
def withinLines? (p : Position) (span : Text) (line column : Int) : Option Position :=
  (span.offsetAt? line column).bind fun offset => p.within? span offset

end Position

end Splice

import Splice.Text.Decimal
import Splice.Text.Printable

/-!
# Quoted text

Messages show a piece of text between quotes, with everything that could be misread escaped. The
quote is the single one, unless the text holds a single quote and no double quote.
-/

namespace Splice.Text

/-- The quote that a text is shown between. -/
def quoteMark (s : Text) : Char :=
  if s.contains '\'' && !s.contains '"' then '"' else '\''

/-- A character inside a text shown between `mark`s: the backslash and the mark itself are escaped,
line ends and tabs have short escapes, and other characters that are not printable are given by
their code point in two, four or eight hexadecimal digits. -/
def quoteChar (mark c : Char) : Text :=
  if c == mark || c == '\\' then ['\\', c]
  else if c == '\n' then ['\\', 'n']
  else if c == '\r' then ['\\', 'r']
  else if c == '\t' then ['\\', 't']
  else if isPrintable c then [c]
  else if c.toNat < 0x100 then '\\' :: 'x' :: hex 2 c.toNat
  else if c.toNat < 0x10000 then '\\' :: 'u' :: hex 4 c.toNat
  else '\\' :: 'U' :: hex 8 c.toNat

/-- A text between quotes. -/
def quoted (s : Text) : Text :=
  quoteMark s :: (s.flatMap (quoteChar (quoteMark s)) ++ [quoteMark s])

/-- A text between quotes, as a string. -/
def showQuoted (s : Text) : String :=
  String.ofList (quoted s)

end Splice.Text

/-!
# Text

Sources, rendered output and delimiters are lists of characters, so that every offset, column and
length in the library counts characters. This module has the few operations on text that the rest
of the library is built from: blanks, lines, and the search for a delimiter.
-/

namespace Splice

/-- Text is a list of characters; an offset into it counts characters. -/
abbrev Text := List Char

namespace Text

/-- A blank is a space or a tab: it may stand before a trigger and between the words of a
directive line. -/
def isBlank (c : Char) : Bool :=
  c == ' ' || c == '\t'

/-- The run of blanks that a text starts with. -/
def indent (s : Text) : Text :=
  s.takeWhile isBlank

/-- What is left of a text after the run of blanks that it starts with. -/
def unindent (s : Text) : Text :=
  s.dropWhile isBlank

/-- The number of line ends in a text. -/
def newlines (s : Text) : Nat :=
  s.count '\n'

/-- The part of a text after its last line end: all of it when it has none. -/
def lastLine (s : Text) : Text :=
  (s.reverse.takeWhile (· != '\n')).reverse

/-- The part of a text before its first line end: all of it when it has none. -/
def firstLine (s : Text) : Text :=
  s.takeWhile (· != '\n')

/-- The part of a text through the first occurrence of `mark`, and all of it when `mark` does not
occur. -/
def through : Text → Text → Text
  | [], _ => []
  | c :: s, mark => if mark.isPrefixOf (c :: s) then mark else c :: through s mark

/-- The blanks at the start of a text and what follows them make up the text. -/
theorem indent_append_unindent (s : Text) : s.indent ++ s.unindent = s :=
  List.takeWhile_append_dropWhile

theorem firstLine_isPrefix (s : Text) : s.firstLine <+: s :=
  List.takeWhile_prefix _

theorem through_isPrefix (s mark : Text) : s.through mark <+: s := by
  fun_induction through s mark with
  | case1 => exact List.nil_prefix
  | case2 c s h => exact List.isPrefixOf_iff_prefix.1 ‹_›
  | case3 c s _ ih => exact List.cons_prefix_cons.2 ⟨rfl, ‹_›⟩

/-- Some text is passed on the way through a mark, unless there is neither text nor mark. -/
theorem through_ne_nil {mark s : Text} (hm : mark ≠ []) (hs : s ≠ []) : s.through mark ≠ [] := by
  cases s with
  | nil => exact absurd rfl hs
  | cons c s => unfold through; split <;> simp [hm]

/-- What is left of a text from an index on. A negative index counts from the end, and one before
the start stands for the start. -/
def fromIndex (s : Text) (index : Int) : Text :=
  if index < 0 then s.drop (s.length + index).toNat else s.drop index.toNat

/-- The offset of a line and column, both counted from zero. The column may be that of the line
end or of the end of the text, but no further. -/
def locate : Text → Nat → Nat → Option Nat
  | _, 0, 0 => some 0
  | [], _, _ => none
  | c :: s, 0, column + 1 =>
    if c = '\n' then none else (locate s 0 column).map (· + 1)
  | c :: s, line + 1, column =>
    (if c = '\n' then locate s line column else locate s (line + 1) column).map (· + 1)

/-- The offset of a line and column as people count them, from one. -/
def offsetAt? (s : Text) (line column : Int) : Option Nat :=
  if line < 1 ∨ column < 1 then none
  else locate s (line - 1).toNat (column - 1).toNat

end Text

end Splice

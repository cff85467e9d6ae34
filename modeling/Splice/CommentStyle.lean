import Splice.Text.Quoted

/-!
# Comment styles

A comment style says how a comment opens and how it closes: with a closing delimiter, or, when that
is empty, before the end of the line. Styles are kept in order and the first one that opens at a
point wins, so a delimiter goes before those that it extends.
-/

namespace Splice

/-- A way to write comments. -/
structure CommentStyle where
  /-- The delimiter that opens a comment. -/
  opener : Text
  /-- The delimiter that closes it; when empty, the comment runs to the end of the line, and the
  line end is not part of it. -/
  closer : Text
  /-- Whether comments of this style are dropped from the output. -/
  strip : Bool
  /-- Every style opens with at least one character, so a comment is never empty. -/
  opener_ne_nil : opener ≠ []
deriving DecidableEq

namespace CommentStyle

/-- The style with the given delimiters, if the opening one is not empty. -/
def make? (opener closer : Text) (strip : Bool) : Option CommentStyle :=
  if h : opener = [] then none else some ⟨opener, closer, strip, h⟩

/-- Comments from a slash and a star to a star and a slash. -/
def block : CommentStyle :=
  ⟨['/', '*'], ['*', '/'], false, by simp⟩

/-- Comments from two slashes to the end of the line. -/
def doubleSlash : CommentStyle :=
  ⟨['/', '/'], [], false, by simp⟩

/-- Comments from a semicolon to the end of the line. -/
def semicolon : CommentStyle :=
  ⟨[';'], [], false, by simp⟩

/-- Comments from a number sign to the end of the line. -/
def numberSign : CommentStyle :=
  ⟨['#'], [], false, by simp⟩

/-- Whether a comment of this style opens at the start of a text. -/
def opens (style : CommentStyle) (source : Text) : Bool :=
  style.opener.isPrefixOf source

/-- The style with another choice of whether its comments are dropped. -/
def stripped (style : CommentStyle) (strip : Bool) : CommentStyle :=
  ⟨style.opener, style.closer, strip, style.opener_ne_nil⟩

/-- The part of a comment after its opening delimiter. A comment that is not closed runs to the end
of the source. -/
def body (style : CommentStyle) (source : Text) : Text :=
  if style.closer = [] then source.firstLine else source.through style.closer

/-- The whole comment that opens at the start of a text. -/
def extent (style : CommentStyle) (source : Text) : Text :=
  style.opener ++ style.body (source.drop style.opener.length)

theorem body_isPrefix (style : CommentStyle) (source : Text) : style.body source <+: source := by
  unfold body
  split
  · exact Text.firstLine_isPrefix source
  · exact Text.through_isPrefix source _

/-- A comment is a piece of the source that it opens. -/
theorem extent_isPrefix {style : CommentStyle} {source : Text} (h : style.opens source) :
    style.extent source <+: source := by
  obtain ⟨s, rfl⟩ := List.isPrefixOf_iff_prefix.1 h
  simpa [extent] using style.body_isPrefix s

theorem extent_ne_nil (style : CommentStyle) (source : Text) : style.extent source ≠ [] := by
  simp [extent, style.opener_ne_nil]

/-- A style as listings show it. -/
def describe (style : CommentStyle) : String :=
  "Commenter(begin=" ++ Text.showQuoted style.opener ++ ", end=" ++ Text.showQuoted style.closer ++
    ", strip=" ++ (if style.strip then "True" else "False") ++ ")"

end CommentStyle

/-- The comment styles in use, in the order in which they are tried. -/
abbrev Styles := List CommentStyle

namespace Styles

/-- The first style of which a comment opens at the start of a text. -/
def first? (styles : Styles) (source : Text) : Option CommentStyle :=
  styles.find? (·.opens source)

theorem opens_of_first? {styles : Styles} {source : Text} {style : CommentStyle}
    (h : styles.first? source = some style) : style.opens source := by
  unfold first? at h
  simpa using List.find?_some h

/-- Whether a comment opens at the start of a text. -/
def opens (styles : Styles) (source : Text) : Bool :=
  (styles.first? source).isSome

/-- The styles with one more, tried after all others. -/
def add (styles : Styles) (style : CommentStyle) : Styles :=
  styles ++ [style]

/-- The styles as listings show them. -/
def describe (styles : Styles) : String :=
  "CommenterRegistry([" ++ ", ".intercalate (styles.map CommentStyle.describe) ++ "])"

end Styles

end Splice

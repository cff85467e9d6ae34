import Splice.CommentStyle
import Splice.Token.Line

/-!
# Segments

A source is cut into consecutive segments: plain text, comments, directive lines and a shebang line.
A dialect says what opens a directive line and what opens a comment; at each place the dialect finds
an event there or none, and plain text runs up to the next event. `Dialect.scan` cuts a whole
source; the tokens of a source are those of its segments and of the point where the scan ended.

Each segment covers at least one character and leaves the rest of the source as it is
(`Dialect.step_eq_segment`), which is why a scan comes to an end.
-/

namespace Splice

/-- How directive lines and comments are recognized. -/
structure Dialect where
  /-- The text that begins a directive line, after any blanks. -/
  trigger : Text
  /-- The comment styles, in the order in which they are tried. -/
  styles : Styles

/-- What ends a run of plain text, other than the end of the source. -/
inductive Event where
  /-- A line whose first text after its blanks is the trigger. -/
  | directive
  /-- A comment opens. -/
  | comment (style : CommentStyle)
deriving DecidableEq

/-- A piece of a source, with the place where it starts. -/
inductive Segment where
  /-- Plain text up to the next event. -/
  | text (start : Place) (content : Text)
  /-- A comment of the given style. -/
  | comment (start : Place) (style : CommentStyle) (content : Text)
  /-- A directive line, from the blanks before its trigger through its line end. -/
  | directive (start : Place) (content : Text) (tokens : List Token)
  /-- A shebang line, from the blanks before its trigger through its line end. -/
  | shebang (start : Place) (content : Text)

namespace Segment

/-- The piece of the source that a segment covers. -/
def content : Segment → Text
  | text _ s | comment _ _ s | directive _ s _ | shebang _ s => s

/-- The place where a segment starts. -/
def start : Segment → Place
  | text p _ | comment p _ _ | directive p _ _ | shebang p _ => p

/-- The tokens that a segment stands for. A comment whose style is stripped has none, and neither
has a shebang line. -/
def tokens : Segment → List Token
  | text p s => [⟨.text s, p⟩]
  | comment p style s => if style.strip then [] else [⟨.comment s, p⟩]
  | directive _ _ ts => ts
  | shebang _ _ => []

end Segment

/-- How a scan ends. -/
inductive Ending where
  /-- The whole source was scanned. -/
  | complete (place : Place)
  /-- A directive line cannot be read on at `place`; `tokens` are those of it that come before. -/
  | broken (tokens : List Token) (fault : LexicalFault) (place : Place)

/-- The tokens of a scan's end. -/
def Ending.tokens : Ending → List Token
  | complete place => [⟨.endOfInput, place⟩]
  | broken ts fault place => ts ++ [⟨.invalid fault, place⟩]

/-- A source cut into segments. -/
structure Scan where
  segments : List Segment
  ending : Ending

/-- The tokens of a scanned source. -/
def Scan.tokens (scan : Scan) : List Token :=
  scan.segments.flatMap Segment.tokens ++ scan.ending.tokens

/-- The scan with one more segment in front. -/
def Scan.cons (segment : Segment) (scan : Scan) : Scan :=
  ⟨segment :: scan.segments, scan.ending⟩

namespace Dialect

/-- The event at the start of a text, if there is one. A directive line is one only at the start of
a line, and goes before a comment; a comment does not open at a blank. -/
def event? (dialect : Dialect) (lineStart : Bool) : Text → Option Event
  | [] => none
  | c :: s =>
    if lineStart && dialect.trigger.isPrefixOf (Text.unindent (c :: s)) then some .directive
    else if Text.isBlank c then none
    else (dialect.styles.first? (c :: s)).map .comment

/-- The run of characters at the start of a text before its first event. -/
def plain (dialect : Dialect) : Bool → Text → Text
  | _, [] => []
  | lineStart, c :: s =>
    if (dialect.event? lineStart (c :: s)).isNone then c :: dialect.plain (c == '\n') s else []

/-- One step of a scan: a segment and what is left, or the end. -/
inductive Step where
  | segment (segment : Segment) (rest : Text)
  | ending (ending : Ending)

/-- The segment of a source that starts with a directive line. A trigger that is followed by an
exclamation mark begins a shebang, which is allowed on the first line only. -/
def directive (dialect : Dialect) (place : Place) (source : Text) : Step :=
  let blanks := source.indent
  let marked := source.unindent
  let here := place.skip blanks
  let rest := marked.drop dialect.trigger.length
  if ['!'].isPrefixOf rest then
    if here.line ≠ 1 then .ending (.broken [] .misplacedShebang here)
    else
      let line := marked.through ['\n']
      .segment (.shebang place (blanks ++ line)) (marked.drop line.length)
  else
    let mark : Token := ⟨.trigger dialect.trigger, here⟩
    match Line.read (here.skip dialect.trigger) rest with
    | .complete tokens content rest =>
      .segment (.directive place (blanks ++ dialect.trigger ++ content) (mark :: tokens)) rest
    | .broken tokens fault there => .ending (.broken (mark :: tokens) fault there)

/-- The first segment of a source that is scanned from a place. -/
def step (dialect : Dialect) (place : Place) (source : Text) : Step :=
  match dialect.event? place.isLineStart source with
  | some .directive => dialect.directive place source
  | some (.comment style) =>
    let content := style.extent source
    .segment (.comment place style content) (source.drop content.length)
  | none =>
    match source with
    | [] => .ending (.complete place)
    | _ :: _ =>
      let content := dialect.plain place.isLineStart source
      .segment (.text place content) (source.drop content.length)

/-- At a directive event the trigger follows the blanks. -/
theorem event?_eq_directive {dialect : Dialect} {lineStart : Bool} {source : Text}
    (h : dialect.event? lineStart source = some .directive) :
    lineStart = true ∧ dialect.trigger <+: source.unindent := by
  cases source with
  | nil => simp [event?] at h
  | cons c s =>
    simp only [event?] at h
    split at h
    · rename_i hc
      simpa using hc
    · split at h <;> simp at h

/-- At a comment event the style is the first that opens a comment there. -/
theorem event?_eq_comment {dialect : Dialect} {lineStart : Bool} {source : Text}
    {style : CommentStyle} (h : dialect.event? lineStart source = some (.comment style)) :
    dialect.styles.first? source = some style := by
  cases source with
  | nil => simp [event?] at h
  | cons c s =>
    simp only [event?] at h
    split at h
    · simp at h
    · split at h
      · simp at h
      · simpa using h

theorem plain_isPrefix (dialect : Dialect) (lineStart : Bool) (source : Text) :
    dialect.plain lineStart source <+: source := by
  fun_induction plain dialect lineStart source with
  | case1 => exact List.nil_prefix
  | case2 _ c s _ ih => exact List.cons_prefix_cons.2 ⟨rfl, ih⟩
  | case3 => exact List.nil_prefix

/-- A directive line or shebang covers at least one character, and its text and the rest make up the
source. -/
theorem directive_eq_segment {dialect : Dialect} {place : Place} {source rest : Text}
    {segment : Segment} (ht : dialect.trigger <+: source.unindent)
    (h : dialect.directive place source = .segment segment rest) :
    segment.content ++ rest = source ∧ segment.content ≠ [] := by
  have hs := Text.indent_append_unindent source
  obtain ⟨after, hafter⟩ := ht
  simp only [directive, ← hafter, List.drop_left] at h
  split at h
  · rename_i hbang
    split at h
    · simp at h
    · cases h
      have hne : dialect.trigger ++ after ≠ [] := by
        intro hnil
        simp_all
      have hpre := List.prefix_iff_eq_append.1
        (Text.through_isPrefix (dialect.trigger ++ after) ['\n'])
      refine ⟨?_, ?_⟩
      · rw [Segment.content, List.append_assoc, hpre, hafter, hs]
      · simp [Segment.content, Text.through_ne_nil _ hne]
  · split at h
    · rename_i hread
      cases h
      obtain ⟨hcontent, hne⟩ := Line.read_eq_complete hread
      refine ⟨?_, ?_⟩
      · rw [Segment.content, List.append_assoc, List.append_assoc, hcontent, hafter, hs]
      · simp [Segment.content, hne]
    · simp at h

/-- A segment covers at least one character, and its text and the rest make up the source. -/
theorem step_eq_segment {dialect : Dialect} {place : Place} {source rest : Text}
    {segment : Segment} (h : dialect.step place source = .segment segment rest) :
    segment.content ++ rest = source ∧ segment.content ≠ [] := by
  unfold step at h
  split at h
  · rename_i hevent
    exact directive_eq_segment (event?_eq_directive hevent).2 h
  · rename_i style hevent
    cases h
    have hopens := Styles.opens_of_first? (event?_eq_comment hevent)
    exact ⟨List.prefix_iff_eq_append.1 (CommentStyle.extent_isPrefix hopens),
      style.extent_ne_nil source⟩
  · rename_i hevent
    split at h
    · simp at h
    · cases h
      refine ⟨List.prefix_iff_eq_append.1 (dialect.plain_isPrefix _ _), ?_⟩
      simp [Segment.content, plain, hevent]

/-- Cuts a source into segments, from a place on. -/
def scanFrom (dialect : Dialect) (place : Place) (source : Text) : Scan :=
  match _h : dialect.step place source with
  | .segment segment rest => (dialect.scanFrom (place.skip segment.content) rest).cons segment
  | .ending ending => ⟨[], ending⟩
termination_by source.length
decreasing_by
  obtain ⟨rfl, hne⟩ := step_eq_segment _h
  simpa [List.length_pos_iff] using hne

/-- Cuts a whole source into segments. -/
def scan (dialect : Dialect) (source : Text) : Scan :=
  dialect.scanFrom .start source

/-- The tokens of a source. -/
def tokens (dialect : Dialect) (source : Text) : List Token :=
  (dialect.scan source).tokens

end Dialect

end Splice

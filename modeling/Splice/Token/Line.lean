import Splice.Token
import Splice.Text.Alphanumeric

/-!
# Directive lines

After its trigger, a directive line is a sequence of words and quoted strings with blanks between
them, up to a line feed or a carriage return and a line feed. `Line.read` reads it to the end, or to
the first character that cannot stand there.
-/

namespace Splice

/-- A quoted string, read from the text after its opening quote. -/
structure QuotedString where
  /-- The string without its closing quote and its escapes. -/
  value : Text
  /-- The text that it covers, closing quote included. -/
  content : Text
  /-- The text after it. -/
  rest : Text

namespace QuotedString

/-- The string that has one more character in front, covered by `cover`. -/
def cons (cover : Text) (c : Char) (q : QuotedString) : QuotedString :=
  ⟨c :: q.value, cover ++ q.content, q.rest⟩

/-- Reads a quoted string after its opening quote. A backslash stands for the character that follows
it, whatever it is but a line end; a string that does not close on its line is none. -/
def read? : Text → Option QuotedString
  | [] => none
  | '"' :: s => some ⟨[], ['"'], s⟩
  | '\\' :: c :: s => if c = '\n' then none else (read? s).map (cons ['\\', c] c)
  | c :: s => if c = '\n' ∨ c = '\\' then none else (read? s).map (cons [c] c)

/-- A quoted string that can be read and the text after it make up the source. -/
theorem content_append_rest {s : Text} {q : QuotedString} (h : read? s = some q) :
    q.content ++ q.rest = s := by
  fun_induction read? s generalizing q with
  | case1 => simp at h
  | case2 s => cases h; rfl
  | case3 => simp at h
  | case4 c s _ ih =>
    obtain ⟨r, hr, rfl⟩ := Option.map_eq_some_iff.1 h
    simp [cons, ih hr]
  | case5 => simp at h
  | case6 c s _ _ _ ih =>
    obtain ⟨r, hr, rfl⟩ := Option.map_eq_some_iff.1 h
    simp [cons, ih hr]

end QuotedString

namespace Line

/-- One step of reading a directive line. -/
inductive Step where
  /-- A word or string; `content` is the text it covers with the blanks before it. -/
  | token (token : Token) (content rest : Text)
  /-- The end of the line. -/
  | close (token : Token) (content rest : Text)
  /-- A place at which the line cannot be read on. -/
  | fault (fault : LexicalFault) (place : Place)

/-- Reads what comes first in the rest of a directive line, after the blanks before it. -/
def step (place : Place) (source : Text) : Step :=
  let blanks := source.indent
  let here := place.skip blanks
  match source.unindent with
  | [] => .fault .unexpectedEnd here
  | '\n' :: rest => .close ⟨.lineEnd ['\n'], here⟩ (blanks ++ ['\n']) rest
  | '\r' :: '\n' :: rest => .close ⟨.lineEnd ['\r', '\n'], here⟩ (blanks ++ ['\r', '\n']) rest
  | '\r' :: _ => .fault .malformedLineEnd here
  | '"' :: s =>
    match QuotedString.read? s with
    | some q => .token ⟨.quoted q.value, here⟩ (blanks ++ '"' :: q.content) q.rest
    | none => .fault .unterminatedQuote here
  | c :: s =>
    if Text.isWordChar c then
      let name := c :: s.takeWhile Text.isWordChar
      .token ⟨.word name, here⟩ (blanks ++ name) (s.dropWhile Text.isWordChar)
    else .fault (.unexpectedCharacter c) here

/-- A word or string covers at least one character, and its text and the rest make up the source. -/
theorem step_eq_token {place : Place} {source : Text} {token : Token} {content rest : Text}
    (h : step place source = .token token content rest) :
    content ++ rest = source ∧ content ≠ [] := by
  have hs : source.indent ++ source.unindent = source := List.takeWhile_append_dropWhile
  unfold step at h
  split at h
  · simp at h
  · simp at h
  · simp at h
  · simp at h
  · rename_i s hu
    split at h
    · rename_i q hq
      cases h
      refine ⟨?_, by simp⟩
      rw [hu, ← QuotedString.content_append_rest hq] at hs
      simpa using hs
    · simp at h
  · rename_i c s _ _ _ _ hu
    split at h
    · cases h
      refine ⟨?_, by simp⟩
      rw [hu] at hs
      simpa using hs
    · simp at h

/-- The end of the line covers at least one character, and its text and the rest make up the
source. -/
theorem step_eq_close {place : Place} {source : Text} {token : Token} {content rest : Text}
    (h : step place source = .close token content rest) :
    content ++ rest = source ∧ content ≠ [] := by
  have hs : source.indent ++ source.unindent = source := List.takeWhile_append_dropWhile
  unfold step at h
  split at h
  · simp at h
  · rename_i hu
    cases h
    rw [hu] at hs
    simpa using hs
  · rename_i hu
    cases h
    rw [hu] at hs
    simpa using hs
  · simp at h
  · split at h <;> simp at h
  · split at h <;> simp at h

/-- What reading a directive line comes to. -/
inductive Reading where
  /-- The line was read to its end; `content` is the text it covers. -/
  | complete (tokens : List Token) (content rest : Text)
  /-- The line cannot be read on at `place`; `tokens` come before it. -/
  | broken (tokens : List Token) (fault : LexicalFault) (place : Place)

/-- The reading with one more token in front, which covers `cover`. -/
def Reading.cons (token : Token) (cover : Text) : Reading → Reading
  | complete tokens content rest => complete (token :: tokens) (cover ++ content) rest
  | broken tokens fault place => broken (token :: tokens) fault place

/-- Reads a directive line from a place after its trigger. -/
def read (place : Place) (source : Text) : Reading :=
  match _h : step place source with
  | .token token content rest => (read (place.skip content) rest).cons token content
  | .close token content rest => .complete [token] content rest
  | .fault fault here => .broken [] fault here
termination_by source.length
decreasing_by
  obtain ⟨rfl, hne⟩ := step_eq_token _h
  simpa [List.length_pos_iff] using hne

/-- The text of a line read to its end is not empty, and it and the rest make up the source. -/
theorem read_eq_complete {place : Place} {source : Text} {tokens : List Token}
    {content rest : Text} (h : read place source = .complete tokens content rest) :
    content ++ rest = source ∧ content ≠ [] := by
  fun_induction read place source generalizing tokens content rest with
  | case1 place source token cover left hstep ih =>
    cases hr : read (place.skip cover) left with
    | complete ts c r =>
      rw [hr] at h
      cases h
      have hl := (ih hr).1
      obtain ⟨hs, hne⟩ := step_eq_token hstep
      exact ⟨by rw [List.append_assoc, hl, hs], by simp [hne]⟩
    | broken ts f p => rw [hr] at h; simp [Reading.cons] at h
  | case2 place source token cover left hstep =>
    cases h
    exact step_eq_close hstep
  | case3 => simp at h

end Line

end Splice

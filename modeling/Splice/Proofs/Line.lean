import Splice.Proofs.Place
import Splice.Token.Line

/-!
# The shape of a directive line

`Line.read` is a loop over `Line.step`. This module says what one step reads, and from that what the
loop reads: after the trigger, a line that is read to its end is a text without line ends followed
by one line end, and its tokens are words and strings, each starting inside that text, followed by
the token of the line end (`Line.read_complete`). A line that cannot be read on has words and
strings only (`Line.read_broken`).
-/

namespace Splice

/-- Whether a token is a word or a string of a directive line. -/
def Token.isArgument (token : Token) : Bool :=
  match token.lexeme with
  | .word _ | .quoted _ => true
  | _ => false

/-- Whether the value of a token is text of the source that is kept: plain text or a comment. -/
def Token.isKept (token : Token) : Bool :=
  match token.lexeme with
  | .text _ | .comment _ => true
  | _ => false

@[simp] lemma Token.isKept_text (s : Text) (p : Place) : Token.isKept ⟨.text s, p⟩ = true := rfl

@[simp] lemma Token.isKept_comment (s : Text) (p : Place) : Token.isKept ⟨.comment s, p⟩ = true :=
  rfl

@[simp] lemma Token.isKept_trigger (s : Text) (p : Place) : Token.isKept ⟨.trigger s, p⟩ = false :=
  rfl

@[simp] lemma Token.isKept_lineEnd (s : Text) (p : Place) : Token.isKept ⟨.lineEnd s, p⟩ = false :=
  rfl

@[simp] lemma Token.isKept_endOfInput (p : Place) : Token.isKept ⟨.endOfInput, p⟩ = false := rfl

/-- Words and strings of directive lines are not kept. -/
lemma Token.isKept_of_isArgument {token : Token} (h : token.isArgument = true) :
    token.isKept = false := by
  obtain ⟨lexeme, place⟩ := token
  cases lexeme <;> simp_all [isArgument, isKept]

/-- No line end stands among the blanks that a text starts with. -/
lemma Text.newline_notMem_indent (s : Text) : '\n' ∉ s.indent := by
  intro hmem
  have hblank := List.mem_takeWhile_imp hmem
  exact absurd hblank (by decide)

/-- A line end belongs to no word. -/
lemma Text.isWordChar_newline : Text.isWordChar '\n' = false := by
  decide +kernel

/-- A quoted string does not go over the end of its line. -/
lemma QuotedString.newline_notMem_content {s : Text} {q : QuotedString} (h : read? s = some q) :
    '\n' ∉ q.content := by
  fun_induction read? s generalizing q with
  | case1 => simp at h
  | case2 s => cases h; simp
  | case3 => simp at h
  | case4 c s hc ih =>
    obtain ⟨r, hr, rfl⟩ := Option.map_eq_some_iff.1 h
    have hne : '\n' ≠ c := fun heq => hc heq.symm
    simp [cons, hne, ih hr]
  | case5 => simp at h
  | case6 c s _ _ hc ih =>
    obtain ⟨r, hr, rfl⟩ := Option.map_eq_some_iff.1 h
    have hne : '\n' ≠ c := fun heq => hc (Or.inl heq.symm)
    simp [cons, hne, ih hr]

namespace Line

/-- What ends a directive line: a line feed, with or without a carriage return before it. -/
def IsLineEnd (mark : Text) : Prop :=
  mark = ['\n'] ∨ mark = ['\r', '\n']

/-- A step that reads a word or string covers the blanks before it and its own text, on one line,
and its token stands after the blanks. -/
lemma step_token {place : Place} {source : Text} {token : Token} {content rest : Text}
    (h : step place source = .token token content rest) :
    token.isArgument = true ∧ '\n' ∉ content ∧
      ∃ blanks cover, content = blanks ++ cover ∧ cover ≠ [] ∧ token.place = place.skip blanks := by
  have hblanks := Text.newline_notMem_indent source
  unfold step at h
  split at h
  · simp at h
  · simp at h
  · simp at h
  · simp at h
  · split at h
    · rename_i q hq
      cases h
      have hq' := QuotedString.newline_notMem_content hq
      exact ⟨rfl, by simp [hblanks, hq'], source.indent, '"' :: q.content, rfl, by simp, rfl⟩
    · simp at h
  · rename_i c s hfeed _ _ _ hu
    split at h
    · cases h
      have hc : '\n' ≠ c := fun heq => hfeed heq.symm
      have hname : '\n' ∉ s.takeWhile Text.isWordChar := by
        intro hmem
        have hword := List.mem_takeWhile_imp hmem
        rw [Text.isWordChar_newline] at hword
        exact Bool.false_ne_true hword
      refine ⟨rfl, by simp [hblanks, hc, hname], source.indent, _, rfl, by simp, rfl⟩
    · simp at h

/-- A step that reads the end of the line covers the blanks before it and the line end. -/
lemma step_close {place : Place} {source : Text} {token : Token} {content rest : Text}
    (h : step place source = .close token content rest) :
    ∃ blanks mark, content = blanks ++ mark ∧ '\n' ∉ blanks ∧ IsLineEnd mark ∧
      token = ⟨.lineEnd mark, place.skip blanks⟩ := by
  have hblanks := Text.newline_notMem_indent source
  unfold step at h
  split at h
  · simp at h
  · cases h
    exact ⟨source.indent, ['\n'], rfl, hblanks, Or.inl rfl, rfl⟩
  · cases h
    exact ⟨source.indent, ['\r', '\n'], rfl, hblanks, Or.inr rfl, rfl⟩
  · simp at h
  · split at h <;> simp at h
  · split at h <;> simp at h

/-- A line that goes on with a word or string is read on after it. -/
lemma read_of_token {place : Place} {source : Text} {token : Token} {content rest : Text}
    (h : step place source = .token token content rest) :
    read place source = (read (place.skip content) rest).cons token content := by
  rw [read]
  split
  all_goals
    rename_i hstep
    rw [h] at hstep
    cases hstep
  rfl

/-- A line that is at its end is read. -/
lemma read_of_close {place : Place} {source : Text} {token : Token} {content rest : Text}
    (h : step place source = .close token content rest) :
    read place source = .complete [token] content rest := by
  rw [read]
  split
  all_goals
    rename_i hstep
    rw [h] at hstep
    cases hstep
  rfl

/-- A line that cannot be read on is broken there. -/
lemma read_of_fault {place here : Place} {source : Text} {fault : LexicalFault}
    (h : step place source = .fault fault here) : read place source = .broken [] fault here := by
  rw [read]
  split
  all_goals
    rename_i hstep
    rw [h] at hstep
    cases hstep
  rfl

/-- Tokens of words and strings that start inside `body`, when `body` starts at `place`. -/
def Arguments (place : Place) (body : Text) (tokens : List Token) : Prop :=
  ∀ token ∈ tokens, token.isArgument = true ∧
    ∃ passed, passed <+: body ∧ passed.length < body.length ∧ token.place = place.skip passed

/-- The words and strings of a text are still inside it when more text is put before it. -/
lemma Arguments.append {place : Place} {body : Text} {tokens : List Token} (cover : Text)
    (h : Arguments (place.skip cover) body tokens) : Arguments place (cover ++ body) tokens := by
  intro token htoken
  obtain ⟨hargument, passed, hprefix, hlength, hplace⟩ := h token htoken
  refine ⟨hargument, cover ++ passed, ?_, ?_, ?_⟩
  · exact (List.prefix_append_right_inj cover).2 hprefix
  · simpa using hlength
  · rw [hplace, Place.skip_append]

/-- A line that is read to its end is a text on one line, whose words and strings are its tokens,
and then a line end. The induction is on the steps: each puts its text and its token in front. -/
lemma read_complete {place : Place} {source : Text} {tokens : List Token} {content rest : Text}
    (h : read place source = .complete tokens content rest) :
    ∃ arguments body mark, content = body ++ mark ∧ '\n' ∉ body ∧ IsLineEnd mark ∧
      tokens = arguments ++ [⟨.lineEnd mark, place.skip body⟩] ∧
      Arguments place body arguments := by
  fun_induction read place source generalizing tokens content rest with
  | case1 place source token cover left hstep ih =>
    cases hr : read (place.skip cover) left with
    | complete ts c r =>
      rw [hr] at h
      cases h
      obtain ⟨arguments, body, mark, rfl, hbody, hmark, rfl, harguments⟩ := ih hr
      obtain ⟨htoken, hcover, blanks, own, hsplit, hown, hplace⟩ := step_token hstep
      have hinside : Arguments place (cover ++ body) [token] := by
        intro t ht
        rw [List.mem_singleton.1 ht]
        refine ⟨htoken, blanks, ?_, ?_, hplace⟩
        · rw [hsplit, List.append_assoc]
          exact List.prefix_append _ _
        · have hpos := List.length_pos_iff.2 hown
          rw [hsplit]
          simp
          omega
      refine ⟨token :: arguments, cover ++ body, mark, ?_, ?_, hmark, ?_, ?_⟩
      · rw [List.append_assoc]
      · simp [hcover, hbody]
      · rw [Place.skip_append]
        rfl
      · intro t ht
        rcases List.mem_cons.1 ht with rfl | ht
        · exact hinside t (List.mem_singleton_self t)
        · exact harguments.append cover t ht
    | broken ts f p => rw [hr] at h; simp [Reading.cons] at h
  | case2 place source token cover left hstep =>
    cases h
    obtain ⟨blanks, mark, rfl, hblanks, hmark, rfl⟩ := step_close hstep
    refine ⟨[], blanks, mark, rfl, hblanks, hmark, rfl, ?_⟩
    intro t ht
    simp at ht
  | case3 => simp at h

/-- The tokens of a line that cannot be read on are words and strings. -/
lemma read_broken {place there : Place} {source : Text} {tokens : List Token}
    {fault : LexicalFault} (h : read place source = .broken tokens fault there) :
    ∀ token ∈ tokens, token.isArgument = true := by
  fun_induction read place source generalizing tokens with
  | case1 place source token cover left hstep ih =>
    cases hr : read (place.skip cover) left with
    | complete ts c r => rw [hr] at h; simp [Reading.cons] at h
    | broken ts f p =>
      rw [hr] at h
      cases h
      intro t ht
      rcases List.mem_cons.1 ht with rfl | ht
      · exact (step_token hstep).1
      · exact ih hr t ht
  | case2 => simp at h
  | case3 => cases h; simp

end Line

end Splice

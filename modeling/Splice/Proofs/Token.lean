import Splice.Proofs.Address
import Splice.Proofs.Directive

/-!
# Tokens and the text they stand for

The tokens of a source stand in it one after the other, and most of them are spelled in the source
as they are. `Token.Spread` says both at once: each token is reached from the one before it by going
over text, and the text from there on starts with what the token says. One step of reading a
directive line spreads its token over the text that the step covers, and one step of a scan does so
for its segment; putting such pieces in a row (`Token.Spread.append`) gives the line, and then the
source. Whatever is known about the places of tokens is read off the result.
-/

namespace Splice

namespace Lexeme

/-- Whether the value of a lexeme is text of the source as it stands there. A string comes without
its quotes and escapes. -/
def isVerbatim : Lexeme → Bool
  | text _ | comment _ | trigger _ | word _ | lineEnd _ => true
  | quoted _ | invalid _ | endOfInput => false

/-- A lexeme is what a text starts with. A string is spelled between quotes, and the lexemes that
stand for no text are not asked for any. -/
def Starts (source : Text) : Lexeme → Prop
  | text s | comment s | trigger s | word s | lineEnd s => s <+: source
  | quoted value => ∃ body, QuotedString.Spells body value ∧ '"' :: (body ++ ['"']) <+: source
  | invalid _ | endOfInput => True

/-- What a text starts with does not depend on what comes after the text. -/
lemma Starts.append {lexeme : Lexeme} {source : Text} (h : lexeme.Starts source) (rest : Text) :
    lexeme.Starts (source ++ rest) := by
  cases lexeme with
  | quoted value =>
    obtain ⟨body, hbody, hquoted⟩ := h
    exact ⟨body, hbody, hquoted.trans (List.prefix_append source rest)⟩
  | invalid fault => trivial
  | endOfInput => trivial
  | _ => exact h.trans (List.prefix_append source rest)

/-- A lexeme that is spelled as it is stands at the start of the text. -/
lemma Starts.value_isPrefix {lexeme : Lexeme} {source : Text} (h : lexeme.Starts source)
    (hverbatim : lexeme.isVerbatim = true) : lexeme.value <+: source := by
  cases lexeme with
  | quoted value => cases hverbatim
  | invalid fault => cases hverbatim
  | endOfInput => cases hverbatim
  | _ => exact h

end Lexeme

namespace Token

/-- Tokens stand in a text one after the other, the text being scanned from a place on. Each token
is what the text starts with from its own place on. -/
inductive Spread : Place → Text → List Token → Prop where
  /-- No tokens. -/
  | nil (place : Place) (source : Text) : Spread place source []
  /-- A token after some text, and then the others. -/
  | cons {place : Place} {rest : Text} {token : Token} {tokens : List Token} (passed : Text)
    (hplace : token.place = place.skip passed)
    (hlexeme : token.lexeme.Starts rest)
    (htail : Spread (place.skip passed) rest tokens) :
    Spread place (passed ++ rest) (token :: tokens)

namespace Spread

variable {place : Place} {source content rest : Text} {token : Token} {tokens others : List Token}

/-- One token after some text. -/
lemma singleton (passed : Text) (hplace : token.place = place.skip passed)
    (hlexeme : token.lexeme.Starts rest) : Spread place (passed ++ rest) [token] :=
  .cons passed hplace hlexeme (.nil _ _)

/-- More text in front. -/
lemma after (passed : Text) (h : Spread (place.skip passed) rest tokens) :
    Spread place (passed ++ rest) tokens := by
  cases h with
  | nil => exact .nil _ _
  | @cons _ rest _ _ more hplace hlexeme htail =>
    rw [← Place.skip_append] at hplace htail
    rw [← List.append_assoc]
    exact .cons (passed ++ more) hplace hlexeme htail

/-- Tokens of a text and then those of the text after it. -/
lemma append (h : Spread place content tokens) (hrest : Spread (place.skip content) rest others) :
    Spread place (content ++ rest) (tokens ++ others) := by
  induction h with
  | nil place content => exact hrest.after content
  | @cons place more token tokens passed hplace hlexeme htail ih =>
    rw [Place.skip_append] at hrest
    rw [List.append_assoc, List.cons_append]
    exact .cons passed hplace (hlexeme.append rest) (ih hrest)

/-- Each token is reached by going over a first part of the text, and is what the rest starts
with. -/
lemma exists_passed (h : Spread place source tokens) (hmem : token ∈ tokens) :
    ∃ passed rest, source = passed ++ rest ∧ token.place = place.skip passed ∧
      token.lexeme.Starts rest := by
  induction h with
  | nil => cases hmem
  | @cons place rest first tokens passed hplace hlexeme htail ih =>
    rcases List.mem_cons.1 hmem with rfl | hlater
    · exact ⟨passed, rest, rfl, hplace, hlexeme⟩
    · obtain ⟨more, left, rfl, hthere, hleft⟩ := ih hlater
      refine ⟨passed ++ more, left, ?_, ?_, hleft⟩
      · rw [List.append_assoc]
      · rw [hthere, Place.skip_append]

/-- Tokens stand in the order of their offsets. -/
lemma pairwise_offset (h : Spread place source tokens) :
    tokens.Pairwise fun one other => one.place.offset ≤ other.place.offset := by
  induction h with
  | nil => exact .nil
  | @cons place rest first tokens passed hplace hlexeme htail ih =>
    refine .cons ?_ ih
    intro other hother
    obtain ⟨more, left, -, hthere, -⟩ := htail.exists_passed hother
    rw [hplace, hthere, Place.skip_offset _ more]
    exact Nat.le_add_right _ _

end Spread

end Token

/-! ### Directive lines -/

namespace Line

variable {place : Place} {source content rest : Text} {token : Token}

/-- A word or string stands in the text that its step covers. -/
lemma spread_of_token (h : step place source = .token token content rest) :
    Token.Spread place content [token] := by
  have hfinds := finds_step place source
  rw [h] at hfinds
  cases hfinds with
  | word name => exact .singleton source.indent rfl (List.prefix_refl name)
  | quoted body value _ hbody =>
    exact .singleton source.indent rfl ⟨body, hbody, List.prefix_refl _⟩

/-- So does the end of a line. -/
lemma spread_of_close (h : step place source = .close token content rest) :
    Token.Spread place content [token] := by
  have hfinds := finds_step place source
  rw [h] at hfinds
  cases hfinds with
  | lineEnd mark => exact .singleton source.indent rfl (List.prefix_refl mark)

/-- What is found in a directive line stands in the text of the line: in what the line covers if it
is read to its end, and else in the text that is left of the source. -/
def Reading.Spreads (place : Place) (source : Text) : Reading → Prop
  | complete tokens content _ => Token.Spread place content tokens
  | broken tokens fault there => Token.Spread place source (tokens ++ [⟨.invalid fault, there⟩])

/-- A token in front, with the text that it covers. -/
lemma Reading.Spreads.cons {reading : Reading} (htoken : Token.Spread place content [token])
    (h : reading.Spreads (place.skip content) rest) :
    (reading.cons token content).Spreads place (content ++ rest) := by
  cases reading with
  | complete tokens more left => exact htoken.append h
  | broken tokens fault there => exact htoken.append h

/-- Whatever is found in a directive line stands in its text, one after the other. The induction is
on the steps of reading. -/
lemma spreads_read (place : Place) (source : Text) : (read place source).Spreads place source := by
  fun_induction read place source with
  | case1 place source token content rest hstep ih =>
    rw [← (step_eq_token hstep).1]
    exact .cons (spread_of_token hstep) ih
  | case2 place source token content rest hstep => exact spread_of_close hstep
  | case3 place source fault here hstep =>
    have hplace := place_step place source
    rw [hstep] at hplace
    rw [← Text.indent_append_unindent source]
    exact Token.Spread.singleton source.indent hplace trivial

end Line

/-! ### Scans -/

namespace Dialect

variable {dialect : Dialect} {place : Place} {source rest : Text}

/-- A trigger and what is found after it stand in the text from the blanks on. -/
lemma spread_trigger {after : Text} {tokens : List Token}
    (h : Token.Spread ((place.skip source.indent).skip dialect.trigger) after tokens) :
    Token.Spread place (source.indent ++ (dialect.trigger ++ after))
      (⟨.trigger dialect.trigger, place.skip source.indent⟩ :: tokens) :=
  .cons source.indent rfl (List.prefix_append dialect.trigger after) (h.after dialect.trigger)

/-- The tokens of a segment stand in its text. -/
lemma spread_of_segment {segment : Segment}
    (h : dialect.step place source = .segment segment rest) :
    Token.Spread place segment.content segment.tokens := by
  have hcuts := dialect.cuts_step place source
  rw [h] at hcuts
  cases hcuts with
  | text => exact .singleton [] place.skip_nil.symm (List.prefix_refl _)
  | comment style =>
    rw [Segment.tokens]
    split
    · exact .nil _ _
    · exact .singleton [] place.skip_nil.symm (List.prefix_refl _)
  | directive after tokens content _ hstart hafter hread =>
    have hspreads := Line.spreads_read ((place.skip source.indent).skip dialect.trigger) after
    rw [hread] at hspreads
    rw [Segment.content, List.append_assoc]
    exact spread_trigger hspreads
  | shebang => exact .nil _ _

/-- The tokens at the end of a scan stand in the text that is left. -/
lemma spread_of_ending {ending : Ending} (h : dialect.step place source = .ending ending) :
    Token.Spread place source ending.tokens := by
  have hcuts := dialect.cuts_step place source
  rw [h] at hcuts
  cases hcuts with
  | complete hsource =>
    rw [hsource]
    exact .singleton [] place.skip_nil.symm trivial
  | misplaced after =>
    rw [← Text.indent_append_unindent source]
    refine Token.Spread.singleton source.indent ?_ trivial
    rw [Text.indent_append_unindent]
  | broken after tokens fault there hstart hafter hread =>
    have hspreads := Line.spreads_read ((place.skip source.indent).skip dialect.trigger) after
    have hsource := Text.indent_append_unindent source
    rw [hafter] at hsource
    rw [hread] at hspreads
    have hline := spread_trigger hspreads
    rwa [hsource] at hline

/-- The tokens of a scan stand in its text. The induction is on the steps of the scan. -/
lemma spread_scanFrom (dialect : Dialect) (place : Place) (source : Text) :
    Token.Spread place source (dialect.scanFrom place source).tokens := by
  fun_induction scanFrom dialect place source with
  | case1 place source segment rest hstep ih =>
    rw [Scan.tokens_cons, ← (step_eq_segment hstep).1]
    exact (spread_of_segment hstep).append ih
  | case2 place source ending hstep => exact spread_of_ending hstep

/-- The end of the input is no token of a segment. -/
lemma endOfInput_notMem_segment {segment : Segment}
    (h : dialect.step place source = .segment segment rest) (there : Place) :
    ⟨.endOfInput, there⟩ ∉ segment.tokens := by
  intro hmem
  cases segment with
  | text p content => cases List.mem_singleton.1 hmem
  | comment p style content =>
    rw [Segment.tokens] at hmem
    split at hmem
    · cases hmem
    · cases List.mem_singleton.1 hmem
  | directive p content tokens =>
    obtain ⟨-, blanks, body, mark, arguments, -, -, -, -, rfl, harguments⟩ := step_directive h
    simp only [Segment.tokens, List.cons_append, List.mem_cons, List.mem_append, List.not_mem_nil,
      or_false] at hmem
    rcases hmem with hmem | hmem | hmem
    · cases hmem
    · cases (harguments _ hmem).1
    · cases hmem
  | shebang p content => cases hmem

/-- At the end of a scan, the end of the input stands at the end of the text that is left. -/
lemma place_of_endOfInput_ending {ending : Ending} {there : Place}
    (h : dialect.step place source = .ending ending)
    (hmem : ⟨.endOfInput, there⟩ ∈ ending.tokens) : there = place.skip source := by
  cases ending with
  | complete p =>
    obtain ⟨rfl, rfl⟩ := step_complete h
    cases List.mem_singleton.1 hmem
    exact (Place.skip_nil _).symm
  | broken tokens fault p =>
    rcases List.mem_append.1 hmem with hmem | hmem
    · rcases step_broken h with rfl | ⟨arguments, harguments, rfl⟩
      · cases hmem
      · rcases List.mem_cons.1 hmem with hmem | hmem
        · cases hmem
        · cases harguments _ hmem
    · cases List.mem_singleton.1 hmem

/-- The end of the input stands at the end of the text. The induction is on the steps of the scan,
of which only the last one can come to it. -/
lemma place_of_endOfInput {there : Place}
    (h : ⟨.endOfInput, there⟩ ∈ (dialect.scanFrom place source).tokens) :
    there = place.skip source := by
  fun_induction scanFrom dialect place source with
  | case1 place source segment rest hstep ih =>
    rw [Scan.tokens_cons] at h
    rcases List.mem_append.1 h with hhere | hlater
    · exact absurd hhere (endOfInput_notMem_segment hstep there)
    · rw [ih hlater, ← Place.skip_append, (step_eq_segment hstep).1]
  | case2 place source ending hstep => exact place_of_endOfInput_ending hstep h

/-- **Tokens stand where they say.** For every trigger and all comment styles, each token of a
source stands on the line and column of its offset, and the text from there on starts with what the
token says, unless it is a string, an invalid token or the end of the input. The end of the input
stands at the end of the source, and offsets never go down from one token to a later one. -/
theorem tokens_stand_where_they_say (dialect : Dialect) (source : Text) :
    (∀ token ∈ dialect.tokens source,
      source.StandsOn token.place.offset token.place.line token.place.column ∧
      (token.lexeme.isVerbatim = true →
        token.lexeme.value <+: source.drop token.place.offset) ∧
      (token.lexeme = .endOfInput → token.place.offset = source.length)) ∧
    (dialect.tokens source).Pairwise fun one other => one.place.offset ≤ other.place.offset := by
  have hspread : Token.Spread .start source (dialect.tokens source) :=
    dialect.spread_scanFrom .start source
  refine ⟨?_, hspread.pairwise_offset⟩
  intro token hmem
  obtain ⟨passed, rest, rfl, hplace, hlexeme⟩ := hspread.exists_passed hmem
  have hoffset : token.place.offset = passed.length := by
    rw [hplace, Place.skip_offset]
    exact Nat.zero_add _
  refine ⟨?_, ?_, ?_⟩
  · have hle : passed.length ≤ (passed ++ rest).length := (List.prefix_append _ _).length_le
    have hstands := Text.standsOn_skip (passed ++ rest) hle
    rw [List.take_left, ← hplace, ← hoffset] at hstands
    exact hstands
  · rw [hoffset, List.drop_left]
    exact hlexeme.value_isPrefix
  · intro hend
    obtain ⟨lexeme, there⟩ := token
    cases hend
    have hthere : there = Place.start.skip (passed ++ rest) := place_of_endOfInput hmem
    rw [hthere, Place.skip_offset]
    exact Nat.zero_add _

/-- A dialect whose trigger goes over the end of a line. -/
def twoLines : Dialect :=
  ⟨['#', '\n'], [.block]⟩

end Dialect

/-- A text with a directive over two lines and a comment over two lines. -/
def Text.twoLines : Text :=
  "a\n\t#\ninclude \"b\"\r\n/* c\n d */ e".toList

/-- The line end of the directive and the end of the input stand where they say. -/
theorem Dialect.tokens_stand_where_they_say_two_lines :
    ⟨.lineEnd ['\r', '\n'], ⟨16, 3, 12⟩⟩ ∈ Dialect.twoLines.tokens Text.twoLines ∧
      Text.twoLines.StandsOn 16 3 12 ∧
      ['\r', '\n'] <+: Text.twoLines.drop 16 ∧
      ⟨.endOfInput, ⟨30, 5, 8⟩⟩ ∈ Dialect.twoLines.tokens Text.twoLines ∧
      Text.twoLines.StandsOn 30 5 8 ∧ 30 = Text.twoLines.length ∧
      (Dialect.twoLines.tokens Text.twoLines).Pairwise
        fun one other => one.place.offset ≤ other.place.offset := by
  obtain ⟨htokens, horder⟩ := tokens_stand_where_they_say Dialect.twoLines Text.twoLines
  have hline : ⟨.lineEnd ['\r', '\n'], ⟨16, 3, 12⟩⟩ ∈
      Dialect.twoLines.tokens Text.twoLines := by
    decide +kernel
  have hend : ⟨.endOfInput, ⟨30, 5, 8⟩⟩ ∈ Dialect.twoLines.tokens Text.twoLines := by
    decide +kernel
  obtain ⟨hstands, hvalue, -⟩ := htokens _ hline
  obtain ⟨hlast, -, hlength⟩ := htokens _ hend
  exact ⟨hline, hstands, hvalue rfl, hend, hlast, hlength rfl, horder⟩

end Splice

import Splice.Proofs.Segment

/-!
# Scanning afresh after a directive line

After the end of a directive line a scan goes on as if the rest of the source were a source of its
own. The two scans stand at different places: that of the whole source is so many characters and
lines further on, in the same column (`Place.shift`). What one step finds depends on its place
through the column only, with one exception, since a shebang is a matter of the line. So a step in
the one scan is the same step in the other, further on (`Dialect.step_shift`), unless it comes to a
shebang on the first line of the rest; a scan that has passed some text comes to no other one.

A line end is the last token of its directive line, so the tokens after it are those of the scan
from there on (`Dialect.exists_scan_of_lineEnd`).
-/

namespace Splice

/-! ### Places further on -/

namespace Place

/-- The place that is the given number of characters and lines further on, in the same column. -/
def shift (offset lines : Nat) (place : Place) : Place :=
  ⟨place.offset + offset, place.line + lines, place.column⟩

/-- Further on, the same text is gone over in the same way. -/
lemma skip_shift (offset lines : Nat) (place : Place) (passed : Text) :
    (place.shift offset lines).skip passed = (place.skip passed).shift offset lines := by
  simp only [skip, shift, Place.mk.injEq, and_true]
  omega

/-- Going over text to the start of a line is going on by the characters and lines of the text. -/
lemma start_skip_eq_shift {passed : Text} (h : passed.EndsLine) :
    start.skip passed = start.shift passed.length passed.newlines := by
  have hcolumn : (start.skip passed).column = 1 := by
    rw [start_skip_column, (Text.lastLine_eq_nil_iff passed).2 h]
    rfl
  exact congrArg (Place.mk _ _) hcolumn

/-- Where a line starts after some text, it is not the first line. -/
lemma one_lt_line_of_isLineStart {passed : Text} (hne : passed ≠ [])
    (hstart : (start.skip passed).isLineStart = true) : 1 < (start.skip passed).line := by
  have hline : (start.skip passed).line = 1 + passed.newlines := rfl
  have hother : (start.skip passed).line ≠ 1 :=
    fun hfirst => hne (eq_nil_of_first_line hfirst hstart)
  omega

end Place

/-- The token, further on. -/
def Token.shift (offset lines : Nat) (token : Token) : Token :=
  ⟨token.lexeme, token.place.shift offset lines⟩

/-! ### Directive lines -/

namespace Line

/-- The step of reading a line, further on. -/
def Step.shift (offset lines : Nat) : Step → Step
  | token found content rest => token (found.shift offset lines) content rest
  | close found content rest => close (found.shift offset lines) content rest
  | fault found place => fault found (place.shift offset lines)

/-- What reading a line comes to, further on. -/
def Reading.shift (offset lines : Nat) : Reading → Reading
  | complete tokens content rest => complete (tokens.map (Token.shift offset lines)) content rest
  | broken tokens fault place =>
    broken (tokens.map (Token.shift offset lines)) fault (place.shift offset lines)

variable (offset lines : Nat)

/-- A token in front is further on as well. -/
lemma Reading.cons_shift (token : Token) (cover : Text) (reading : Reading) :
    (reading.shift offset lines).cons (token.shift offset lines) cover =
      (reading.cons token cover).shift offset lines := by
  cases reading <;> rfl

/-- One step of reading a line finds the same further on. -/
lemma step_shift (place : Place) (source : Text) :
    step (place.shift offset lines) source = (step place source).shift offset lines := by
  rw [step, step, Place.skip_shift]
  split
  · rfl
  · rfl
  · rfl
  · rfl
  · split <;> rfl
  · split <;> rfl

/-- A line is read in the same way further on. The induction is on the steps of reading. -/
lemma read_shift (place : Place) (source : Text) :
    read (place.shift offset lines) source = (read place source).shift offset lines := by
  fun_induction read place source with
  | case1 place source token content rest hstep ih =>
    have hshift := step_shift offset lines place source
    rw [hstep] at hshift
    rw [read_of_token hshift, Place.skip_shift, ih, Reading.cons_shift]
  | case2 place source token content rest hstep =>
    have hshift := step_shift offset lines place source
    rw [hstep] at hshift
    exact read_of_close hshift
  | case3 place source fault here hstep =>
    have hshift := step_shift offset lines place source
    rw [hstep] at hshift
    exact read_of_fault hshift

end Line

/-! ### Scans -/

/-- The segment, further on. -/
def Segment.shift (offset lines : Nat) : Segment → Segment
  | text start content => text (start.shift offset lines) content
  | comment start style content => comment (start.shift offset lines) style content
  | directive start content tokens =>
    directive (start.shift offset lines) content (tokens.map (Token.shift offset lines))
  | shebang start content => shebang (start.shift offset lines) content

/-- The end of a scan, further on. -/
def Ending.shift (offset lines : Nat) : Ending → Ending
  | complete place => complete (place.shift offset lines)
  | broken tokens fault place =>
    broken (tokens.map (Token.shift offset lines)) fault (place.shift offset lines)

/-- The scan, further on. -/
def Scan.shift (offset lines : Nat) (scan : Scan) : Scan :=
  ⟨scan.segments.map (Segment.shift offset lines), scan.ending.shift offset lines⟩

section Shift

variable (offset lines : Nat)

/-- A segment covers the same text further on. -/
lemma Segment.content_shift (segment : Segment) :
    (segment.shift offset lines).content = segment.content := by
  cases segment <;> rfl

/-- The tokens of a segment that is further on. -/
lemma Segment.tokens_shift (segment : Segment) :
    (segment.shift offset lines).tokens = segment.tokens.map (Token.shift offset lines) := by
  cases segment with
  | comment start style content =>
    rw [shift, tokens, tokens]
    split <;> rfl
  | _ => rfl

/-- The tokens of the end of a scan that is further on. -/
lemma Ending.tokens_shift (ending : Ending) :
    (ending.shift offset lines).tokens = ending.tokens.map (Token.shift offset lines) := by
  cases ending with
  | complete place => rfl
  | broken tokens fault place =>
    rw [shift, Ending.tokens, Ending.tokens, List.map_append]
    rfl

/-- The tokens of a scan that is further on. -/
lemma Scan.tokens_shift (scan : Scan) :
    (scan.shift offset lines).tokens = scan.tokens.map (Token.shift offset lines) := by
  rw [shift, tokens, tokens, List.map_append, Ending.tokens_shift, List.flatMap_map,
    List.map_flatMap]
  simp only [Segment.tokens_shift]

end Shift

namespace Dialect

/-- A text that starts with a shebang: after its blanks come the trigger and an exclamation mark. -/
def BeginsShebang (dialect : Dialect) (source : Text) : Prop :=
  dialect.trigger ++ ['!'] <+: source.unindent

instance (dialect : Dialect) (source : Text) : Decidable (dialect.BeginsShebang source) :=
  inferInstanceAs (Decidable (_ <+: _))

/-- The step of a scan, further on. -/
def Step.shift (offset lines : Nat) : Step → Step
  | segment found rest => segment (found.shift offset lines) rest
  | ending found => ending (found.shift offset lines)

section Shift

variable {dialect : Dialect} {place : Place} {source : Text} (offset lines : Nat)

/-- A directive line is the same further on. Whether there may be a shebang is a matter of the line,
so there must be none on the first line. -/
lemma directive_shift (htrigger : dialect.trigger <+: source.unindent)
    (hlater : dialect.BeginsShebang source → 1 < place.line) :
    dialect.directive (place.shift offset lines) source =
      (dialect.directive place source).shift offset lines := by
  obtain ⟨after, hafter⟩ := htrigger
  have hdrop : source.unindent.drop dialect.trigger.length = after := by
    rw [← hafter, List.drop_left]
  simp only [directive, hdrop, Place.skip_shift]
  split
  · rename_i hbang
    have hshebang : dialect.BeginsShebang source := by
      rw [BeginsShebang, ← hafter]
      exact (List.prefix_append_right_inj _).2 (List.isPrefixOf_iff_prefix.1 hbang)
    have hline : 1 < place.line := hlater hshebang
    have hhere : (place.skip source.indent).line = place.line + Text.newlines source.indent := rfl
    have hthere : ((place.skip source.indent).shift offset lines).line =
        (place.skip source.indent).line + lines := rfl
    rw [if_pos (by omega), if_pos (by omega)]
    rfl
  · rw [Line.read_shift]
    cases Line.read ((place.skip source.indent).skip dialect.trigger) after <;> rfl

/-- A step cuts off the same further on, unless it comes to a shebang on the first line. -/
lemma step_shift
    (hlater : place.isLineStart = true → dialect.BeginsShebang source → 1 < place.line) :
    dialect.step (place.shift offset lines) source =
      (dialect.step place source).shift offset lines := by
  have hsame : (place.shift offset lines).isLineStart = place.isLineStart := rfl
  unfold step
  rw [hsame]
  cases hevent : dialect.event? place.isLineStart source with
  | none => cases source <;> rfl
  | some event =>
    cases event with
    | directive =>
      obtain ⟨hstart, htrigger⟩ := event?_eq_directive hevent
      exact directive_shift offset lines htrigger (hlater hstart)
    | comment style => rfl

/-- A scan cuts off the same further on, unless it starts with a shebang. The induction is on the
steps of the scan; after the first one there is text before each, and then a line that starts is not
the first one. -/
lemma scanFrom_shift {passed : Text} (hplace : place = Place.start.skip passed)
    (hfirst : passed = [] → ¬ dialect.BeginsShebang source) :
    dialect.scanFrom (place.shift offset lines) source =
      (dialect.scanFrom place source).shift offset lines := by
  have hlater : ∀ {place : Place} {source passed : Text}, place = Place.start.skip passed →
      (passed = [] → ¬ dialect.BeginsShebang source) →
      place.isLineStart = true → dialect.BeginsShebang source → 1 < place.line := by
    rintro place source passed rfl hfirst hstart hshebang
    exact Place.one_lt_line_of_isLineStart (fun hnil => hfirst hnil hshebang) hstart
  fun_induction scanFrom dialect place source generalizing passed with
  | case1 place source segment rest hstep ih =>
    have hshift := step_shift offset lines (hlater hplace hfirst)
    rw [hstep] at hshift
    have hnext : place.skip segment.content = Place.start.skip (passed ++ segment.content) := by
      rw [hplace, Place.skip_append]
    have hne : passed ++ segment.content ≠ [] := by simp [(step_eq_segment hstep).2]
    rw [scanFrom_eq_cons hshift, Segment.content_shift, Place.skip_shift,
      ih hnext (fun hnil => absurd hnil hne)]
    rfl
  | case2 place source ending hstep =>
    have hshift := step_shift offset lines (hlater hplace hfirst)
    rw [hstep] at hshift
    exact scanFrom_eq_ending hshift

end Shift

/-! ### The end of a directive line -/

variable {dialect : Dialect} {place there : Place} {source rest mark : Text}
  {earlier later : List Token}

/-- A line end is the last token of its segment, at the end of the text of the segment. -/
lemma eq_nil_of_lineEnd {segment : Segment} (h : dialect.step place source = .segment segment rest)
    (htokens : segment.tokens = earlier ++ ⟨.lineEnd mark, there⟩ :: later) :
    later = [] ∧ there.skip mark = place.skip segment.content ∧
      segment.content.getLast? = some '\n' := by
  have hmem : ⟨.lineEnd mark, there⟩ ∈ segment.tokens := by simp [htokens]
  cases segment with
  | text p content => cases List.mem_singleton.1 hmem
  | comment p style content =>
    rw [Segment.tokens] at hmem
    split at hmem
    · cases hmem
    · cases List.mem_singleton.1 hmem
  | directive p content tokens =>
    obtain ⟨-, blanks, body, ending, arguments, -, -, hending, rfl, rfl, harguments⟩ :=
      step_directive h
    have hnone : ⟨.lineEnd mark, there⟩ ∉
        (⟨.trigger dialect.trigger, place.skip blanks⟩ : Token) :: arguments := by
      intro hother
      rcases List.mem_cons.1 hother with hother | hother
      · cases hother
      · cases (harguments _ hother).1
    rw [Segment.tokens] at htokens
    rcases List.eq_nil_or_concat later with rfl | ⟨init, final, rfl⟩
    · obtain ⟨-, hlast⟩ := List.append_inj' htokens rfl
      obtain ⟨rfl, rfl⟩ : ending = mark ∧
          place.skip (blanks ++ dialect.trigger ++ body) = there := by
        simpa using hlast
      refine ⟨rfl, ?_, ?_⟩
      · rw [← Place.skip_append]
        rfl
      · rcases hending with rfl | rfl <;> simp [Segment.content]
    · -- a token after the line end would put the line end among the trigger and the arguments
      rw [List.concat_eq_append, ← List.cons_append, ← List.append_assoc] at htokens
      obtain ⟨hfront, -⟩ := List.append_inj' htokens rfl
      rw [hfront] at hnone
      exact absurd (List.mem_append_right _ List.mem_cons_self) hnone
  | shebang p content => cases hmem

/-- The end of a scan has no line end among its tokens. -/
lemma lineEnd_notMem_ending {ending : Ending} (h : dialect.step place source = .ending ending) :
    ⟨.lineEnd mark, there⟩ ∉ ending.tokens := by
  intro hmem
  cases ending with
  | complete p => cases List.mem_singleton.1 hmem
  | broken tokens fault p =>
    rcases List.mem_append.1 hmem with hmem | hmem
    · rcases step_broken h with rfl | ⟨arguments, harguments, rfl⟩
      · cases hmem
      · rcases List.mem_cons.1 hmem with hmem | hmem
        · cases hmem
        · cases harguments _ hmem
    · cases List.mem_singleton.1 hmem

/-- The tokens after a line end are those of the scan from there on. The induction is on the steps
of the scan, down to the one that cuts off the directive line. -/
lemma exists_scan_of_lineEnd
    (h : (dialect.scanFrom place source).tokens = earlier ++ ⟨.lineEnd mark, there⟩ :: later) :
    ∃ passed rest, source = passed ++ rest ∧ there.skip mark = place.skip passed ∧
      passed.getLast? = some '\n' ∧
      later = (dialect.scanFrom (place.skip passed) rest).tokens := by
  fun_induction scanFrom dialect place source generalizing earlier with
  | case1 place source segment rest hstep ih =>
    have hsource := (step_eq_segment hstep).1
    rw [Scan.tokens_cons] at h
    have hafter (others : List Token)
        (htail : (dialect.scanFrom (place.skip segment.content) rest).tokens =
          others ++ ⟨.lineEnd mark, there⟩ :: later) :
        ∃ passed left, source = passed ++ left ∧ there.skip mark = place.skip passed ∧
          passed.getLast? = some '\n' ∧
          later = (dialect.scanFrom (place.skip passed) left).tokens := by
      obtain ⟨passed, left, rfl, hplace, hlast, hlater⟩ := ih htail
      refine ⟨segment.content ++ passed, left, ?_, ?_, ?_, ?_⟩
      · rw [List.append_assoc, hsource]
      · rw [hplace, Place.skip_append]
      · rw [List.getLast?_append, hlast, Option.some_or]
      · rw [hlater, Place.skip_append]
    rcases List.append_eq_append_iff.1 h with ⟨others, -, htail⟩ | ⟨others, hsegment, htail⟩
    · exact hafter others htail
    · cases others with
      | nil => exact hafter [] htail.symm
      | cons token others =>
        obtain ⟨rfl, rfl⟩ := List.cons.inj htail
        obtain ⟨rfl, hplace, hlast⟩ := eq_nil_of_lineEnd hstep hsegment
        exact ⟨segment.content, rest, hsource.symm, hplace, hlast, rfl⟩
  | case2 place source ending hstep =>
    have hmem : ⟨.lineEnd mark, there⟩ ∈ ending.tokens := by
      have htokens : ending.tokens = earlier ++ ⟨.lineEnd mark, there⟩ :: later := h
      simp [htokens]
    exact absurd hmem (lineEnd_notMem_ending hstep)

/-- A shebang on another line than the first ends the scan where the trigger stands. -/
lemma scanFrom_of_misplaced (hstart : place.isLineStart = true) (hline : 1 < place.line)
    (h : dialect.BeginsShebang source) :
    dialect.scanFrom place source =
      ⟨[], .broken [] .misplacedShebang (place.skip source.indent)⟩ := by
  obtain ⟨after, hafter⟩ := h
  have hevent : dialect.event? place.isLineStart source = some .directive := by
    cases source with
    | nil => simp [Text.unindent] at hafter
    | cons c s =>
      rw [event?, hstart, ← hafter, if_pos]
      simp
  have hdrop : source.unindent.drop dialect.trigger.length = '!' :: after := by
    rw [← hafter, List.append_assoc, List.drop_left, List.singleton_append]
  have hhere : (place.skip source.indent).line = place.line + Text.newlines source.indent := rfl
  have hdirective : dialect.directive place source =
      .ending (.broken [] .misplacedShebang (place.skip source.indent)) := by
    have hbang : ['!'].isPrefixOf ('!' :: after) = true := by simp
    simp only [directive, hdrop]
    rw [if_pos hbang, if_pos (by omega)]
  apply scanFrom_eq_ending
  simp only [step, hevent, hdirective]

/-- **Nothing is remembered after a directive line.** Take any source, trigger and comment styles,
and a line end among the tokens, with the text after it starting at the offset `stop`. The tokens
that follow are those of this text, scanned as a source of its own: each is of the same kind and
value and in the same column, and stands as many characters and lines further on as there are before
`stop`. Only if the text starts with a shebang, which is allowed on the first line of a source, the
scan ends there instead. -/
theorem tokens_after_lineEnd (dialect : Dialect) (source : Text) {earlier later : List Token}
    {mark : Text} {place : Place} {stop : Nat}
    (h : dialect.tokens source = earlier ++ ⟨.lineEnd mark, place⟩ :: later)
    (hstop : stop = place.offset + mark.length) :
    (¬ dialect.BeginsShebang (source.drop stop) →
      later = (dialect.tokens (source.drop stop)).map
        (Token.shift stop (Text.newlines (source.take stop)))) ∧
    (dialect.BeginsShebang (source.drop stop) →
      later = [⟨.invalid .misplacedShebang,
        Place.start.skip (source.take stop ++ Text.indent (source.drop stop))⟩]) := by
  obtain ⟨passed, rest, rfl, hplace, hlast, rfl⟩ := exists_scan_of_lineEnd h
  have hends : passed.EndsLine := Or.inr hlast
  have hlength : stop = passed.length := by
    have hoffset := congrArg Place.offset hplace
    rw [Place.skip_offset, Place.skip_offset] at hoffset
    rw [hstop, hoffset]
    exact Nat.zero_add _
  rw [hlength, List.drop_left, List.take_left]
  refine ⟨?_, ?_⟩
  · intro hplain
    rw [Place.start_skip_eq_shift hends,
      scanFrom_shift _ _ Place.start.skip_nil.symm (fun _ => hplain), Scan.tokens_shift]
    rfl
  · intro hshebang
    have hne : passed ≠ [] := by
      rintro rfl
      cases hlast
    have hstart := (Place.isLineStart_start_skip passed).2 hends
    rw [scanFrom_of_misplaced hstart (Place.one_lt_line_of_isLineStart hne hstart) hshebang,
      Place.skip_append]
    rfl

end Dialect

/-- A text with two directive lines, a comment over two lines between them, and a shebang after the
second one. -/
def Text.severalLines : Text :=
  "a\n\t#one\r\nb /*\n*/ c\n#two \"x\"\n #!d\n".toList

/-- After the first directive line the tokens are those of the rest, nine characters and two lines
further on. After the second one the scan ends at the shebang. -/
theorem Dialect.tokens_after_lineEnd_twice :
    ∃ tokens, (Dialect.mk ['#'] [.block]).tokens Text.severalLines = tokens ∧
      tokens = tokens.take 3 ++ ⟨.lineEnd ['\r', '\n'], ⟨7, 2, 6⟩⟩ :: tokens.drop 4 ∧
      tokens.drop 4 = ((Dialect.mk ['#'] [.block]).tokens (Text.severalLines.drop 9)).map
        (Token.shift 9 2) ∧
      tokens = tokens.take 10 ++ ⟨.lineEnd ['\n'], ⟨27, 5, 9⟩⟩ :: tokens.drop 11 ∧
      tokens.drop 11 = [⟨.invalid .misplacedShebang, ⟨29, 6, 2⟩⟩] := by
  have hone : (Dialect.mk ['#'] [.block]).tokens Text.severalLines =
      ((Dialect.mk ['#'] [.block]).tokens Text.severalLines).take 3 ++
        ⟨.lineEnd ['\r', '\n'], ⟨7, 2, 6⟩⟩ ::
          ((Dialect.mk ['#'] [.block]).tokens Text.severalLines).drop 4 := by
    decide +kernel
  have htwo : (Dialect.mk ['#'] [.block]).tokens Text.severalLines =
      ((Dialect.mk ['#'] [.block]).tokens Text.severalLines).take 10 ++
        ⟨.lineEnd ['\n'], ⟨27, 5, 9⟩⟩ ::
          ((Dialect.mk ['#'] [.block]).tokens Text.severalLines).drop 11 := by
    decide +kernel
  refine ⟨_, rfl, hone, ?_, htwo, ?_⟩
  · exact (tokens_after_lineEnd _ _ hone rfl).1 (by decide)
  · exact (tokens_after_lineEnd _ _ htwo rfl).2 (by decide)

end Splice

import Mathlib.Logic.Function.Iterate
import Splice.Proofs.Grammar

/-!
# A scan, mode by mode

`Dialect.scanFrom` is a recursion in which each call has less text left. This module shows the same
scan as a loop: a `Scanner` is in a mode, and `Scanner.next` does what there is to do in this mode
and goes on to another one. Many of these steps go over no text at all. A trigger may be empty, so
that not even reading it goes over any, and from plain text a scanner turns to a comment or to a
directive line before it reads it.

That the loop comes to an end is a matter of the text that is left and of the mode together
(`Scanner.measure`): a step that goes over no text leads to a mode of smaller rank, and the rank can
only go up again in a step that goes over some. This holds of scanners that are in a mode with
reason (`Scanner.Fits`), and a step leads from one such scanner to another; a scanner that takes
plain text for a comment would go around in circles. The tokens are those of `Dialect.tokens`, since
no step changes the tokens that the scan is still to come to (`Scanner.output`).
-/

namespace Splice

/-- What a scanner is about to do. -/
inductive Mode where
  /-- Go over plain text, up to the next event. -/
  | text
  /-- Go over a comment. -/
  | comment
  /-- Read a trigger. -/
  | mark
  /-- Read the next word or string of a directive line, or its end. -/
  | line
  /-- Go over a shebang line. -/
  | shebang
  /-- Nothing more. -/
  | done
deriving DecidableEq

/-- A scan of a source at some point. -/
structure Scanner where
  mode : Mode
  /-- The text that was gone over. -/
  passed : Text
  /-- The text that is left. -/
  rest : Text
  /-- The tokens so far. -/
  tokens : List Token

namespace Scanner

/-- A scanner at the start of a source. -/
def start (source : Text) : Scanner :=
  ⟨.text, [], source, []⟩

/-- The place that a scanner has come to. -/
def place (scanner : Scanner) : Place :=
  Place.start.skip scanner.passed

/-- The scanner in another mode, after it went over the first part of the text that is left and came
to more tokens. -/
def advance (scanner : Scanner) (mode : Mode) (content : Text) (tokens : List Token) : Scanner :=
  ⟨mode, scanner.passed ++ content, scanner.rest.drop content.length, scanner.tokens ++ tokens⟩

/-- The scanner at the end of its source. -/
def finish (scanner : Scanner) : Scanner :=
  scanner.advance .done [] [⟨.endOfInput, scanner.place⟩]

/-- The scanner that has gone over the plain text in front of it. -/
def passText (dialect : Dialect) (scanner : Scanner) : Scanner :=
  let content := dialect.plain scanner.place.isLineStart scanner.rest
  scanner.advance .text content (if content = [] then [] else [⟨.text content, scanner.place⟩])

/-- The scanner that turns to the event in front of it. The blanks before a trigger belong to the
directive line. -/
def turn (dialect : Dialect) (scanner : Scanner) : Scanner :=
  match dialect.event? scanner.place.isLineStart scanner.rest with
  | some .directive => scanner.advance .mark scanner.rest.indent []
  | some (.comment _) => scanner.advance .comment [] []
  | none => scanner.finish

/-- One step of a scanner. -/
def next (dialect : Dialect) (scanner : Scanner) : Scanner :=
  match scanner.mode with
  | .text => (scanner.passText dialect).turn dialect
  | .comment =>
    match dialect.styles.first? scanner.rest with
    | none => scanner.advance .text [] []
    | some style =>
      let content := style.extent scanner.rest
      let after := scanner.advance .text content
        (Segment.comment scanner.place style content).tokens
      if after.rest = [] then after.finish else after
  | .mark =>
    if ['!'].isPrefixOf (scanner.rest.drop dialect.trigger.length) then
      scanner.advance .shebang [] []
    else scanner.advance .line dialect.trigger [⟨.trigger dialect.trigger, scanner.place⟩]
  | .line =>
    match Line.step scanner.place scanner.rest with
    | .token token content _ => scanner.advance .line content [token]
    | .close token content _ => scanner.advance .text content [token]
    | .fault fault place => scanner.advance .done [] [⟨.invalid fault, place⟩]
  | .shebang =>
    if scanner.place.line ≠ 1 then
      scanner.advance .done [] [⟨.invalid .misplacedShebang, scanner.place⟩]
    else scanner.advance .text (scanner.rest.through ['\n']) []
  | .done => scanner

/-! ### What is still to come -/

/-- The tokens from a place after a trigger on. -/
def lineTokens (dialect : Dialect) (place : Place) (source : Text) : List Token :=
  match Line.read place source with
  | .complete tokens content rest =>
    tokens ++ (dialect.scanFrom (place.skip content) rest).tokens
  | .broken tokens fault there => tokens ++ [⟨.invalid fault, there⟩]

/-- The tokens from the place of a shebang on. -/
def shebangTokens (dialect : Dialect) (place : Place) (source : Text) : List Token :=
  if place.line ≠ 1 then [⟨.invalid .misplacedShebang, place⟩]
  else
    (dialect.scanFrom (place.skip (source.through ['\n']))
      (source.drop (source.through ['\n']).length)).tokens

/-- The tokens from the place of a trigger on. -/
def markTokens (dialect : Dialect) (place : Place) (source : Text) : List Token :=
  if ['!'].isPrefixOf (source.drop dialect.trigger.length) then shebangTokens dialect place source
  else
    ⟨.trigger dialect.trigger, place⟩ ::
      lineTokens dialect (place.skip dialect.trigger) (source.drop dialect.trigger.length)

/-- The tokens that a scanner comes to in the end. -/
def output (dialect : Dialect) (scanner : Scanner) : List Token :=
  scanner.tokens ++
    match scanner.mode with
    | .text | .comment => (dialect.scanFrom scanner.place scanner.rest).tokens
    | .mark => markTokens dialect scanner.place scanner.rest
    | .line => lineTokens dialect scanner.place scanner.rest
    | .shebang => shebangTokens dialect scanner.place scanner.rest
    | .done => []

/-- A scanner is in its mode with reason: a comment opens in front of it, or there is the trigger
that it is about to read, with an exclamation mark after it if the line is a shebang line. -/
def Fits (dialect : Dialect) (scanner : Scanner) : Prop :=
  match scanner.mode with
  | .comment => ∃ style,
    dialect.event? scanner.place.isLineStart scanner.rest = some (.comment style)
  | .mark => dialect.trigger <+: scanner.rest
  | .shebang => dialect.trigger ++ ['!'] <+: scanner.rest
  | _ => True

/-- How much a scanner has still to do: three for each character that is left, and the rank of its
mode. -/
def measure (scanner : Scanner) : Nat :=
  match scanner.mode with
  | .text => 3 * scanner.rest.length + 3
  | .comment | .mark => 3 * scanner.rest.length + 2
  | .line | .shebang => 3 * scanner.rest.length + 1
  | .done => 0

/-- What a step does: it leads to a scanner that is in its mode with reason and has less to do, and
the tokens that are still to come stay the same. -/
structure Progress (dialect : Dialect) (scanner after : Scanner) : Prop where
  fits : after.Fits dialect
  measure_lt : after.measure < scanner.measure
  output_eq : after.output dialect = scanner.output dialect

section Advance

variable (scanner : Scanner) (mode : Mode) (content : Text) (tokens : List Token)

@[simp] lemma advance_mode : (scanner.advance mode content tokens).mode = mode := rfl

@[simp] lemma advance_rest :
    (scanner.advance mode content tokens).rest = scanner.rest.drop content.length := rfl

@[simp] lemma advance_tokens :
    (scanner.advance mode content tokens).tokens = scanner.tokens ++ tokens := rfl

/-- Going over text leads to the place after it. -/
@[simp] lemma advance_place :
    (scanner.advance mode content tokens).place = scanner.place.skip content :=
  Place.skip_append Place.start scanner.passed content

end Advance

/-! ### One step -/

variable {dialect : Dialect} {scanner : Scanner}

/-- At the end of a source the scan is complete. -/
lemma tokens_scanFrom_nil (dialect : Dialect) (place : Place) :
    (dialect.scanFrom place []).tokens = [⟨.endOfInput, place⟩] := by
  have hstep : dialect.step place [] = .ending (.complete place) := rfl
  rw [Dialect.scanFrom_eq_ending hstep]
  rfl

/-- The tokens of a scan that starts with a segment. -/
lemma tokens_scanFrom_cons {place : Place} {source rest : Text} {segment : Segment}
    (h : dialect.step place source = .segment segment rest) :
    (dialect.scanFrom place source).tokens =
      segment.tokens ++ (dialect.scanFrom (place.skip segment.content) rest).tokens := by
  rw [Dialect.scanFrom_eq_cons h, Scan.tokens_cons]

/-- Plain text that is not empty is the first segment of a scan. -/
lemma step_of_plain_ne_nil {place : Place} {source : Text}
    (h : dialect.plain place.isLineStart source ≠ []) :
    dialect.step place source =
      .segment (.text place (dialect.plain place.isLineStart source))
        (source.drop (dialect.plain place.isLineStart source).length) := by
  cases source with
  | nil => exact absurd rfl h
  | cons c s =>
    have hevent : dialect.event? place.isLineStart (c :: s) = none := by
      by_contra hsome
      refine h ?_
      rw [Dialect.plain, if_neg]
      simpa using hsome
    rw [Dialect.step, hevent]

/-- Going over plain text leaves the tokens as they are: its own token comes first in the scan. -/
lemma output_passText (dialect : Dialect) (hmode : scanner.mode = .text) :
    (scanner.passText dialect).output dialect = scanner.output dialect := by
  unfold passText output
  simp only [advance_mode, advance_rest, advance_tokens, advance_place, hmode]
  split
  · rename_i hnil
    rw [hnil]
    simp
  · rename_i hne
    rw [tokens_scanFrom_cons (step_of_plain_ne_nil hne), List.append_assoc]
    rfl

/-- After plain text there is an event, or else the source is at its end. -/
lemma rest_of_event?_eq_none
    (h : dialect.event? (scanner.passText dialect).place.isLineStart
      (scanner.passText dialect).rest = none) : (scanner.passText dialect).rest = [] := by
  unfold passText at h ⊢
  simp only [advance_rest, advance_place] at h ⊢
  rcases dialect.plain_eq_or_event scanner.place.isLineStart scanner.rest with hall | hsome
  · rw [hall, List.drop_length]
  · exfalso
    by_cases hnil : dialect.plain scanner.place.isLineStart scanner.rest = []
    · rw [hnil] at h hsome
      rw [Place.skip_nil] at h
      have hcontra : (none : Option Event).isSome = true := h ▸ hsome
      cases hcontra
    · rw [← Dialect.isLineStart_of_ne_nil scanner.passed hnil] at hsome
      rw [place, ← Place.skip_append] at h
      rw [place] at hsome
      rw [h] at hsome
      cases hsome

/-- The tokens of a line that is read to its end, and those after it. -/
lemma lineTokens_of_complete {place : Place} {source content rest : Text} {tokens : List Token}
    (h : Line.read place source = .complete tokens content rest) :
    lineTokens dialect place source =
      tokens ++ (dialect.scanFrom (place.skip content) rest).tokens := by
  rw [lineTokens, h]

/-- The tokens of a line that cannot be read to its end. -/
lemma lineTokens_of_broken {place there : Place} {source : Text} {tokens : List Token}
    {fault : LexicalFault} (h : Line.read place source = .broken tokens fault there) :
    lineTokens dialect place source = tokens ++ [⟨.invalid fault, there⟩] := by
  rw [lineTokens, h]

/-- The tokens of a scan that starts with a directive line are those from its trigger on. -/
lemma tokens_scanFrom_directive {place : Place} {source : Text}
    (h : dialect.event? place.isLineStart source = some .directive) :
    (dialect.scanFrom place source).tokens =
      markTokens dialect (place.skip source.indent) source.unindent := by
  have hstep : dialect.step place source = dialect.directive place source := by
    unfold Dialect.step
    rw [h]
  unfold Dialect.directive at hstep
  unfold markTokens
  simp only at hstep
  split at hstep
  · rename_i hbang
    rw [if_pos hbang, shebangTokens]
    split at hstep
    · rename_i hline
      rw [if_pos hline, Dialect.scanFrom_eq_ending hstep]
      rfl
    · rename_i hline
      rw [if_neg hline, tokens_scanFrom_cons hstep, ← Place.skip_append]
      rfl
  · rename_i hbang
    rw [if_neg hbang]
    split at hstep
    · rename_i tokens content rest hread
      rw [tokens_scanFrom_cons hstep, lineTokens_of_complete hread]
      simp only [Segment.tokens, Segment.content, List.cons_append, Place.skip_append]
    · rename_i tokens fault there hread
      rw [Dialect.scanFrom_eq_ending hstep, lineTokens_of_broken hread]
      rfl

/-- A scanner at the end of its source has come to all tokens. -/
lemma output_finish (dialect : Dialect) (hmode : scanner.mode = .text) (hrest : scanner.rest = []) :
    scanner.finish.output dialect = scanner.output dialect := by
  unfold finish output
  simp only [advance_mode, advance_tokens, hmode, hrest, tokens_scanFrom_nil, List.append_nil]

/-- Turning to an event goes over blanks at most, and leads to a mode of smaller rank. -/
lemma progress_turn (hmode : scanner.mode = .text)
    (hend : dialect.event? scanner.place.isLineStart scanner.rest = none → scanner.rest = []) :
    Progress dialect scanner (scanner.turn dialect) := by
  unfold turn
  split
  · rename_i hevent
    have hunindent := Text.drop_length_indent scanner.rest
    refine ⟨?_, ?_, ?_⟩
    · have htrigger := (Dialect.event?_eq_directive hevent).2
      simp only [Fits, advance_mode, advance_rest, hunindent]
      exact htrigger
    · simp only [measure, advance_mode, advance_rest, hmode, List.length_drop]
      omega
    · simp only [output, advance_mode, advance_rest, advance_tokens, advance_place, hmode,
        hunindent, List.append_nil]
      rw [tokens_scanFrom_directive hevent]
  · rename_i style hevent
    refine ⟨?_, ?_, ?_⟩
    · refine ⟨style, ?_⟩
      rw [advance_place, Place.skip_nil]
      exact hevent
    · simp only [measure, advance_mode, advance_rest, hmode, List.length_nil, List.drop_zero]
      omega
    · simp only [output, advance_mode, advance_rest, advance_tokens, advance_place, hmode,
        Place.skip_nil, List.length_nil, List.drop_zero, List.append_nil]
  · rename_i hevent
    refine ⟨trivial, ?_, output_finish dialect hmode (hend hevent)⟩
    simp only [measure, finish, advance_mode, hmode]
    omega

/-- Plain text: the scanner goes over it and turns to the event after it. -/
lemma progress_text (dialect : Dialect) (hmode : scanner.mode = .text) :
    Progress dialect scanner ((scanner.passText dialect).turn dialect) := by
  have htext : (scanner.passText dialect).mode = .text := rfl
  have hturn : Progress dialect (scanner.passText dialect)
      ((scanner.passText dialect).turn dialect) := progress_turn htext rest_of_event?_eq_none
  have hmeasure : (scanner.passText dialect).measure ≤ scanner.measure := by
    simp only [measure, passText, advance_mode, advance_rest, hmode, List.length_drop]
    omega
  exact ⟨hturn.fits, hturn.measure_lt.trans_le hmeasure,
    hturn.output_eq.trans (output_passText dialect hmode)⟩

/-- A scanner that is to go over a comment with reason has a style that opens in front of it. -/
lemma Fits.exists_first? (hfits : scanner.Fits dialect) (hmode : scanner.mode = .comment) :
    ∃ style, dialect.event? scanner.place.isLineStart scanner.rest = some (.comment style) ∧
      dialect.styles.first? scanner.rest = some style := by
  obtain ⟨style, hevent⟩ : ∃ style,
      dialect.event? scanner.place.isLineStart scanner.rest = some (.comment style) := by
    simpa [Fits, hmode] using hfits
  exact ⟨style, hevent, Dialect.event?_eq_comment hevent⟩

/-- A comment: the scanner goes over it, at least over one character. -/
lemma progress_comment (hmode : scanner.mode = .comment) (hfits : scanner.Fits dialect) :
    Progress dialect scanner (scanner.next dialect) := by
  obtain ⟨style, hevent, hfirst⟩ := hfits.exists_first? hmode
  have hstep : dialect.step scanner.place scanner.rest =
      .segment (.comment scanner.place style (style.extent scanner.rest))
        (scanner.rest.drop (style.extent scanner.rest).length) := by
    unfold Dialect.step
    rw [hevent]
  have hlength : 0 < (style.extent scanner.rest).length ∧
      (style.extent scanner.rest).length ≤ scanner.rest.length := by
    obtain ⟨hcontent, hne⟩ := Dialect.step_eq_segment hstep
    refine ⟨List.length_pos_iff.2 hne, ?_⟩
    rw [← congrArg List.length hcontent, List.length_append]
    exact Nat.le_add_right _ _
  have houtput : (scanner.advance .text (style.extent scanner.rest)
      (Segment.comment scanner.place style (style.extent scanner.rest)).tokens).output dialect =
        scanner.output dialect := by
    simp only [output, advance_mode, advance_rest, advance_tokens, advance_place, hmode]
    rw [tokens_scanFrom_cons hstep, List.append_assoc]
    rfl
  rw [next, hmode]
  simp only [hfirst]
  split
  · rename_i hrest
    refine ⟨trivial, ?_, (output_finish dialect rfl hrest).trans houtput⟩
    simp only [measure, finish, advance_mode, hmode]
    omega
  · refine ⟨trivial, ?_, houtput⟩
    simp only [measure, advance_mode, advance_rest, hmode, List.length_drop]
    omega

/-- A trigger: what follows it decides how the scanner goes on. An empty trigger goes over no
text. -/
lemma progress_mark (hmode : scanner.mode = .mark) (hfits : scanner.Fits dialect) :
    Progress dialect scanner (scanner.next dialect) := by
  have htrigger : dialect.trigger <+: scanner.rest := by
    simpa [Fits, hmode] using hfits
  rw [next, hmode]
  simp only
  split
  · rename_i hbang
    refine ⟨?_, ?_, ?_⟩
    · obtain ⟨after, hafter⟩ := htrigger
      simp only [Fits, advance_mode, advance_rest, List.length_nil, List.drop_zero]
      rw [← hafter, List.drop_left] at hbang
      rw [← hafter]
      exact (List.prefix_append_right_inj _).2 (List.isPrefixOf_iff_prefix.1 hbang)
    · simp only [measure, advance_mode, advance_rest, hmode, List.length_nil, List.drop_zero]
      omega
    · simp only [output, advance_mode, advance_rest, advance_tokens, advance_place, hmode,
        Place.skip_nil, List.length_nil, List.drop_zero, List.append_nil]
      rw [markTokens, if_pos hbang]
  · rename_i hbang
    refine ⟨trivial, ?_, ?_⟩
    · simp only [measure, advance_mode, advance_rest, hmode, List.length_drop]
      omega
    · simp only [output, advance_mode, advance_rest, advance_tokens, advance_place, hmode]
      rw [markTokens, if_neg hbang, List.append_assoc]
      rfl

/-- A shebang line: the scanner goes over it if it is the first line, at least over one
character. -/
lemma progress_shebang (hmode : scanner.mode = .shebang) (hfits : scanner.Fits dialect) :
    Progress dialect scanner (scanner.next dialect) := by
  have hmark : dialect.trigger ++ ['!'] <+: scanner.rest := by
    simpa [Fits, hmode] using hfits
  have hne : scanner.rest ≠ [] := by
    intro hnil
    rw [hnil, List.prefix_nil] at hmark
    simp at hmark
  have hpos := List.length_pos_iff.2 hne
  have hline := List.length_pos_iff.2 (Text.through_ne_nil (List.cons_ne_nil '\n' []) hne)
  rw [next, hmode]
  simp only
  split
  · rename_i hlater
    refine ⟨trivial, ?_, ?_⟩
    · simp only [measure, advance_mode, hmode]
      omega
    · simp only [output, advance_mode, advance_tokens, hmode, shebangTokens, if_pos hlater,
        List.append_nil]
  · rename_i hfirst
    refine ⟨trivial, ?_, ?_⟩
    · simp only [measure, advance_mode, advance_rest, hmode, List.length_drop]
      omega
    · simp only [output, advance_mode, advance_rest, advance_tokens, advance_place, hmode,
        shebangTokens, if_neg hfirst, List.append_nil]

/-- The tokens of a line that goes on with a word or string. -/
lemma lineTokens_of_token {place : Place} {source : Text} {token : Token} {content rest : Text}
    (h : Line.step place source = .token token content rest) :
    lineTokens dialect place source =
      token :: lineTokens dialect (place.skip content) rest := by
  have hread := Line.read_of_token h
  cases hlater : Line.read (place.skip content) rest with
  | complete tokens more after =>
    rw [hlater] at hread
    rw [lineTokens_of_complete hread, lineTokens_of_complete hlater, Place.skip_append]
    rfl
  | broken tokens fault there =>
    rw [hlater] at hread
    rw [lineTokens_of_broken hread, lineTokens_of_broken hlater]
    rfl

/-- The tokens of a line that is at its end. -/
lemma lineTokens_of_close {place : Place} {source : Text} {token : Token} {content rest : Text}
    (h : Line.step place source = .close token content rest) :
    lineTokens dialect place source =
      token :: (dialect.scanFrom (place.skip content) rest).tokens :=
  lineTokens_of_complete (Line.read_of_close h)

/-- The tokens of a line that cannot be read on. -/
lemma lineTokens_of_fault {place there : Place} {source : Text} {fault : LexicalFault}
    (h : Line.step place source = .fault fault there) :
    lineTokens dialect place source = [⟨.invalid fault, there⟩] := by
  have hread : Line.read place source = .broken [] fault there := by
    rw [Line.read]
    split
    all_goals
      rename_i hstep
      rw [h] at hstep
      cases hstep
    rfl
  exact lineTokens_of_broken hread

/-- A directive line: the scanner reads what comes next on it, and goes over at least one character
unless the line cannot be read on. -/
lemma progress_line (hmode : scanner.mode = .line) :
    Progress dialect scanner (scanner.next dialect) := by
  have hover {content rest : Text} (h : content ++ rest = scanner.rest ∧ content ≠ []) :
      scanner.rest.drop content.length = rest ∧ rest.length < scanner.rest.length := by
    obtain ⟨hsplit, hne⟩ := h
    have hpos := List.length_pos_iff.2 hne
    rw [← hsplit, List.drop_left, List.length_append]
    exact ⟨rfl, by omega⟩
  rw [next, hmode]
  simp only
  split
  · rename_i token content rest hstep
    obtain ⟨hdrop, hlength⟩ := hover (Line.step_eq_token hstep)
    refine ⟨trivial, ?_, ?_⟩
    · simp only [measure, advance_mode, advance_rest, hmode, hdrop]
      omega
    · simp only [output, advance_mode, advance_rest, advance_tokens, advance_place, hmode, hdrop]
      rw [lineTokens_of_token hstep, List.append_assoc]
      rfl
  · rename_i token content rest hstep
    obtain ⟨hdrop, hlength⟩ := hover (Line.step_eq_close hstep)
    refine ⟨trivial, ?_, ?_⟩
    · simp only [measure, advance_mode, advance_rest, hmode, hdrop]
      omega
    · simp only [output, advance_mode, advance_rest, advance_tokens, advance_place, hmode, hdrop]
      rw [lineTokens_of_close hstep, List.append_assoc]
      rfl
  · rename_i fault there hstep
    refine ⟨trivial, ?_, ?_⟩
    · simp only [measure, advance_mode, hmode]
      omega
    · simp only [output, advance_mode, advance_tokens, hmode, List.append_nil]
      rw [lineTokens_of_fault hstep]

/-- Every step of a scanner that is in its mode with reason makes progress, until there is nothing
more to do. -/
lemma progress_next (hfits : scanner.Fits dialect) (hmode : scanner.mode ≠ .done) :
    Progress dialect scanner (scanner.next dialect) := by
  cases h : scanner.mode with
  | text =>
    rw [next, h]
    exact progress_text dialect h
  | comment => exact progress_comment h hfits
  | mark => exact progress_mark h hfits
  | line => exact progress_line h
  | shebang => exact progress_shebang h hfits
  | done => exact absurd h hmode

/-! ### All steps -/

/-- A step leads to a scanner that is in its mode with reason. -/
lemma Fits.next (hfits : scanner.Fits dialect) : (scanner.next dialect).Fits dialect := by
  by_cases hmode : scanner.mode = .done
  · rw [Scanner.next, hmode]
    exact hfits
  · exact (progress_next hfits hmode).fits

/-- So does any number of steps from the start of a source. -/
lemma fits_iterate (dialect : Dialect) (source : Text) (n : Nat) :
    ((next dialect)^[n] (start source)).Fits dialect := by
  induction n with
  | zero => trivial
  | succ n ih =>
    rw [Function.iterate_succ_apply']
    exact ih.next

/-- A scanner never turns to a comment where no style opens. -/
lemma exists_first?_of_comment {source : Text} {n : Nat}
    (hmode : ((next dialect)^[n] (start source)).mode = .comment) :
    ∃ style, dialect.styles.first? ((next dialect)^[n] (start source)).rest = some style := by
  obtain ⟨style, -, hfirst⟩ := (fits_iterate dialect source n).exists_first? hmode
  exact ⟨style, hfirst⟩

/-- The steps of a scanner come to an end, after no more of them than it has to do, and then its
tokens are those that it was to come to. The induction is on what it has to do. -/
lemma exists_done (hfits : scanner.Fits dialect) :
    ∃ n ≤ scanner.measure, ((next dialect)^[n] scanner).mode = .done ∧
      ((next dialect)^[n] scanner).tokens = scanner.output dialect := by
  induction hsize : scanner.measure using Nat.strong_induction_on generalizing scanner with
  | _ size ih =>
    by_cases hmode : scanner.mode = .done
    · refine ⟨0, Nat.zero_le _, hmode, ?_⟩
      have houtput : scanner.output dialect = scanner.tokens ++ [] := by
        rw [output, hmode]
      rw [houtput, List.append_nil]
      rfl
    · have hprogress := progress_next hfits hmode
      obtain ⟨n, hn, hdone, htokens⟩ :=
        ih _ (hsize ▸ hprogress.measure_lt) hprogress.fits rfl
      refine ⟨n + 1, ?_, hdone, htokens.trans hprogress.output_eq⟩
      have hless := hprogress.measure_lt
      omega

/-- A scanner at the start of a source comes to the tokens of the source, whatever the trigger and
the comment styles are. -/
lemma exists_done_start (dialect : Dialect) (source : Text) :
    ∃ n ≤ 3 * source.length + 3, ((next dialect)^[n] (start source)).mode = .done ∧
      ((next dialect)^[n] (start source)).tokens = dialect.tokens source := by
  have hfits : (start source).Fits dialect := trivial
  exact exists_done hfits

/-- With an empty trigger every line is a directive line, and reading the trigger goes over no
text. -/
example :
    ((next ⟨[], []⟩)^[5] (start "a\n".toList)).tokens =
      [⟨.trigger [], ⟨0, 1, 1⟩⟩, ⟨.word ['a'], ⟨0, 1, 1⟩⟩, ⟨.lineEnd ['\n'], ⟨1, 1, 2⟩⟩,
        ⟨.endOfInput, ⟨2, 2, 1⟩⟩] := by
  decide +kernel

end Scanner

end Splice

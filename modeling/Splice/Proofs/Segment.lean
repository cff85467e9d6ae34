import Splice.Proofs.Line
import Splice.Segment

/-!
# The segments of a scan

`Dialect.scanFrom` is a loop over `Dialect.step`. The first part of this module says what one step
cuts off, one lemma for each kind of segment. The second part says what the loop does: each segment
of a scan is the one step that is taken at its place (`Dialect.exists_step_of_segments_eq`), and the
scan ends with the step that is taken after all segments (`Dialect.exists_step_ending`). Whatever
holds of the segments of a scan follows from these two and from what one step cuts off.
-/

namespace Splice

/-- The first run of blanks of a text holds blanks only. -/
lemma Text.isBlank_of_mem_indent {s : Text} {c : Char} (h : c ∈ s.indent) :
    Text.isBlank c = true :=
  List.mem_takeWhile_imp h

/-- What is left of a text after the run of blanks at its start. -/
lemma Text.drop_length_indent (s : Text) : s.drop s.indent.length = s.unindent := by
  have hdrop : (s.indent ++ s.unindent).drop s.indent.length = s.unindent := List.drop_left
  rwa [Text.indent_append_unindent] at hdrop

/-- The tokens of a segment come before those of the scan after it. -/
lemma Scan.tokens_cons (segment : Segment) (scan : Scan) :
    (scan.cons segment).tokens = segment.tokens ++ scan.tokens := by
  simp [Scan.tokens, Scan.cons]

namespace Dialect

variable {dialect : Dialect} {place : Place} {source rest : Text}

/-! ### What one step cuts off -/

/-- The ways in which a step of a scan can go, with what it finds at its place. A trigger after the
blanks at the start of a line goes before a comment, and an exclamation mark after the trigger makes
the line a shebang line. -/
inductive Cuts (dialect : Dialect) (place : Place) (source : Text) : Step → Prop where
  /-- Plain text up to the next event. -/
  | text (hevent : dialect.event? place.isLineStart source = none) (hsource : source ≠ []) :
    Cuts dialect place source
      (.segment (.text place (dialect.plain place.isLineStart source))
        (source.drop (dialect.plain place.isLineStart source).length))
  /-- A comment. -/
  | comment (style : CommentStyle)
    (hevent : dialect.event? place.isLineStart source = some (.comment style)) :
    Cuts dialect place source
      (.segment (.comment place style (style.extent source))
        (source.drop (style.extent source).length))
  /-- A directive line. -/
  | directive (after : Text) (tokens : List Token) (content rest : Text)
    (hstart : place.isLineStart = true) (hafter : source.unindent = dialect.trigger ++ after)
    (hread : Line.read ((place.skip source.indent).skip dialect.trigger) after =
      .complete tokens content rest) :
    Cuts dialect place source
      (.segment (.directive place (source.indent ++ dialect.trigger ++ content)
        (⟨.trigger dialect.trigger, place.skip source.indent⟩ :: tokens)) rest)
  /-- A shebang line. -/
  | shebang (after : Text)
    (hstart : place.isLineStart = true) (hfirst : (place.skip source.indent).line = 1)
    (hafter : source.unindent = dialect.trigger ++ '!' :: after) :
    Cuts dialect place source
      (.segment (.shebang place (source.indent ++ source.unindent.through ['\n']))
        (source.unindent.drop (source.unindent.through ['\n']).length))
  /-- The end of the source. -/
  | complete (hsource : source = []) : Cuts dialect place source (.ending (.complete place))
  /-- A shebang on another line than the first. -/
  | misplaced (after : Text) (hstart : place.isLineStart = true)
    (hafter : source.unindent = dialect.trigger ++ '!' :: after) :
    Cuts dialect place source
      (.ending (.broken [] .misplacedShebang (place.skip source.indent)))
  /-- A directive line that cannot be read to its end. -/
  | broken (after : Text) (tokens : List Token) (fault : LexicalFault) (there : Place)
    (hstart : place.isLineStart = true) (hafter : source.unindent = dialect.trigger ++ after)
    (hread : Line.read ((place.skip source.indent).skip dialect.trigger) after =
      .broken tokens fault there) :
    Cuts dialect place source
      (.ending (.broken (⟨.trigger dialect.trigger, place.skip source.indent⟩ :: tokens) fault
        there))

/-- A step at a trigger goes in one of the ways for directive lines. -/
lemma cuts_directive (hstart : place.isLineStart = true)
    (htrigger : dialect.trigger <+: source.unindent) :
    dialect.Cuts place source (dialect.directive place source) := by
  obtain ⟨after, hafter⟩ := htrigger
  have hdrop : source.unindent.drop dialect.trigger.length = after := by
    rw [← hafter, List.drop_left]
  simp only [directive, hdrop]
  split
  · rename_i hbang
    obtain ⟨tail, rfl⟩ : ∃ tail, after = '!' :: tail := by
      obtain ⟨tail, htail⟩ := List.isPrefixOf_iff_prefix.1 hbang
      exact ⟨tail, htail.symm⟩
    split
    · exact .misplaced tail hstart hafter.symm
    · rename_i hfirst
      exact .shebang tail hstart (not_not.1 hfirst) hafter.symm
  · split
    · rename_i hread
      exact .directive after _ _ _ hstart hafter.symm hread
    · rename_i hread
      exact .broken after _ _ _ hstart hafter.symm hread

/-- Every step of a scan goes in one of these ways. -/
lemma cuts_step (dialect : Dialect) (place : Place) (source : Text) :
    dialect.Cuts place source (dialect.step place source) := by
  unfold step
  split
  · rename_i hevent
    obtain ⟨hstart, htrigger⟩ := event?_eq_directive hevent
    exact cuts_directive hstart htrigger
  · rename_i style hevent
    exact .comment style hevent
  · rename_i hevent
    split
    · exact .complete rfl
    · exact .text hevent (List.cons_ne_nil _ _)

/-- A segment starts at the place of its step. -/
lemma start_of_step {segment : Segment} (h : dialect.step place source = .segment segment rest) :
    segment.start = place := by
  have hcuts := dialect.cuts_step place source
  rw [h] at hcuts
  cases hcuts <;> rfl

/-- A step that cuts off a comment takes the first style that opens there, and all of the comment
that this style makes of the source. -/
lemma step_comment {p : Place} {style : CommentStyle} {content : Text}
    (h : dialect.step place source = .segment (.comment p style content) rest) :
    dialect.styles.first? source = some style ∧ content = style.extent source := by
  have hcuts := dialect.cuts_step place source
  rw [h] at hcuts
  cases hcuts with
  | comment _ hevent => exact ⟨event?_eq_comment hevent, rfl⟩

/-- A step that cuts off a directive line cuts off blanks at the start of a line, the trigger, text
on the same line and a line end. Its tokens are that of the trigger, those of the words and strings,
and that of the line end. -/
lemma step_directive {p : Place} {content : Text} {tokens : List Token}
    (h : dialect.step place source = .segment (.directive p content tokens) rest) :
    place.isLineStart = true ∧ ∃ blanks body mark arguments,
      (∀ c ∈ blanks, Text.isBlank c = true) ∧ '\n' ∉ body ∧ Line.IsLineEnd mark ∧
      content = blanks ++ dialect.trigger ++ body ++ mark ∧
      tokens = ⟨.trigger dialect.trigger, place.skip blanks⟩ :: arguments ++
        [⟨.lineEnd mark, place.skip (blanks ++ dialect.trigger ++ body)⟩] ∧
      Line.Arguments (place.skip (blanks ++ dialect.trigger)) body arguments := by
  have hcuts := dialect.cuts_step place source
  rw [h] at hcuts
  cases hcuts with
  | directive after ts c _ hstart _ hread =>
    obtain ⟨arguments, body, mark, rfl, hbody, hmark, rfl, harguments⟩ := Line.read_complete hread
    rw [← Place.skip_append] at harguments
    refine ⟨hstart, source.indent, body, mark, arguments, ?_, hbody, hmark, ?_, ?_, harguments⟩
    · intro c hc
      exact Text.isBlank_of_mem_indent hc
    · simp only [List.append_assoc]
    · rw [Place.skip_append, Place.skip_append]
      rfl

/-- A step that cuts off a shebang line stands at the start of the first line, at blanks and then
the trigger and an exclamation mark, and cuts off the rest of that line with its line end. -/
lemma step_shebang {p : Place} {content : Text}
    (h : dialect.step place source = .segment (.shebang p content) rest) :
    place.isLineStart = true ∧ place.line = 1 ∧ ∃ blanks after,
      (∀ c ∈ blanks, Text.isBlank c = true) ∧
      source = blanks ++ (dialect.trigger ++ '!' :: after) ∧
      content = blanks ++ (dialect.trigger ++ '!' :: after).through ['\n'] := by
  have hcuts := dialect.cuts_step place source
  rw [h] at hcuts
  cases hcuts with
  | shebang after hstart hfirst hafter =>
    have hblanks : Text.newlines source.indent = 0 :=
      List.count_eq_zero.2 (Text.newline_notMem_indent source)
    refine ⟨hstart, ?_, source.indent, after, ?_, ?_, ?_⟩
    · simpa [Place.skip, hblanks] using hfirst
    · intro c hc
      exact Text.isBlank_of_mem_indent hc
    · rw [← hafter, Text.indent_append_unindent]
    · rw [hafter]

/-- A step that ends a scan completely stands at the end of the source. -/
lemma step_complete {p : Place} (h : dialect.step place source = .ending (.complete p)) :
    source = [] ∧ p = place := by
  have hcuts := dialect.cuts_step place source
  rw [h] at hcuts
  cases hcuts with
  | complete hsource => exact ⟨hsource, rfl⟩

/-- A step that ends a scan at a fault has read no more than a trigger and words and strings. -/
lemma step_broken {there : Place} {tokens : List Token} {fault : LexicalFault}
    (h : dialect.step place source = .ending (.broken tokens fault there)) :
    tokens = [] ∨ ∃ arguments, (∀ token ∈ arguments, token.isArgument = true) ∧
      tokens = ⟨.trigger dialect.trigger, place.skip source.indent⟩ :: arguments := by
  have hcuts := dialect.cuts_step place source
  rw [h] at hcuts
  cases hcuts with
  | misplaced => exact Or.inl rfl
  | broken _ ts _ _ _ _ hread => exact Or.inr ⟨ts, Line.read_broken hread, rfl⟩

/-- The tokens of a directive line are not kept. -/
lemma isKept_of_mem_directive {p : Place} {content : Text} {tokens : List Token} {token : Token}
    (h : dialect.step place source = .segment (.directive p content tokens) rest)
    (htoken : token ∈ tokens) : token.isKept = false := by
  obtain ⟨-, blanks, body, mark, arguments, -, -, -, -, rfl, harguments⟩ := step_directive h
  simp only [List.cons_append, List.mem_cons, List.mem_append, List.not_mem_nil, or_false] at htoken
  rcases htoken with rfl | htoken | rfl
  · exact Token.isKept_trigger _ _
  · exact Token.isKept_of_isArgument (harguments token htoken).1
  · exact Token.isKept_lineEnd _ _

/-! ### What the loop does -/

/-- A scan whose first step cuts off a segment goes on with the rest. -/
lemma scanFrom_eq_cons {segment : Segment} (h : dialect.step place source = .segment segment rest) :
    dialect.scanFrom place source =
      (dialect.scanFrom (place.skip segment.content) rest).cons segment := by
  rw [scanFrom]
  split
  · rename_i hstep
    rw [h] at hstep
    cases hstep
    rfl
  · rename_i hstep
    rw [h] at hstep
    cases hstep

/-- A scan whose first step ends it has no segments. -/
lemma scanFrom_eq_ending {ending : Ending} (h : dialect.step place source = .ending ending) :
    dialect.scanFrom place source = ⟨[], ending⟩ := by
  rw [scanFrom]
  split
  · rename_i hstep
    rw [h] at hstep
    cases hstep
  · rename_i hstep
    rw [h] at hstep
    cases hstep
    rfl

/-- A segment of a scan is the one step that is taken at its place; what comes after it is a scan of
the rest. The induction is on the steps of the scan, and the segments before go with them. -/
lemma exists_step_of_segments_eq {earlier later : List Segment} {segment : Segment}
    (h : (dialect.scanFrom place source).segments = earlier ++ segment :: later) :
    ∃ rest, earlier.flatMap Segment.content ++ (segment.content ++ rest) = source ∧
      dialect.step (place.skip (earlier.flatMap Segment.content)) (segment.content ++ rest) =
        .segment segment rest := by
  fun_induction scanFrom dialect place source generalizing earlier with
  | case1 place source first left hstep ih =>
    have hcontent := (step_eq_segment hstep).1
    cases earlier with
    | nil =>
      obtain ⟨rfl, -⟩ := List.cons.inj h
      refine ⟨left, hcontent, ?_⟩
      rw [List.flatMap_nil, Place.skip_nil, hcontent, hstep]
    | cons first' earlier =>
      obtain ⟨rfl, htail⟩ := List.cons.inj h
      obtain ⟨rest, hrest, hsegment⟩ := ih htail
      refine ⟨rest, ?_, ?_⟩
      · rw [List.flatMap_cons, List.append_assoc, hrest, hcontent]
      · rw [List.flatMap_cons, Place.skip_append, hsegment]
  | case2 place source ending hstep => simp at h

/-- A segment of a scan is cut off by some step. -/
lemma exists_step_of_mem {segment : Segment}
    (h : segment ∈ (dialect.scanFrom place source).segments) :
    ∃ here text rest, dialect.step here text = .segment segment rest := by
  obtain ⟨earlier, later, hsplit⟩ := List.append_of_mem h
  obtain ⟨rest, -, hstep⟩ := exists_step_of_segments_eq hsplit
  exact ⟨_, _, rest, hstep⟩

/-- A scan ends with the step that is taken after all of its segments. -/
lemma exists_step_ending (dialect : Dialect) (place : Place) (source : Text) :
    ∃ rest, (dialect.scanFrom place source).segments.flatMap Segment.content ++ rest = source ∧
      dialect.step
          (place.skip ((dialect.scanFrom place source).segments.flatMap Segment.content)) rest =
        .ending (dialect.scanFrom place source).ending := by
  fun_induction scanFrom dialect place source with
  | case1 place source first left hstep ih =>
    obtain ⟨rest, hrest, hending⟩ := ih
    refine ⟨rest, ?_, ?_⟩
    · rw [Scan.cons, List.flatMap_cons, List.append_assoc, hrest, (step_eq_segment hstep).1]
    · rw [Scan.cons, List.flatMap_cons, Place.skip_append, hending]
  | case2 place source ending hstep => exact ⟨source, rfl, by simpa using hstep⟩

/-- The end of a scan has no kept tokens. -/
lemma isKept_of_mem_ending {token : Token}
    (htoken : token ∈ (dialect.scanFrom place source).ending.tokens) : token.isKept = false := by
  obtain ⟨rest, -, hstep⟩ := dialect.exists_step_ending place source
  cases hending : (dialect.scanFrom place source).ending with
  | complete p =>
    rw [hending, Ending.tokens, List.mem_singleton] at htoken
    rw [htoken, Token.isKept_endOfInput]
  | broken tokens fault there =>
    rw [hending] at hstep htoken
    rcases List.mem_append.1 htoken with htoken | htoken
    · rcases step_broken hstep with rfl | ⟨arguments, harguments, rfl⟩
      · simp at htoken
      · rcases List.mem_cons.1 htoken with rfl | htoken
        · exact Token.isKept_trigger _ _
        · exact Token.isKept_of_isArgument (harguments token htoken)
    · rw [List.mem_singleton.1 htoken]
      rfl

end Dialect

end Splice

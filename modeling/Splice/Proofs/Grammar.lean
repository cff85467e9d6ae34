import Splice.Proofs.Item

/-!
# The grammar of tokens

The tokens of a source follow a grammar, whatever the trigger and the comment styles are: plain
texts, comments and whole directive lines, up to the end of the input or to a point at which a
directive line cannot be read on (`Token.Stream`). Plain text stops at an event, so that two texts
in a row have a stripped comment between them (`Dialect.exists_stripped_between`), and a comment is
always one of the first style that opens at its place (`Dialect.first?_of_mem_segments`).
-/

namespace Splice

/-! ### Tokens -/

/-- The tokens of a source that can be scanned to its end, or up to a point that cannot be read. -/
inductive Token.Stream : List Token → Prop where
  /-- The end of the source. -/
  | complete (place : Place) : Stream [⟨.endOfInput, place⟩]
  /-- A shebang on another line than the first. -/
  | misplaced (place : Place) : Stream [⟨.invalid .misplacedShebang, place⟩]
  /-- A directive line that cannot be read to its end: the trigger, and the words and strings before
  the fault. -/
  | broken {arguments : List Token} {fault : LexicalFault} (mark : Text) (start place : Place)
    (harguments : ∀ token ∈ arguments, token.isArgument = true)
    (hmisplaced : fault ≠ .misplacedShebang) (hend : fault ≠ .missingEnd) :
    Stream (⟨.trigger mark, start⟩ :: (arguments ++ [⟨.invalid fault, place⟩]))
  /-- Plain text, which is not empty, and more tokens. -/
  | text {content : Text} {rest : List Token} (place : Place) (hcontent : content ≠ [])
    (hrest : Stream rest) : Stream (⟨.text content, place⟩ :: rest)
  /-- A comment, which is not empty, and more tokens. -/
  | comment {content : Text} {rest : List Token} (place : Place) (hcontent : content ≠ [])
    (hrest : Stream rest) : Stream (⟨.comment content, place⟩ :: rest)
  /-- A whole directive line, and more tokens. -/
  | line {tokens rest : List Token} (hline : Line.IsWhole tokens) (hrest : Stream rest) :
    Stream (tokens ++ rest)

/-- What is wrong with a directive line is neither a misplaced shebang nor a missing end. -/
lemma Line.fault_of_step {place there : Place} {source : Text} {fault : LexicalFault}
    (h : step place source = .fault fault there) :
    fault ≠ .misplacedShebang ∧ fault ≠ .missingEnd := by
  unfold step at h
  split at h
  · cases h
    simp
  · cases h
  · cases h
  · cases h
    simp
  · split at h
    · cases h
    · cases h
      simp
  · split at h
    · cases h
    · cases h
      simp

/-- A line that cannot be read on is neither a misplaced shebang nor without an end. -/
lemma Line.fault_of_read {place there : Place} {source : Text} {tokens : List Token}
    {fault : LexicalFault} (h : read place source = .broken tokens fault there) :
    fault ≠ .misplacedShebang ∧ fault ≠ .missingEnd := by
  fun_induction read place source generalizing tokens with
  | case1 place source token cover left hstep ih =>
    cases hr : read (place.skip cover) left with
    | complete ts c r =>
      rw [hr] at h
      cases h
    | broken ts f p =>
      rw [hr] at h
      cases h
      exact ih hr
  | case2 => cases h
  | case3 place source fault here hstep =>
    cases h
    exact fault_of_step hstep

namespace Dialect

variable {dialect : Dialect} {place : Place} {source rest : Text}

/-- The end of a scan has the tokens of an end. -/
lemma stream_of_step_ending {ending : Ending} (h : dialect.step place source = .ending ending) :
    Token.Stream ending.tokens := by
  have hcuts := dialect.cuts_step place source
  rw [h] at hcuts
  cases hcuts with
  | complete => exact .complete place
  | misplaced => exact .misplaced _
  | broken after tokens fault there hstart hafter hread =>
    obtain ⟨hmisplaced, hend⟩ := Line.fault_of_read hread
    exact .broken _ _ _ (Line.read_broken hread) hmisplaced hend

/-- The tokens of a segment come before those of the rest. -/
lemma stream_of_step_segment {segment : Segment} {tokens : List Token}
    (h : dialect.step place source = .segment segment rest) (hrest : Token.Stream tokens) :
    Token.Stream (segment.tokens ++ tokens) := by
  have hcontent := (step_eq_segment h).2
  cases segment with
  | text p content => exact .text p hcontent hrest
  | comment p style content =>
    rw [Segment.tokens]
    split
    · exact hrest
    · exact .comment p hcontent hrest
  | directive p content tokens => exact .line (isWhole_of_step h) hrest
  | shebang p content => exact hrest

/-- The tokens of a source follow the grammar. The induction is on the steps of the scan. -/
lemma stream_scanFrom (dialect : Dialect) (place : Place) (source : Text) :
    Token.Stream (dialect.scanFrom place source).tokens := by
  fun_induction scanFrom dialect place source with
  | case1 place source segment rest hstep ih =>
    rw [Scan.tokens_cons]
    exact stream_of_step_segment hstep ih
  | case2 place source ending hstep => exact stream_of_step_ending hstep

/-! ### Texts in a row -/

/-- Plain text ends with the source or in front of an event. The induction is on the source; whether
a line starts is a matter of the last character of the text, if it has one. -/
lemma plain_eq_or_event (dialect : Dialect) (lineStart : Bool) (source : Text) :
    dialect.plain lineStart source = source ∨
      (dialect.event?
        (((dialect.plain lineStart source).getLast?.map (· == '\n')).getD lineStart)
        (source.drop (dialect.plain lineStart source).length)).isSome = true := by
  fun_induction plain dialect lineStart source with
  | case1 => exact Or.inl rfl
  | case2 lineStart c s hevent ih =>
    rcases ih with hall | hsome
    · exact Or.inl (by rw [hall])
    · refine Or.inr ?_
      cases hplain : dialect.plain (c == '\n') s with
      | nil =>
        rw [hplain] at hsome
        exact hsome
      | cons d t =>
        rw [hplain] at hsome
        simpa [List.getLast?_cons] using hsome
  | case3 lineStart c s hevent =>
    refine Or.inr ?_
    simpa [Option.isSome_iff_ne_none] using hevent

/-- Whether a line starts after a text that is not empty is a matter of its last character. -/
lemma isLineStart_of_ne_nil (before : Text) {content : Text} (h : content ≠ []) (lineStart : Bool) :
    (Place.start.skip (before ++ content)).isLineStart =
      (content.getLast?.map (· == '\n')).getD lineStart := by
  obtain ⟨init, last, rfl⟩ := List.eq_nil_or_concat content |>.resolve_left h
  have hends : Text.EndsLine (before ++ (init ++ [last])) ↔ last = '\n' := by
    rw [← List.append_assoc]
    simp [Text.EndsLine]
  rw [Bool.eq_iff_iff, Place.isLineStart_start_skip, List.concat_eq_append, hends]
  simp

/-- Plain text goes on to the next event, so that the step after it cuts off no plain text. -/
lemma not_text_of_step_text {before content more : Text} {p q : Place} {s : Text}
    (h : dialect.step (Place.start.skip before) source = .segment (.text p content) rest) :
    dialect.step (Place.start.skip (before ++ content)) rest ≠ .segment (.text q s) more := by
  intro hnext
  have hne : content ≠ [] := (step_eq_segment h).2
  have hcuts := dialect.cuts_step (Place.start.skip before) source
  have hcuts' := dialect.cuts_step (Place.start.skip (before ++ content)) rest
  rw [h] at hcuts
  rw [hnext] at hcuts'
  cases hcuts with
  | text hevent hsource =>
    cases hcuts' with
    | text hevent' hrest =>
      rcases dialect.plain_eq_or_event (Place.start.skip before).isLineStart source with
        hall | hsome
      · exact hrest (by rw [hall, List.drop_length])
      · rw [← isLineStart_of_ne_nil before hne, hevent'] at hsome
        cases hsome

/-- A shebang line is the first segment of a source. -/
lemma earlier_eq_nil_of_shebang {earlier later : List Segment} {content : Text}
    (h : (dialect.scan source).segments = earlier ++ .shebang place content :: later) :
    earlier.flatMap Segment.content = [] := by
  obtain ⟨rest, -, hstep⟩ := exists_step_of_segments_eq h
  obtain ⟨hstart, hfirst, -⟩ := step_shebang hstep
  exact Place.eq_nil_of_first_line hfirst hstart

/-- No two segments in a row are plain text. -/
lemma not_text_text {earlier later : List Segment} {p q : Place} {s t : Text} :
    (dialect.scan source).segments ≠ earlier ++ .text p s :: .text q t :: later := by
  intro h
  obtain ⟨rest, hsource, hstep⟩ := exists_step_of_segments_eq h
  have hnext : (dialect.scan source).segments = (earlier ++ [.text p s]) ++ .text q t :: later := by
    rw [h, List.append_assoc, List.singleton_append]
  obtain ⟨more, hsource', hstep'⟩ := exists_step_of_segments_eq hnext
  have hcontent : (earlier ++ [Segment.text p s]).flatMap Segment.content =
      earlier.flatMap Segment.content ++ s := by
    simp [Segment.content]
  have hrest : rest = Segment.content (.text q t) ++ more := by
    rw [← hsource', hcontent, List.append_assoc] at hsource
    exact List.append_cancel_left (List.append_cancel_left hsource)
  rw [hcontent, ← hrest] at hstep'
  exact not_text_of_step_text hstep hstep'

end Dialect

/-- The tokens of a whole directive line are not kept. -/
lemma Line.IsWhole.isKept_of_mem {tokens : List Token} (h : IsWhole tokens) {token : Token}
    (htoken : token ∈ tokens) : token.isKept = false := by
  obtain ⟨⟨_, start⟩, arguments, ⟨_, stop⟩, rfl, ⟨mark, rfl⟩, ⟨tail, rfl⟩, harguments⟩ := h
  simp only [List.cons_append, List.mem_cons, List.mem_append, List.not_mem_nil, or_false] at htoken
  rcases htoken with rfl | htoken | rfl
  · exact Token.isKept_trigger _ _
  · exact Token.isKept_of_isArgument (harguments token htoken)
  · exact Token.isKept_lineEnd _ _

namespace Segment

/-- Whether a segment is a comment that is stripped. -/
def isStripped : Segment → Bool
  | comment _ style _ => style.strip
  | _ => false

variable {segment : Segment}

/-- A segment without tokens is a stripped comment or a shebang line. -/
lemma cases_of_tokens_eq_nil (h : segment.tokens = [])
    (hwhole : ∀ place content tokens, segment = .directive place content tokens →
      Line.IsWhole tokens) :
    segment.isStripped = true ∨ ∃ place content, segment = .shebang place content := by
  cases segment with
  | text place content => cases h
  | comment place style content =>
    rw [tokens] at h
    split at h
    · exact Or.inl ‹_›
    · cases h
  | directive place content tokens =>
    obtain ⟨trigger, arguments, lineEnd, htokens, -⟩ := hwhole place content tokens rfl
    rw [Segment.tokens, htokens] at h
    cases h
  | shebang place content => exact Or.inr ⟨place, content, rfl⟩

/-- A segment that has a token of plain text is this text. -/
lemma eq_text_of_mem_tokens {place : Place} {content : Text}
    (h : ⟨.text content, place⟩ ∈ segment.tokens)
    (hwhole : ∀ place content tokens, segment = .directive place content tokens →
      Line.IsWhole tokens) : segment = .text place content := by
  cases segment with
  | text p s =>
    cases List.mem_singleton.1 h
    rfl
  | comment p style s =>
    rw [tokens] at h
    split at h
    · cases h
    · cases List.mem_singleton.1 h
  | directive p s tokens =>
    have hnot := (hwhole p s tokens rfl).isKept_of_mem h
    rw [Token.isKept_text] at hnot
    cases hnot
  | shebang p s => cases h

/-- A token of plain text among the tokens of segments is that of a segment of its own. The
induction is on the segments: the token is one of the first segment, or comes after its tokens. -/
lemma exists_text_of_tokens_eq {segments : List Segment} {tail before after : List Token}
    {place : Place} {content : Text}
    (hwhole : ∀ place content tokens, .directive place content tokens ∈ segments →
      Line.IsWhole tokens)
    (htail : ∀ token ∈ tail, token.isKept = false)
    (h : segments.flatMap tokens ++ tail = before ++ ⟨.text content, place⟩ :: after) :
    ∃ earlier later, segments = earlier ++ .text place content :: later ∧
      earlier.flatMap tokens = before ∧ later.flatMap tokens ++ tail = after := by
  induction segments generalizing before with
  | nil =>
    have hmem : ⟨.text content, place⟩ ∈ tail := by
      rw [List.flatMap_nil, List.nil_append] at h
      rw [h]
      exact List.mem_append_right _ List.mem_cons_self
    cases htail _ hmem
  | cons segment segments ih =>
    have hlater (rest : List Token) (hrest : before = segment.tokens ++ rest)
        (hsegments : segments.flatMap tokens ++ tail = rest ++ ⟨.text content, place⟩ :: after) :
        ∃ earlier later, segment :: segments = earlier ++ .text place content :: later ∧
          earlier.flatMap tokens = before ∧ later.flatMap tokens ++ tail = after := by
      obtain ⟨earlier, later, rfl, hearlier, hafter⟩ :=
        ih (fun p s ts hmem => hwhole p s ts (List.mem_cons_of_mem _ hmem)) hsegments
      refine ⟨segment :: earlier, later, rfl, ?_, hafter⟩
      rw [List.flatMap_cons, hearlier, hrest]
    rw [List.flatMap_cons, List.append_assoc] at h
    rcases List.append_eq_append_iff.1 h with ⟨rest, hrest, hsegments⟩ | ⟨own, hown, hsegments⟩
    · exact hlater rest hrest hsegments
    · cases own with
      | nil => exact hlater [] (by rw [hown, List.append_nil, List.append_nil]) hsegments.symm
      | cons token own =>
        obtain ⟨rfl, hafter⟩ := List.cons.inj hsegments
        obtain rfl : segment = .text place content := by
          refine eq_text_of_mem_tokens ?_
            (fun p s ts hsegment => hwhole p s ts (hsegment ▸ List.mem_cons_self))
          rw [hown]
          exact List.mem_append_right _ List.mem_cons_self
        -- its token is the only one of the segment
        rcases before with _ | ⟨first, before⟩
        · obtain ⟨-, rfl⟩ := List.cons.inj hown
          exact ⟨[], segments, rfl, rfl, hafter.symm⟩
        · simp [tokens] at hown

end Segment

namespace Dialect

variable {dialect : Dialect} {source : Text}

/-- Two texts in a row among the tokens of a source have stripped comments between them, at least
one, and nothing else. -/
lemma exists_stripped_between {before after : List Token} {p q : Place} {s t : Text}
    (h : dialect.tokens source = before ++ ⟨.text s, p⟩ :: ⟨.text t, q⟩ :: after) :
    ∃ earlier between later,
      (dialect.scan source).segments = earlier ++ .text p s :: (between ++ .text q t :: later) ∧
        between ≠ [] ∧ ∀ segment ∈ between, segment.isStripped = true := by
  have hending : ∀ token ∈ (dialect.scan source).ending.tokens, token.isKept = false :=
    fun token htoken => isKept_of_mem_ending htoken
  obtain ⟨earlier, rest, hfirst, -, hrest⟩ := Segment.exists_text_of_tokens_eq
    (fun place content tokens hmem => isWhole_of_mem_segments hmem) hending h
  have hmem {segment : Segment} (hsegment : segment ∈ rest) :
      segment ∈ (dialect.scan source).segments := by
    rw [hfirst]
    exact List.mem_append_right _ (List.mem_cons_of_mem _ hsegment)
  have hnext : rest.flatMap Segment.tokens ++ (dialect.scan source).ending.tokens =
      [] ++ ⟨.text t, q⟩ :: after := hrest
  obtain ⟨between, later, rfl, hbetween, -⟩ := Segment.exists_text_of_tokens_eq
    (fun place content tokens htokens => isWhole_of_mem_segments (hmem htokens)) hending hnext
  refine ⟨earlier, between, later, hfirst, ?_, ?_⟩
  · rintro rfl
    exact not_text_text hfirst
  · intro segment hsegment
    have hnone : segment.tokens = [] := List.flatMap_eq_nil_iff.1 hbetween segment hsegment
    have hwhole : ∀ place content tokens, segment = .directive place content tokens →
        Line.IsWhole tokens := by
      rintro place content tokens rfl
      exact isWhole_of_mem_segments (hmem (List.mem_append_left _ hsegment))
    rcases Segment.cases_of_tokens_eq_nil hnone hwhole with hstripped | ⟨place, content, rfl⟩
    · exact hstripped
    · -- a shebang line would come after the first text, which is not empty
      obtain ⟨front, back, rfl⟩ := List.append_of_mem hsegment
      obtain ⟨left, -, hstep⟩ := exists_step_of_segments_eq hfirst
      have hcontent : s ≠ [] := (step_eq_segment hstep).2
      have hshebang : (dialect.scan source).segments =
          (earlier ++ .text p s :: front) ++ .shebang place content ::
            (back ++ .text q t :: later) := by
        rw [hfirst]
        simp
      have hnil := earlier_eq_nil_of_shebang hshebang
      simp [Segment.content, hcontent] at hnil

/-- A comment of a source is of the first style that opens where it starts, and is all that this
style makes of the source from there on. -/
lemma first?_of_mem_segments {place : Place} {style : CommentStyle} {content : Text}
    (h : .comment place style content ∈ (dialect.scan source).segments) :
    dialect.styles.first? (source.drop place.offset) = some style ∧
      content = style.extent (source.drop place.offset) := by
  obtain ⟨earlier, later, hsplit⟩ := List.append_of_mem h
  obtain ⟨rest, hsource, hstep⟩ := exists_step_of_segments_eq hsplit
  obtain rfl : place = Place.start.skip (earlier.flatMap Segment.content) := start_of_step hstep
  have hdrop : source.drop (Place.start.skip (earlier.flatMap Segment.content)).offset =
      content ++ rest := by
    rw [Place.skip_offset, ← hsource]
    exact List.drop_left' (Nat.zero_add _).symm
  rw [hdrop]
  exact step_comment hstep

end Dialect

end Splice

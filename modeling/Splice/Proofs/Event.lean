import Splice.Proofs.Scanner

/-!
# The first event

Plain text goes on up to the first event: the start of a line whose trigger comes after its blanks,
or an opening delimiter that is not in front of a blank. Here an event is a property of an offset of
the source (`Dialect.EventAt`), whatever comes before; that a scan finds it there is
`Dialect.event?_isSome_iff`.

To look at every offset is one way to find the first event. Another way is to go over each run of
blanks at once and to look for the trigger and for comments only after it, with the line start
looked up before it (`Dialect.leap`). It is not obvious that this misses nothing, but inside a run
of blanks no line starts and no comment opens, so both ways come to the same text
(`Dialect.leap_eq_plain`). A scanner that goes over plain text stops at the first event and turns to
it (`Scanner.text_ends_at_first_event`).
-/

namespace Splice

namespace Dialect

/-! ### Events of a source -/

/-- A directive line starts at an offset of a source: it is the first offset or comes after a line
end, and the trigger follows the run of blanks there. -/
def DirectiveAt (dialect : Dialect) (source : Text) (offset : Nat) : Prop :=
  (offset = 0 ∨ source[offset - 1]? = some '\n') ∧
    dialect.trigger <+: Text.unindent (source.drop offset)

/-- A comment opens at an offset of a source: there is no blank, and the opening delimiter of some
style. -/
def CommentAt (dialect : Dialect) (source : Text) (offset : Nat) : Prop :=
  (source[offset]?.map Text.isBlank = some false) ∧
    ∃ style ∈ dialect.styles, style.opener <+: source.drop offset

/-- What ends plain text in a source. -/
def EventAt (dialect : Dialect) (source : Text) (offset : Nat) : Prop :=
  dialect.DirectiveAt source offset ∨ dialect.CommentAt source offset

instance (dialect : Dialect) (source : Text) (offset : Nat) :
    Decidable (dialect.DirectiveAt source offset) :=
  inferInstanceAs (Decidable (_ ∧ _))

instance (dialect : Dialect) (source : Text) (offset : Nat) :
    Decidable (dialect.CommentAt source offset) :=
  inferInstanceAs (Decidable (_ ∧ _))

instance (dialect : Dialect) (source : Text) (offset : Nat) :
    Decidable (dialect.EventAt source offset) :=
  inferInstanceAs (Decidable (_ ∨ _))

/-- The first event of a source from an offset on, before the end of the source. -/
structure FirstEvent (dialect : Dialect) (source : Text) (start offset : Nat) : Prop where
  start_le : start ≤ offset
  lt_length : offset < source.length
  event : dialect.EventAt source offset
  first : ∀ earlier < offset, start ≤ earlier → ¬ dialect.EventAt source earlier

variable {dialect : Dialect} {source : Text} {start offset : Nat}

/-- A line starts at an offset when it is the first one or comes after a line end. -/
lemma isLineStart_take_iff (h : offset ≤ source.length) :
    (Place.start.skip (source.take offset)).isLineStart = true ↔
      offset = 0 ∨ source[offset - 1]? = some '\n' := by
  rw [Place.isLineStart_start_skip, Text.EndsLine]
  cases offset with
  | zero => simp
  | succ n =>
    have hne : source.take (n + 1) ≠ [] := by
      rw [← List.length_pos_iff, List.length_take]
      omega
    have hlast : (source.take (n + 1)).getLast? = source[n]? := by
      rw [List.getLast?_eq_getElem?, List.length_take, Nat.min_eq_left h, Nat.add_sub_cancel,
        List.getElem?_take_of_lt (Nat.lt_succ_self n)]
    simp [hne, hlast]

/-- A directive event is found where a directive line starts. -/
lemma event?_eq_directive_iff (h : offset < source.length) :
    dialect.event? (Place.start.skip (source.take offset)).isLineStart (source.drop offset) =
      some .directive ↔ dialect.DirectiveAt source offset := by
  rw [DirectiveAt, ← isLineStart_take_iff h.le]
  constructor
  · exact event?_eq_directive
  · rintro ⟨hstart, htrigger⟩
    rw [hstart]
    rw [List.drop_eq_getElem_cons h] at htrigger ⊢
    rw [event?, if_pos]
    simpa using htrigger

/-- Where no directive line starts, a comment is found where one opens. -/
lemma event?_isSome_of_not_directive (h : offset < source.length)
    (hnone : ¬ dialect.DirectiveAt source offset) :
    (dialect.event? (Place.start.skip (source.take offset)).isLineStart
      (source.drop offset)).isSome = true ↔ dialect.CommentAt source offset := by
  rw [← event?_eq_directive_iff h] at hnone
  rw [CommentAt, List.getElem?_eq_getElem h]
  rw [List.drop_eq_getElem_cons h] at hnone ⊢
  rw [event?] at hnone ⊢
  split
  · rename_i hdirective
    rw [if_pos hdirective] at hnone
    exact absurd rfl hnone
  · split
    · rename_i hblank
      simp [hblank]
    · rename_i hblank
      have hopens : (dialect.styles.first? (source[offset] :: source.drop (offset + 1))).isSome =
          true ↔ ∃ style ∈ dialect.styles,
            style.opener <+: source[offset] :: source.drop (offset + 1) := by
        simp [Styles.first?, List.find?_isSome, CommentStyle.opens]
      rw [Option.isSome_map, hopens]
      simp [hblank]

/-- An event is found where there is one. -/
lemma event?_isSome_iff (h : offset < source.length) :
    (dialect.event? (Place.start.skip (source.take offset)).isLineStart
      (source.drop offset)).isSome = true ↔ dialect.EventAt source offset := by
  by_cases hdirective : dialect.DirectiveAt source offset
  · have hfound := (event?_eq_directive_iff h).2 hdirective
    simp [EventAt, hdirective, hfound]
  · rw [event?_isSome_of_not_directive h hdirective]
    simp [EventAt, hdirective]

/-! ### Plain text -/

/-- No event is found inside plain text. The induction is on the text, with what comes before it
growing by one character at a time. -/
lemma event?_eq_none_of_lt_plain (dialect : Dialect) (before source : Text) {n : Nat}
    (h : n < (dialect.plain (Place.start.skip before).isLineStart source).length) :
    dialect.event? (Place.start.skip (before ++ source.take n)).isLineStart (source.drop n) =
      none := by
  induction source generalizing before n with
  | nil => simp [plain] at h
  | cons c s ih =>
    rw [plain] at h
    split at h
    · rename_i hevent
      cases n with
      | zero =>
        rw [List.take_zero, List.append_nil]
        exact Option.isNone_iff_eq_none.1 hevent
      | succ n =>
        have hstart : (Place.start.skip (before ++ [c])).isLineStart = (c == '\n') :=
          isLineStart_of_ne_nil before (List.cons_ne_nil c []) false
        rw [← hstart, List.length_cons] at h
        have hlater := ih (before ++ [c]) (Nat.lt_of_succ_lt_succ h)
        rw [List.append_assoc, List.singleton_append] at hlater
        rw [List.take_succ_cons, List.drop_succ_cons]
        exact hlater
    · cases h

/-- Plain text ends with the source or where an event is found. -/
lemma plain_eq_or_isSome (dialect : Dialect) (before source : Text) :
    dialect.plain (Place.start.skip before).isLineStart source = source ∨
      (dialect.event?
        (Place.start.skip
          (before ++ dialect.plain (Place.start.skip before).isLineStart source)).isLineStart
        (source.drop
          (dialect.plain (Place.start.skip before).isLineStart source).length)).isSome = true := by
  rcases dialect.plain_eq_or_event (Place.start.skip before).isLineStart source with hall | hsome
  · exact Or.inl hall
  · refine Or.inr ?_
    by_cases hnil : dialect.plain (Place.start.skip before).isLineStart source = []
    · rw [hnil] at hsome ⊢
      rw [List.append_nil]
      exact hsome
    · rw [isLineStart_of_ne_nil before hnil]
      exact hsome

/-- The plain text of a source from an offset on. -/
def plainFrom (dialect : Dialect) (source : Text) (start : Nat) : Text :=
  dialect.plain (Place.start.skip (source.take start)).isLineStart (source.drop start)

/-- Plain text is a piece of the source. -/
lemma plainFrom_isPrefix (dialect : Dialect) (source : Text) (start : Nat) :
    dialect.plainFrom source start <+: source.drop start :=
  dialect.plain_isPrefix _ _

/-- Plain text is the piece of the source from its own start on. -/
lemma take_append_plainFrom (dialect : Dialect) (source : Text) (start : Nat) :
    source.take start ++ dialect.plainFrom source start =
      source.take (start + (dialect.plainFrom source start).length) := by
  rw [List.take_add, ← List.prefix_iff_eq_take.1 (dialect.plainFrom_isPrefix source start)]

/-- There is no event inside plain text. -/
lemma not_eventAt_of_lt (hstart : start ≤ offset)
    (h : offset < start + (dialect.plainFrom source start).length) :
    ¬ dialect.EventAt source offset := by
  obtain ⟨n, rfl⟩ := Nat.exists_eq_add_of_le hstart
  have hlength := (dialect.plainFrom_isPrefix source start).length_le
  rw [List.length_drop] at hlength
  have hnone := dialect.event?_eq_none_of_lt_plain (source.take start) (source.drop start)
    (Nat.lt_of_add_lt_add_left h)
  rw [← List.take_add, List.drop_drop] at hnone
  rw [← event?_isSome_iff (by omega), hnone]
  exact Bool.false_ne_true

/-- There is an event after plain text, unless the source is at its end. -/
lemma eventAt_plainFrom (h : start + (dialect.plainFrom source start).length < source.length) :
    dialect.EventAt source (start + (dialect.plainFrom source start).length) := by
  have hor := dialect.plain_eq_or_isSome (source.take start) (source.drop start)
  rw [← plainFrom, take_append_plainFrom, List.drop_drop, event?_isSome_iff h] at hor
  refine hor.resolve_left ?_
  intro hall
  rw [hall, List.length_drop] at h
  omega

/-- Plain text goes on up to the first event. -/
lemma plainFrom_of_firstEvent (h : dialect.FirstEvent source start offset) :
    dialect.plainFrom source start = (source.take offset).drop start := by
  have hlength : start + (dialect.plainFrom source start).length = offset := by
    rcases Nat.lt_trichotomy (start + (dialect.plainFrom source start).length) offset with
      hlt | heq | hgt
    · exact absurd (eventAt_plainFrom (hlt.trans h.lt_length))
        (h.first _ hlt (Nat.le_add_right _ _))
    · exact heq
    · exact absurd h.event (not_eventAt_of_lt h.start_le hgt)
  rw [List.drop_take, ← hlength, Nat.add_sub_cancel_left]
  exact List.prefix_iff_eq_take.1 (dialect.plainFrom_isPrefix source start)

/-- Without an event plain text goes on to the end of the source. -/
lemma plainFrom_of_no_event
    (h : ∀ later < source.length, start ≤ later → ¬ dialect.EventAt source later) :
    dialect.plainFrom source start = source.drop start := by
  refine (dialect.plainFrom_isPrefix source start).eq_of_length_le ?_
  rw [List.length_drop]
  by_contra hless
  have hlt : start + (dialect.plainFrom source start).length < source.length := by omega
  exact h _ hlt (Nat.le_add_right _ _) (eventAt_plainFrom hlt)

/-! ### Leaps -/

/-- Plain text in leaps: each run of blanks is gone over at once, with a character after it. The
trigger is looked for after the blanks if a line starts before them, and comments are looked for
after them only. -/
def leap (dialect : Dialect) (lineStart : Bool) (source : Text) : Text :=
  if source = [] then []
  else if lineStart && dialect.trigger.isPrefixOf source.unindent then []
  else if dialect.styles.opens source.unindent then source.indent
  else
    match _h : source.unindent with
    | [] => source.indent
    | c :: rest => source.indent ++ c :: dialect.leap (c == '\n') rest
termination_by source.length
decreasing_by
  rw [← Text.indent_append_unindent source, _h, List.length_append, List.length_cons]
  omega

/-- What comes after the blanks at the start of a text starts with no blank. -/
lemma isBlank_of_unindent_eq {c : Char} {rest : Text} (h : source.unindent = c :: rest) :
    Text.isBlank c = false := by
  have hhead := List.head?_dropWhile_not Text.isBlank source
  rw [← Text.unindent, h] at hhead
  simpa using hhead

/-- Plain text goes over blanks, unless they are those of a directive line. No line starts after
the first of them. -/
lemma plain_append_blanks {blanks : Text} (hblanks : ∀ c ∈ blanks, Text.isBlank c = true)
    {lineStart : Bool} {rest : Text}
    (h : (lineStart && dialect.trigger.isPrefixOf (Text.unindent (blanks ++ rest))) = false) :
    dialect.plain lineStart (blanks ++ rest) =
      blanks ++ dialect.plain (lineStart && blanks.isEmpty) rest := by
  induction blanks generalizing lineStart with
  | nil => simp
  | cons c blanks ih =>
    have hblank := hblanks c List.mem_cons_self
    have hline : (c == '\n') = false := by
      rw [beq_eq_false_iff_ne]
      rintro rfl
      exact absurd hblank (by decide)
    have hnone : dialect.event? lineStart (c :: (blanks ++ rest)) = none := by
      rw [List.cons_append] at h
      rw [event?, h, if_neg Bool.false_ne_true, if_pos hblank]
    have htail : dialect.plain false (blanks ++ rest) =
        blanks ++ dialect.plain (false && blanks.isEmpty) rest :=
      ih (fun d hd => hblanks d (List.mem_cons_of_mem c hd)) rfl
    rw [List.cons_append, plain, hnone, if_pos Option.isNone_none, hline, htail]
    simp

section Leap

variable {lineStart : Bool}
  (hnone : ¬ (lineStart && dialect.trigger.isPrefixOf source.unindent) = true)

include hnone

/-- Plain text goes over the blanks at its start. -/
lemma plain_eq_indent_append :
    dialect.plain lineStart source =
      source.indent ++ dialect.plain (lineStart && source.indent.isEmpty) source.unindent := by
  have hblanks : ∀ c ∈ source.indent, Text.isBlank c = true :=
    fun c hc => Text.isBlank_of_mem_indent hc
  have hsplit := Text.indent_append_unindent source
  have hplain : dialect.plain lineStart (source.indent ++ source.unindent) =
      source.indent ++ dialect.plain (lineStart && source.indent.isEmpty) source.unindent := by
    apply plain_append_blanks hblanks
    rw [hsplit]
    exact Bool.eq_false_iff.2 hnone
  rwa [hsplit] at hplain

/-- The only event that can come after the blanks is a comment. -/
lemma event?_of_unindent_eq {c : Char} {rest : Text} (hafter : source.unindent = c :: rest)
    (inside : Bool) :
    dialect.event? (lineStart && inside) (c :: rest) =
      (dialect.styles.first? (c :: rest)).map .comment := by
  have hblank := isBlank_of_unindent_eq hafter
  have hsame : Text.unindent (c :: rest) = c :: rest := by
    rw [Text.unindent, List.dropWhile_cons_of_neg (by simp [hblank])]
  have hno : ¬ ((lineStart && inside) &&
      dialect.trigger.isPrefixOf (Text.unindent (c :: rest))) = true := by
    rw [hsame, ← hafter]
    intro hyes
    simp only [Bool.and_eq_true] at hyes hnone
    exact hnone ⟨hyes.1.1, hyes.2⟩
  rw [event?, if_neg hno, if_neg (by simp [hblank])]

end Leap

/-- **Leaps miss no event.** Going over plain text in leaps comes to the same end as looking at
every character of it. The induction is on the leaps. -/
lemma leap_eq_plain (dialect : Dialect) (lineStart : Bool) (source : Text) :
    dialect.leap lineStart source = dialect.plain lineStart source := by
  fun_induction leap dialect lineStart source with
  | case1 lineStart => rw [plain]
  | case2 lineStart source hne hdirective =>
    obtain ⟨c, s, rfl⟩ := List.exists_cons_of_ne_nil hne
    rw [plain, event?, if_pos hdirective]
    rfl
  | case3 lineStart source hne hdirective hopens =>
    rw [plain_eq_indent_append hdirective]
    cases hafter : source.unindent with
    | nil => rw [plain, List.append_nil]
    | cons c rest =>
      rw [hafter, Styles.opens, Option.isSome_iff_ne_none] at hopens
      rw [plain, event?_of_unindent_eq hdirective hafter, if_neg (by simpa using hopens),
        List.append_nil]
  | case4 lineStart source hne hdirective hopens hall =>
    rw [plain_eq_indent_append hdirective, hall, plain, List.append_nil]
  | case5 lineStart source hne hdirective hopens c rest hafter ih =>
    rw [hafter, Styles.opens, Option.isSome_iff_ne_none, not_not] at hopens
    rw [plain_eq_indent_append hdirective, hafter, plain,
      event?_of_unindent_eq hdirective hafter, hopens, if_pos (by rfl), ih]

end Dialect

/-! ### Scanners -/

namespace Scanner

/-- A scanner that has come to an offset of a source. -/
def atOffset (mode : Mode) (source : Text) (offset : Nat) (tokens : List Token) : Scanner :=
  ⟨mode, source.take offset, source.drop offset, tokens⟩

/-- The token of the plain text between two offsets of a source, and none if they are the same. -/
def textTokens (source : Text) (start stop : Nat) : List Token :=
  if (source.take stop).drop start = [] then []
  else [⟨.text ((source.take stop).drop start), Place.start.skip (source.take start)⟩]

variable {dialect : Dialect} {source : Text} {start stop : Nat} {tokens : List Token}

/-- Going over a piece of the source leads to the offset after it. -/
lemma advance_atOffset {content : Text} (h : content <+: source.drop start) (mode other : Mode)
    (tokens more : List Token) :
    (atOffset mode source start tokens).advance other content more =
      atOffset other source (start + content.length) (tokens ++ more) := by
  have htake : source.take start ++ content = source.take (start + content.length) := by
    rw [List.take_add, ← List.prefix_iff_eq_take.1 h]
  simp only [advance, atOffset, htake, List.drop_drop]

/-- A scanner goes over plain text up to the offset where it stops. -/
lemma passText_atOffset (hstop : start ≤ stop) (hlength : stop ≤ source.length)
    (h : dialect.plainFrom source start = (source.take stop).drop start) :
    (atOffset .text source start tokens).passText dialect =
      atOffset .text source stop (tokens ++ textTokens source start stop) := by
  have hprefix := dialect.plainFrom_isPrefix source start
  have hcount : start + (dialect.plainFrom source start).length = stop := by
    rw [h, List.length_drop, List.length_take]
    omega
  have hpass : (atOffset .text source start tokens).passText dialect =
      (atOffset .text source start tokens).advance .text (dialect.plainFrom source start)
        (textTokens source start stop) := by
    rw [textTokens, ← h]
    rfl
  rw [hpass, advance_atOffset hprefix, hcount]

/-- At a directive line a scanner turns to the trigger after the blanks. -/
lemma turn_of_directiveAt (hlength : stop < source.length)
    (h : dialect.DirectiveAt source stop) :
    (atOffset .text source stop tokens).turn dialect =
      atOffset .mark source (stop + (Text.indent (source.drop stop)).length) tokens := by
  have hevent := (Dialect.event?_eq_directive_iff hlength).2 h
  have hturn : (atOffset .text source stop tokens).turn dialect =
      (atOffset .text source stop tokens).advance .mark (Text.indent (source.drop stop)) [] := by
    simp only [turn, place, atOffset, hevent]
  have hindent : Text.indent (source.drop stop) <+: source.drop stop := List.takeWhile_prefix _
  rw [hturn, advance_atOffset hindent, List.append_nil]

/-- At another event a scanner turns to a comment. -/
lemma turn_of_comment (hlength : stop < source.length) (h : dialect.EventAt source stop)
    (hnone : ¬ dialect.DirectiveAt source stop) :
    (atOffset .text source stop tokens).turn dialect = atOffset .comment source stop tokens := by
  have hsome := (Dialect.event?_isSome_iff hlength).2 h
  have hother : dialect.event? (Place.start.skip (source.take stop)).isLineStart
      (source.drop stop) ≠ some .directive :=
    fun hevent => hnone ((Dialect.event?_eq_directive_iff hlength).1 hevent)
  obtain ⟨event, hevent⟩ := Option.isSome_iff_exists.1 hsome
  cases event with
  | directive => exact absurd hevent hother
  | comment style =>
    have hturn : (atOffset .text source stop tokens).turn dialect =
        (atOffset .text source stop tokens).advance .comment [] [] := by
      simp only [turn, place, atOffset, hevent]
    rw [hturn, advance_atOffset List.nil_prefix, List.append_nil]
    rfl

/-- At the end of the source a scanner is done. -/
lemma turn_of_end :
    (atOffset .text source source.length tokens).turn dialect =
      atOffset .done source source.length (tokens ++ [⟨.endOfInput, Place.start.skip source⟩]) := by
  have hnone : dialect.event? (Place.start.skip (source.take source.length)).isLineStart
      (source.drop source.length) = none := by
    rw [List.drop_length, Dialect.event?]
  have hturn : (atOffset .text source source.length tokens).turn dialect =
      (atOffset .text source source.length tokens).advance .done []
        [⟨.endOfInput, Place.start.skip (source.take source.length)⟩] := by
    simp only [turn, finish, place, atOffset, hnone]
  rw [hturn, advance_atOffset List.nil_prefix, List.take_length]
  rfl

/-- **Plain text ends at the first event.** From any offset of a source on, and for any trigger and
comment styles, a scanner in text mode comes to the token of the text up to the first event, if
there is any text before it. Then it turns to the event: to the trigger after the blanks if a
directive line starts there, also if a comment opens there as well, and else to the comment. If
there is no event, the text goes on to the end of the source, and the scanner is done. The text is
also what is gone over in leaps, and the tokens that are still to come are those of the scan from
the offset on. -/
theorem text_ends_at_first_event (dialect : Dialect) (source : Text) (start : Nat)
    (tokens : List Token) :
    (∀ stop, dialect.FirstEvent source start stop →
      dialect.leap (Place.start.skip (source.take start)).isLineStart (source.drop start) =
          (source.take stop).drop start ∧
        (dialect.DirectiveAt source stop →
          dialect.trigger <+: source.drop (stop + (Text.indent (source.drop stop)).length) ∧
          (atOffset .text source start tokens).next dialect =
            atOffset .mark source (stop + (Text.indent (source.drop stop)).length)
              (tokens ++ textTokens source start stop)) ∧
        (¬ dialect.DirectiveAt source stop →
          (atOffset .text source start tokens).next dialect =
            atOffset .comment source stop (tokens ++ textTokens source start stop))) ∧
    (start ≤ source.length →
      (∀ later < source.length, start ≤ later → ¬ dialect.EventAt source later) →
      dialect.leap (Place.start.skip (source.take start)).isLineStart (source.drop start) =
          source.drop start ∧
        (atOffset .text source start tokens).next dialect =
          atOffset .done source source.length (tokens ++ textTokens source start source.length ++
            [⟨.endOfInput, Place.start.skip source⟩])) ∧
    ((atOffset .text source start tokens).next dialect).output dialect =
      tokens ++
        (dialect.scanFrom (Place.start.skip (source.take start)) (source.drop start)).tokens := by
  have hnext : (atOffset .text source start tokens).next dialect =
      ((atOffset .text source start tokens).passText dialect).turn dialect := rfl
  refine ⟨?_, ?_, ?_⟩
  · intro stop h
    have hplain := Dialect.plainFrom_of_firstEvent h
    rw [hnext, passText_atOffset h.start_le h.lt_length.le hplain, Dialect.leap_eq_plain]
    refine ⟨hplain, ?_, ?_⟩
    · intro hdirective
      refine ⟨?_, turn_of_directiveAt h.lt_length hdirective⟩
      rw [← List.drop_drop, Text.drop_length_indent]
      exact hdirective.2
    · intro hnone
      exact turn_of_comment h.lt_length h.event hnone
  · intro hstart hnone
    have hplain := Dialect.plainFrom_of_no_event hnone
    have hall : dialect.plainFrom source start = (source.take source.length).drop start := by
      rw [hplain, List.take_length]
    rw [hnext, passText_atOffset hstart le_rfl hall, Dialect.leap_eq_plain]
    exact ⟨hplain, turn_of_end⟩
  · exact (progress_text dialect rfl).output_eq

/-- A dialect in which comments open with the trigger. -/
def sharedMark : Dialect :=
  ⟨['#'], [.numberSign]⟩

/-- A text with the mark in a line, at the start of a line, and then no more. -/
def sharedText : Text :=
  "a #b\n#c\nd".toList

/-- The mark opens a comment in a line and a directive at the start of a line. -/
theorem text_ends_at_first_event_shared :
    sharedMark.FirstEvent sharedText 0 2 ∧
      (atOffset .text sharedText 0 []).next sharedMark =
        atOffset .comment sharedText 2 [⟨.text ['a', ' '], .start⟩] ∧
      sharedMark.FirstEvent sharedText 4 5 ∧ sharedMark.CommentAt sharedText 5 ∧
      (atOffset .text sharedText 4 []).next sharedMark =
        atOffset .mark sharedText 5 [⟨.text ['\n'], ⟨4, 1, 5⟩⟩] ∧
      (∀ later < sharedText.length, 8 ≤ later → ¬ sharedMark.EventAt sharedText later) ∧
      (atOffset .text sharedText 8 []).next sharedMark =
        atOffset .done sharedText 9 [⟨.text ['d'], ⟨8, 3, 1⟩⟩, ⟨.endOfInput, ⟨9, 3, 2⟩⟩] := by
  have hcomment : sharedMark.FirstEvent sharedText 0 2 :=
    ⟨by decide, by decide, by decide, by decide⟩
  have hdirective : sharedMark.FirstEvent sharedText 4 5 :=
    ⟨by decide, by decide, by decide, by decide⟩
  have hnone : ∀ later < sharedText.length, 8 ≤ later → ¬ sharedMark.EventAt sharedText later := by
    decide
  obtain ⟨hstops, -, -⟩ := text_ends_at_first_event sharedMark sharedText 0 []
  obtain ⟨hturns, -, -⟩ := text_ends_at_first_event sharedMark sharedText 4 []
  obtain ⟨-, hends, -⟩ := text_ends_at_first_event sharedMark sharedText 8 []
  exact ⟨hcomment, (hstops 2 hcomment).2.2 (by decide), hdirective, by decide,
    ((hturns 5 hdirective).2.1 (by decide)).2, hnone, (hends (by decide) hnone).2⟩

end Scanner

end Splice

import Splice.Proofs.Segment
import Splice.Text.Space

/-!
# Scans lose nothing

A scan that comes to the end of its source cuts the source into consecutive segments. `Segment.Fits`
says, without reference to the scan, what a segment of each kind is between the text before it and
the text after it, and `Tiles` that segments in a row make up a source in this way. The tokens of a
source that ends well are those of such a tiling (`Dialect.tiles_scanFrom`), in order, and the kept
tokens together are the source without its directive lines, its shebang line and its stripped
comments.
-/

namespace Splice

namespace Text

/-- A search for a line end goes over text that has none. -/
lemma through_newline_append {s : Text} (h : '\n' ∉ s) (t : Text) :
    through (s ++ t) ['\n'] = s ++ t.through ['\n'] := by
  induction s with
  | nil => rfl
  | cons c s ih =>
    have hc : '\n' ≠ c := fun heq => h (heq ▸ List.mem_cons_self)
    have hs : '\n' ∉ s := fun hmem => h (List.mem_cons_of_mem c hmem)
    have hno : ¬ ['\n'].isPrefixOf (c :: (s ++ t)) = true := by simp [hc]
    rw [List.cons_append, through, if_neg hno, ih hs, List.cons_append]

/-- What a search for a line end goes over is text on one line, and then the line end, or nothing
more when the text has none. -/
lemma exists_through_newline (s : Text) :
    ∃ body mark, s.through ['\n'] = body ++ mark ∧ '\n' ∉ body ∧
      (mark = ['\n'] ∨ mark = [] ∧ s.through ['\n'] = s) := by
  induction s with
  | nil => exact ⟨[], [], rfl, by simp, Or.inr ⟨rfl, rfl⟩⟩
  | cons c s ih =>
    by_cases hc : '\n' = c
    · subst hc
      refine ⟨[], ['\n'], ?_, by simp, Or.inl rfl⟩
      rw [through, if_pos (by simp)]
      rfl
    · obtain ⟨body, mark, hbody, hnone, hmark⟩ := ih
      have hstep : through (c :: s) ['\n'] = c :: through s ['\n'] := by
        rw [through, if_neg (by simp [hc])]
      refine ⟨c :: body, mark, ?_, ?_, ?_⟩
      · rw [hstep, hbody, List.cons_append]
      · simp [hc, hnone]
      · rcases hmark with hmark | ⟨hmark, hall⟩
        · exact Or.inl hmark
        · exact Or.inr ⟨hmark, by rw [hstep, hall]⟩

/-- A text without white space has no line end. -/
lemma newline_notMem_of_no_space {s : Text} (h : s.any isSpace = false) : '\n' ∉ s := by
  intro hmem
  have hspace : s.any isSpace = true := List.any_eq_true.2 ⟨'\n', hmem, by decide⟩
  rw [h] at hspace
  exact Bool.false_ne_true hspace

end Text

namespace Segment

/-- Whether a segment is a shebang line. -/
def isShebang : Segment → Bool
  | shebang .. => true
  | _ => false

/-- Whether the text of a segment is kept: plain text, and a comment unless its style is
stripped. -/
def isKept : Segment → Bool
  | text .. => true
  | comment _ style _ => !style.strip
  | _ => false

/-- What a segment is, between the text `before` it and the text `after` it. -/
inductive Fits (dialect : Dialect) (before after : Text) : Segment → Prop where
  /-- Plain text stands for one token, at its start. -/
  | text (content : Text) (hcontent : content ≠ []) :
    Fits dialect before after (.text (Place.start.skip before) content)
  /-- A comment is of the first style that opens there, and is all that this style makes of the
  source from there on. -/
  | comment (style : CommentStyle) (content : Text)
    (hfirst : dialect.styles.first? (content ++ after) = some style)
    (hextent : content = style.extent (content ++ after)) :
    Fits dialect before after (.comment (Place.start.skip before) style content)
  /-- A directive line is one whole line: blanks at the start of a line, the trigger, the body of
  the line, and a line end. Its tokens are that of the trigger, words and strings of the body, and
  that of the line end. -/
  | directive (blanks body mark : Text) (arguments : List Token)
    (hstart : before.EndsLine) (hblanks : ∀ c ∈ blanks, Text.isBlank c = true)
    (hline : '\n' ∉ dialect.trigger ++ body) (hmark : Line.IsLineEnd mark)
    (harguments : Line.Arguments (Place.start.skip (before ++ blanks ++ dialect.trigger)) body
      arguments) :
    Fits dialect before after
      (.directive (Place.start.skip before) (blanks ++ dialect.trigger ++ body ++ mark)
        (⟨.trigger dialect.trigger, Place.start.skip (before ++ blanks)⟩ :: arguments ++
          [⟨.lineEnd mark, Place.start.skip (before ++ blanks ++ dialect.trigger ++ body)⟩]))
  /-- A shebang line is the first line of the source: blanks, the trigger, an exclamation mark, the
  rest of the line, and its line end unless the source ends first. -/
  | shebang (blanks body mark : Text)
    (hbefore : before = []) (hblanks : ∀ c ∈ blanks, Text.isBlank c = true)
    (hline : '\n' ∉ dialect.trigger ++ body) (hmark : mark = ['\n'] ∨ mark = [] ∧ after = []) :
    Fits dialect before after
      (.shebang Place.start (blanks ++ (dialect.trigger ++ '!' :: body) ++ mark))

variable {dialect : Dialect} {before after : Text} {segment : Segment}

/-- A segment that fits covers at least one character. -/
lemma Fits.content_ne_nil (h : segment.Fits dialect before after) : segment.content ≠ [] := by
  cases h with
  | text content hcontent => exact hcontent
  | comment style content _ hextent =>
    rw [Segment.content, hextent]
    exact style.extent_ne_nil _
  | directive blanks body mark arguments _ _ _ hmark =>
    rcases hmark with rfl | rfl <;> simp [Segment.content]
  | shebang => simp [Segment.content]

/-- Only the first segment of a source can be a shebang line. -/
lemma Fits.before_eq_nil (h : segment.Fits dialect before after)
    (hshebang : segment.isShebang = true) : before = [] := by
  cases h with
  | shebang _ _ _ hbefore => exact hbefore
  | _ => simp [isShebang] at hshebang

/-- The tokens of a segment that fits start inside the segment. -/
lemma Fits.offset_mem (h : segment.Fits dialect before after) {token : Token}
    (htoken : token ∈ segment.tokens) :
    before.length ≤ token.place.offset ∧
      token.place.offset < before.length + segment.content.length := by
  have hpos := List.length_pos_iff.2 h.content_ne_nil
  cases h with
  | text content hcontent =>
    rw [List.mem_singleton.1 htoken]
    simp [Place.start, Segment.content] at hpos ⊢
    exact hpos
  | comment style content =>
    rw [Segment.tokens] at htoken
    split at htoken
    · simp at htoken
    · rw [List.mem_singleton.1 htoken]
      simp [Place.start, Segment.content] at hpos ⊢
      exact hpos
  | directive blanks body mark arguments _ _ _ hmark harguments =>
    have hmark' : 0 < mark.length := by rcases hmark with rfl | rfl <;> simp
    simp only [Segment.tokens, List.cons_append, List.mem_cons, List.mem_append,
      List.not_mem_nil, or_false] at htoken
    rcases htoken with rfl | htoken | rfl
    · simp [Place.start, Segment.content]
      omega
    · obtain ⟨-, passed, -, hlength, hplace⟩ := harguments token htoken
      rw [hplace]
      simp [Place.start, Segment.content]
      omega
    · simp [Place.start, Segment.content]
      omega
  | shebang => simp [Segment.tokens] at htoken

/-- The kept token of a segment that fits, if it has one, stands at the start of the segment. -/
lemma Fits.offset_of_isKept (h : segment.Fits dialect before after) {token : Token}
    (htoken : token ∈ segment.tokens) (hkept : token.isKept = true) :
    token.place.offset = before.length := by
  cases h with
  | text content =>
    rw [List.mem_singleton.1 htoken]
    simp [Place.start]
  | comment style content =>
    rw [Segment.tokens] at htoken
    split at htoken
    · simp at htoken
    · rw [List.mem_singleton.1 htoken]
      simp [Place.start]
  | directive blanks body mark arguments _ _ _ _ harguments =>
    simp only [Segment.tokens, List.cons_append, List.mem_cons, List.mem_append,
      List.not_mem_nil, or_false] at htoken
    rcases htoken with rfl | htoken | rfl
    · simp at hkept
    · rw [Token.isKept_of_isArgument (harguments token htoken).1] at hkept
      exact absurd hkept Bool.false_ne_true
    · simp at hkept
  | shebang => simp [Segment.tokens] at htoken

/-- The kept tokens of a segment that fits spell out its text, if that is kept, and else nothing. -/
lemma Fits.value_tokens (h : segment.Fits dialect before after) :
    (segment.tokens.filter Token.isKept).flatMap (·.lexeme.value) =
      if segment.isKept then segment.content else [] := by
  cases h with
  | text content => simp [tokens, List.filter_cons, isKept, Segment.content, Lexeme.value]
  | comment style content =>
    cases hstrip : style.strip <;>
      simp [tokens, List.filter_cons, hstrip, isKept, Segment.content, Lexeme.value]
  | directive blanks body mark arguments _ _ _ _ harguments =>
    have hnone : arguments.filter Token.isKept = [] := by
      rw [List.filter_eq_nil_iff]
      intro token htoken
      rw [Token.isKept_of_isArgument (harguments token htoken).1]
      exact Bool.false_ne_true
    simp [tokens, isKept, hnone]
  | shebang => simp [tokens, isKept]

/-- A step of a scan cuts off a segment that fits. -/
lemma fits_of_step (htrigger : '\n' ∉ dialect.trigger) {source : Text}
    (h : dialect.step (Place.start.skip before) source = .segment segment after) :
    segment.Fits dialect before after := by
  obtain ⟨hsource, hne⟩ := Dialect.step_eq_segment h
  have hplace := Dialect.start_of_step h
  cases segment with
  | text p content =>
    cases hplace
    exact .text content hne
  | comment p style content =>
    cases hplace
    obtain ⟨hfirst, hextent⟩ := Dialect.step_comment h
    rw [← hsource] at hfirst hextent
    exact .comment style content hfirst hextent
  | directive p content tokens =>
    cases hplace
    obtain ⟨hstart, blanks, body, mark, arguments, hblanks, hbody, hmark, rfl, rfl, harguments⟩ :=
      Dialect.step_directive h
    simp only [← Place.skip_append, ← List.append_assoc] at harguments ⊢
    exact .directive blanks body mark arguments ((Place.isLineStart_start_skip before).1 hstart)
      hblanks (by simp [htrigger, hbody]) hmark harguments
  | shebang p content =>
    cases hplace
    obtain ⟨hstart, hfirst, blanks, tail, hblanks, hsplit, hcontent⟩ := Dialect.step_shebang h
    obtain rfl := Place.eq_nil_of_first_line hfirst hstart
    obtain ⟨body, mark, hthrough, hbody, hmark⟩ := Text.exists_through_newline tail
    have hbang : '\n' ∉ dialect.trigger ++ ['!'] := by simp [htrigger]
    have hline : content = blanks ++ (dialect.trigger ++ '!' :: body) ++ mark := by
      have happend := Text.through_newline_append hbang tail
      rw [List.append_assoc, List.singleton_append] at happend
      rw [hcontent, happend, hthrough]
      simp
    subst hline
    refine .shebang blanks body mark rfl hblanks (by simp [htrigger, hbody]) ?_
    rcases hmark with hmark | ⟨hmark, hall⟩
    · exact Or.inl hmark
    · refine Or.inr ⟨hmark, ?_⟩
      rw [hthrough] at hall
      rw [hsplit, ← hall] at hsource
      simpa [Segment.content] using hsource

end Segment

/-- Segments in a row make up a source, from `before` on. -/
inductive Tiles (dialect : Dialect) : Text → List Segment → Text → Prop where
  /-- Nothing is left. -/
  | nil (before : Text) : Tiles dialect before [] []
  /-- One segment, and then those of what comes after it. -/
  | cons {before after : Text} {segment : Segment} {segments : List Segment}
    (hfits : segment.Fits dialect before after)
    (htail : Tiles dialect (before ++ segment.content) segments after) :
    Tiles dialect before (segment :: segments) (segment.content ++ after)

namespace Tiles

variable {dialect : Dialect} {before source : Text} {segments : List Segment}

/-- The texts of the segments of a tiling, one after the other, are the source. -/
lemma flatMap_content (h : Tiles dialect before segments source) :
    segments.flatMap Segment.content = source := by
  induction h with
  | nil => rfl
  | cons _ _ ih => rw [List.flatMap_cons, ih]

/-- There is no shebang line after other text. -/
lemma filter_isShebang_of_ne_nil (h : Tiles dialect before segments source)
    (hbefore : before ≠ []) : segments.filter Segment.isShebang = [] := by
  induction h with
  | nil => rfl
  | cons hfits _ ih =>
    have hno : ¬ Segment.isShebang _ = true := fun hyes => hbefore (hfits.before_eq_nil hyes)
    rw [List.filter_cons_of_neg hno, ih (by simp [hbefore])]

/-- A tiling has at most one shebang line. -/
lemma length_filter_isShebang (h : Tiles dialect before segments source) :
    (segments.filter Segment.isShebang).length ≤ 1 := by
  cases h with
  | nil => simp
  | cons hfits htail =>
    have hrest := htail.filter_isShebang_of_ne_nil (by simp [hfits.content_ne_nil])
    rw [List.filter_cons, hrest]
    split <;> simp

/-- The kept tokens of a tiling spell out the texts of the kept segments. -/
lemma value_tokens (h : Tiles dialect before segments source) :
    ((segments.flatMap Segment.tokens).filter Token.isKept).flatMap (·.lexeme.value) =
      (segments.filter Segment.isKept).flatMap Segment.content := by
  induction h with
  | nil => rfl
  | @cons before after segment segments hfits _ ih =>
    rw [List.flatMap_cons, List.filter_append, List.flatMap_append, ih, hfits.value_tokens,
      List.filter_cons]
    split <;> simp

/-- Each segment of a tiling fits between the text of the segments before it and the rest. -/
lemma exists_fits (h : Tiles dialect before segments source) {earlier later : List Segment}
    {segment : Segment} (hsplit : segments = earlier ++ segment :: later) :
    ∃ after, segment.Fits dialect (before ++ earlier.flatMap Segment.content) after := by
  induction h generalizing earlier with
  | nil => simp at hsplit
  | @cons before after first segments hfits _ ih =>
    cases earlier with
    | nil =>
      obtain ⟨rfl, -⟩ := List.cons.inj hsplit
      exact ⟨after, by simpa using hfits⟩
    | cons first' earlier =>
      obtain ⟨rfl, htail⟩ := List.cons.inj hsplit
      obtain ⟨rest, hrest⟩ := ih htail
      exact ⟨rest, by simpa using hrest⟩

end Tiles

/-- A scan whose tokens end with the end of the input has come to the end of the source. -/
lemma Scan.ending_of_getLast? {scan : Scan}
    (h : scan.tokens.getLast?.map Token.lexeme = some .endOfInput) :
    ∃ place, scan.ending = .complete place := by
  cases hending : scan.ending with
  | complete place => exact ⟨place, rfl⟩
  | broken tokens fault place => simp [Scan.tokens, hending, Ending.tokens] at h

namespace Dialect

variable {dialect : Dialect}

/-- A scan that comes to the end of the source tiles it. The induction is on the steps of the scan;
the place of each step is the one after all text before it. -/
lemma tiles_scanFrom (htrigger : '\n' ∉ dialect.trigger) {before source : Text} {place : Place}
    (h : (dialect.scanFrom (Place.start.skip before) source).ending = .complete place) :
    Tiles dialect before (dialect.scanFrom (Place.start.skip before) source).segments source ∧
      place = Place.start.skip (before ++ source) := by
  generalize hp : Place.start.skip before = p at h ⊢
  fun_induction scanFrom dialect p source generalizing before with
  | case1 p source segment rest hstep ih =>
    subst hp
    obtain ⟨htail, hplace⟩ := ih (Place.skip_append _ _ _) h
    have hsource := (step_eq_segment hstep).1
    refine ⟨?_, ?_⟩
    · rw [← hsource]
      exact .cons (Segment.fits_of_step htrigger hstep) htail
    · rw [hplace, List.append_assoc, hsource]
  | case2 p source ending hstep =>
    subst hp h
    obtain ⟨rfl, rfl⟩ := step_complete hstep
    exact ⟨.nil before, by rw [List.append_nil]⟩

/-- A scan of a whole source that comes to its end tiles it. -/
lemma tiles_scan (htrigger : '\n' ∉ dialect.trigger) {source : Text} {place : Place}
    (h : (dialect.scan source).ending = .complete place) :
    Tiles dialect [] (dialect.scan source).segments source ∧ place = Place.start.skip source := by
  have hstart : Place.start.skip [] = Place.start := Place.skip_nil _
  have hscan : (dialect.scanFrom (Place.start.skip []) source).ending = .complete place := by
    rw [hstart]
    exact h
  have htiles := tiles_scanFrom htrigger hscan
  rw [hstart] at htiles
  exact htiles

/-- **Scans lose nothing.** When the trigger has no white space and the tokens of a source end with
the end of the input, the source is cut into consecutive segments that are plain text, comments,
whole directive lines and at most one shebang line, on the first line. The tokens are those of the
segments in order. A token of plain text or of a comment stands at the start of its segment, and
every other token of a directive line inside its segment. So the plain text and the comments among
the tokens are what is left of the source without the other segments. -/
theorem exists_tiling {trigger : Text} (hspace : trigger.any Text.isSpace = false)
    (styles : Styles) (source : Text)
    (hend : (tokens ⟨trigger, styles⟩ source).getLast?.map Token.lexeme = some .endOfInput) :
    ∃ segments : List Segment,
      Tiles ⟨trigger, styles⟩ [] segments source ∧
      segments.flatMap Segment.content = source ∧
      tokens ⟨trigger, styles⟩ source =
        segments.flatMap Segment.tokens ++ [⟨.endOfInput, Place.start.skip source⟩] ∧
      (segments.filter Segment.isShebang).length ≤ 1 ∧
      (∀ earlier segment later, segments = earlier ++ segment :: later →
        ∀ token ∈ segment.tokens,
          (earlier.flatMap Segment.content).length ≤ token.place.offset ∧
          token.place.offset <
            (earlier.flatMap Segment.content).length + segment.content.length ∧
          (token.isKept = true →
            token.place.offset = (earlier.flatMap Segment.content).length)) ∧
      ((tokens ⟨trigger, styles⟩ source).filter Token.isKept).flatMap (·.lexeme.value) =
        (segments.filter Segment.isKept).flatMap Segment.content := by
  have htrigger : '\n' ∉ trigger := Text.newline_notMem_of_no_space hspace
  obtain ⟨place, hending⟩ := Scan.ending_of_getLast? hend
  obtain ⟨htiles, hplace⟩ := tiles_scan htrigger hending
  have htokens : tokens ⟨trigger, styles⟩ source =
      (scan ⟨trigger, styles⟩ source).segments.flatMap Segment.tokens ++
        [⟨.endOfInput, Place.start.skip source⟩] := by
    rw [tokens, Scan.tokens, hending, Ending.tokens, hplace]
  refine ⟨_, htiles, htiles.flatMap_content, htokens, htiles.length_filter_isShebang, ?_, ?_⟩
  · intro earlier segment later hsplit token htoken
    obtain ⟨after, hfits⟩ := htiles.exists_fits hsplit
    obtain ⟨hlow, hhigh⟩ := hfits.offset_mem htoken
    exact ⟨hlow, hhigh, hfits.offset_of_isKept htoken⟩
  · rw [htokens, List.filter_append, List.flatMap_append, ← htiles.value_tokens]
    simp [scan]

/-- A source with a shebang line, plain text, a stripped comment, a directive line and a kept
comment is such a source. -/
theorem exists_tiling_mixed :
    ['#'].any Text.isSpace = false ∧
      ∃ segments : List Segment,
        Tiles ⟨['#'], [CommentStyle.doubleSlash.stripped true, CommentStyle.block]⟩ [] segments
          "#!x\nab // c\n\t# include \"d\"\r\n/* e */f".toList ∧
        (segments.filter Segment.isKept).flatMap Segment.content = "ab \n/* e */f".toList := by
  have hend : (tokens ⟨['#'], [CommentStyle.doubleSlash.stripped true, CommentStyle.block]⟩
      "#!x\nab // c\n\t# include \"d\"\r\n/* e */f".toList).getLast?.map Token.lexeme =
        some .endOfInput := by
    decide +kernel
  have hkept : ((tokens ⟨['#'], [CommentStyle.doubleSlash.stripped true, CommentStyle.block]⟩
      "#!x\nab // c\n\t# include \"d\"\r\n/* e */f".toList).filter Token.isKept).flatMap
        (·.lexeme.value) = "ab \n/* e */f".toList := by
    decide +kernel
  obtain ⟨segments, htiles, -, -, -, -, hvalue⟩ := exists_tiling (by decide) _ _ hend
  rw [hkept] at hvalue
  exact ⟨by decide, segments, htiles, hvalue.symm⟩

end Dialect

end Splice

import Mathlib.Data.Nat.Find
import Splice.Proofs.Expansion.Tree
import Splice.Proofs.Grammar
import Splice.Proofs.Stripping

/-!
# Comments and their styles

The style of a comment is looked up two times: in the source, at the place where the comment opens,
and later in the comment alone, when it becomes a node. Both lookups find the same style, because
the comment is a piece of the source there and holds the whole opening delimiter of its style
(`Dialect.isComment_of_mem_tokens`). So each comment in the tree of a run has a style, and it is the
one by which the comment was found.

Where a comment ends is said by its style: after the first closing delimiter that comes after the
opening one, or before the first line end if the style has no closing delimiter, or else at the end
of the source (`CommentStyle.EndsAt`).
-/

namespace Splice

/-! ### Searching a text -/

namespace Text

/-- `mark` occurs in a text at the offset `found`, and at no offset from `start` to there. -/
structure FirstFrom (source mark : Text) (start found : Nat) : Prop where
  start_le : start ≤ found
  occurs : mark <+: source.drop found
  first : ∀ k, start ≤ k → k < found → ¬ mark <+: source.drop k

/-- A mark that occurs at all from some offset on has a first occurrence. -/
lemma exists_firstFrom {source mark : Text} {start k : Nat} (hstart : start ≤ k)
    (h : mark <+: source.drop k) : ∃ found, source.FirstFrom mark start found := by
  classical
  have hexists : ∃ n, start ≤ n ∧ mark <+: source.drop n := ⟨k, hstart, h⟩
  refine ⟨Nat.find hexists, (Nat.find_spec hexists).1, (Nat.find_spec hexists).2, ?_⟩
  intro n hn hlt hoccurs
  exact Nat.find_min hexists hlt ⟨hn, hoccurs⟩

/-- The first occurrence in a text after its first character. -/
lemma FirstFrom.tail {c : Char} {source mark : Text} {found : Nat}
    (h : FirstFrom (c :: source) mark 0 (found + 1)) : source.FirstFrom mark 0 found where
  start_le := Nat.zero_le _
  occurs := h.occurs
  first k _ hlt := h.first (k + 1) (Nat.zero_le _) (Nat.succ_lt_succ hlt)

/-- A search in what comes after an offset is a search in the whole text from there on. -/
lemma FirstFrom.of_drop {source mark : Text} {start found : Nat}
    (h : FirstFrom (source.drop start) mark 0 found) :
    source.FirstFrom mark start (start + found) where
  start_le := Nat.le_add_right _ _
  occurs := by
    have hoccurs := h.occurs
    rw [List.drop_drop] at hoccurs
    exact hoccurs
  first k hstart hlt := by
    intro hoccurs
    apply h.first (k - start) (Nat.zero_le _) (by omega)
    rw [List.drop_drop, Nat.add_sub_cancel' hstart]
    exact hoccurs

/-- A text up to and with the first occurrence of a mark. -/
lemma through_of_firstFrom {source mark : Text} {found : Nat}
    (h : source.FirstFrom mark 0 found) (hmark : mark ≠ []) :
    source.through mark = source.take (found + mark.length) := by
  induction source generalizing found with
  | nil =>
    have hnil := h.occurs
    rw [List.drop_nil, List.prefix_nil] at hnil
    exact absurd hnil hmark
  | cons c source ih =>
    rw [through]
    cases found with
    | zero =>
      have hprefix : mark <+: c :: source := h.occurs
      rw [if_pos (List.isPrefixOf_iff_prefix.2 hprefix), Nat.zero_add]
      exact List.prefix_iff_eq_take.1 hprefix
    | succ found =>
      have hnot : ¬ mark <+: c :: source := h.first 0 (Nat.le_refl 0) (Nat.succ_pos found)
      rw [if_neg (fun hprefix => hnot (List.isPrefixOf_iff_prefix.1 hprefix)), ih h.tail,
        Nat.add_right_comm, List.take_succ_cons]

/-- All of a text in which a mark does not occur. -/
lemma through_of_absent {source mark : Text} (h : ∀ k, ¬ mark <+: source.drop k) :
    source.through mark = source := by
  induction source with
  | nil => rfl
  | cons c source ih =>
    have hnot : ¬ mark <+: c :: source := h 0
    rw [through, if_neg (fun hprefix => hnot (List.isPrefixOf_iff_prefix.1 hprefix)),
      ih (fun k => h (k + 1))]

/-- A text up to its first line end. -/
lemma firstLine_of_firstFrom {source : Text} {found : Nat}
    (h : source.FirstFrom ['\n'] 0 found) : source.firstLine = source.take found := by
  induction source generalizing found with
  | nil => simp [firstLine]
  | cons c source ih =>
    cases found with
    | zero =>
      obtain ⟨rest, hrest⟩ := h.occurs
      obtain ⟨rfl, -⟩ := List.cons.inj hrest
      rfl
    | succ found =>
      have hnot : c ≠ '\n' := by
        rintro rfl
        exact h.first 0 (Nat.le_refl 0) (Nat.succ_pos found) ⟨source, rfl⟩
      have htail : firstLine source = source.take found := ih h.tail
      rw [List.take_succ_cons, ← htail]
      exact List.takeWhile_cons_of_pos (by simpa using hnot)

/-- All of a text without line ends. -/
lemma firstLine_of_absent {source : Text} (h : ∀ k, ¬ ['\n'] <+: source.drop k) :
    source.firstLine = source := by
  refine List.takeWhile_eq_self_iff.2 ?_
  intro c hc
  obtain ⟨before, after, rfl⟩ := List.append_of_mem hc
  have hnot := h before.length
  rw [List.drop_left] at hnot
  have hne : c ≠ '\n' := by
    rintro rfl
    exact hnot ⟨after, rfl⟩
  simpa using hne

end Text

namespace CommentStyle

/-- What ends the comments of a style: its closing delimiter, or a line end if that is empty. -/
def mark (style : CommentStyle) : Text :=
  if style.closer = [] then ['\n'] else style.closer

/-- Where a comment of a style ends in a source, with its opening delimiter ending at `start`. A
closing delimiter is part of the comment and a line end is not. A comment that is not ended runs to
the end of the source. -/
inductive EndsAt (style : CommentStyle) (source : Text) (start : Nat) : Nat → Prop where
  | found {found : Nat} (hfirst : source.FirstFrom style.mark start found) :
    EndsAt style source start (found + style.closer.length)
  | unclosed (habsent : ∀ k, start ≤ k → ¬ style.mark <+: source.drop k) :
    EndsAt style source start source.length

/-- A comment with its opening delimiter taken off goes on up to what ends it. -/
lemma body_of_firstFrom {style : CommentStyle} {source : Text} {found : Nat}
    (h : source.FirstFrom style.mark 0 found) :
    style.body source = source.take (found + style.closer.length) := by
  unfold mark at h
  unfold body
  split
  · rename_i hcloser
    rw [if_pos hcloser] at h
    rw [Text.firstLine_of_firstFrom h, hcloser]
    rfl
  · rename_i hcloser
    rw [if_neg hcloser] at h
    exact Text.through_of_firstFrom h hcloser

/-- A comment that is not ended goes on to the end of the source. -/
lemma body_of_absent {style : CommentStyle} {source : Text}
    (h : ∀ k, ¬ style.mark <+: source.drop k) : style.body source = source := by
  unfold mark at h
  unfold body
  split
  · rename_i hcloser
    rw [if_pos hcloser] at h
    exact Text.firstLine_of_absent h
  · rename_i hcloser
    rw [if_neg hcloser] at h
    exact Text.through_of_absent h

/-- A comment that opens at an offset of a source is the piece of the source from there to its
end. -/
lemma exists_endsAt {style : CommentStyle} {source : Text} {offset : Nat}
    (h : style.opens (source.drop offset)) :
    ∃ stop, style.EndsAt source (offset + style.opener.length) stop ∧
      style.extent (source.drop offset) = (source.take stop).drop offset := by
  obtain ⟨rest, hrest⟩ := List.isPrefixOf_iff_prefix.1 h
  have hafter : source.drop (offset + style.opener.length) = rest := by
    rw [← List.drop_drop, ← hrest, List.drop_left]
  have hextent : style.extent (source.drop offset) = style.opener ++ style.body rest := by
    rw [extent, ← hrest, List.drop_left]
  rw [hextent]
  by_cases hends : ∃ k, style.mark <+: rest.drop k
  · obtain ⟨k, hk⟩ := hends
    obtain ⟨found, hfound⟩ := Text.exists_firstFrom (Nat.zero_le k) hk
    have hfirst : source.FirstFrom style.mark (offset + style.opener.length)
        (offset + style.opener.length + found) := by
      apply Text.FirstFrom.of_drop
      rw [hafter]
      exact hfound
    refine ⟨_, .found hfirst, ?_⟩
    rw [body_of_firstFrom hfound, List.drop_take, ← hrest, Nat.add_assoc, Nat.add_assoc,
      Nat.add_sub_cancel_left, List.take_length_add_append]
  · have habsent : ∀ k, ¬ style.mark <+: rest.drop k := fun k hk => hends ⟨k, hk⟩
    refine ⟨source.length, .unclosed ?_, ?_⟩
    · intro k hk hmark
      apply habsent (k - (offset + style.opener.length))
      rw [← hafter, List.drop_drop, Nat.add_sub_cancel' hk]
      exact hmark
    · rw [body_of_absent habsent, hrest, List.take_length]

end CommentStyle

/-! ### Comments of a source -/

namespace Dialect

/-- A piece `content` of a source, at an offset, is a comment of a style that is kept: the style is
the first one that opens there, and also the first one that opens in the comment alone. -/
structure IsComment (dialect : Dialect) (source : Text) (offset : Nat) (content : Text)
    (style : CommentStyle) : Prop where
  matched : dialect.styles.first? (source.drop offset) = some style
  found_again : dialect.styles.first? content = some style
  kept : style.strip = false
  opens : style.opener <+: content
  ends : ∃ stop, style.EndsAt source (offset + style.opener.length) stop ∧
    content = (source.take stop).drop offset

variable {dialect : Dialect} {source : Text}

/-- A comment token comes from a segment that is a comment, of a style that is kept. -/
lemma exists_segment_of_comment {content : Text} {place : Place}
    (h : ⟨.comment content, place⟩ ∈ dialect.tokens source) :
    ∃ style, .comment place style content ∈ (dialect.scan source).segments ∧
      style.strip = false := by
  rcases List.mem_append.1 h with h | h
  · obtain ⟨segment, hsegment, htoken⟩ := List.mem_flatMap.1 h
    cases segment with
    | text p s => simp [Segment.tokens] at htoken
    | comment p style s =>
      rw [Segment.tokens] at htoken
      split at htoken
      · simp at htoken
      · rename_i hstrip
        cases List.mem_singleton.1 htoken
        exact ⟨style, hsegment, by simpa using hstrip⟩
    | directive p s tokens =>
      obtain ⟨here, text, rest, hstep⟩ := exists_step_of_mem hsegment
      cases isKept_of_mem_directive hstep htoken
    | shebang p s => simp [Segment.tokens] at htoken
  · cases isKept_of_mem_ending h

/-- A comment token of a source is a comment. -/
lemma isComment_of_mem_tokens {content : Text} {place : Place}
    (h : ⟨.comment content, place⟩ ∈ dialect.tokens source) :
    ∃ style, dialect.IsComment source place.offset content style := by
  obtain ⟨style, hsegment, hstrip⟩ := exists_segment_of_comment h
  obtain ⟨hmatched, rfl⟩ := first?_of_mem_segments hsegment
  refine ⟨style, hmatched, Styles.first?_extent hmatched, hstrip, ?_, ?_⟩
  · exact List.prefix_append _ _
  · exact CommentStyle.exists_endsAt (Styles.opens_of_first? hmatched)

end Dialect

/-! ### Comments of a tree -/

namespace Plan

variable {plan : Plan}

/-- A comment among the children of a file is one of its items, with the style of the settings that
opens it. -/
lemma Yields.of_mem_comment {name : String} {items : List Item} {nodes : List Node}
    (h : plan.Yields name items nodes) {location : Position} {content : Text}
    {style : Option CommentStyle} (hmem : .comment location content style ∈ nodes) :
    .comment location content ∈ items ∧ ∃ styles, plan.settings.styles = some styles ∧
      style = styles.first? content := by
  induction h with
  | nil name => cases hmem
  | text _ _ htail ih =>
    rcases List.mem_cons.1 hmem with hnone | hmem
    · cases hnone
    · exact ⟨List.mem_cons_of_mem _ (ih hmem).1, (ih hmem).2⟩
  | comment _ _ hstyles htail ih =>
    rcases List.mem_cons.1 hmem with hcomment | hmem
    · cases hcomment
      exact ⟨List.mem_cons_self, _, hstyles, rfl⟩
    · exact ⟨List.mem_cons_of_mem _ (ih hmem).1, (ih hmem).2⟩
  | skipped honce htail ih => exact ⟨List.mem_cons_of_mem _ (ih hmem).1, (ih hmem).2⟩
  | spliced htarget hidentity hread hchildren htail ihchildren ihtail =>
    rcases List.mem_cons.1 hmem with hnone | hmem
    · cases hnone
    · exact ⟨List.mem_cons_of_mem _ (ihtail hmem).1, (ihtail hmem).2⟩

/-- Each comment among the children of the file `name` with the text `source` has the style by which
it was found in this text, at its own location. -/
def KeepsStyles (plan : Plan) (name : String) (source : Text) (children : List Node) : Prop :=
  ∀ location content style, .comment location content style ∈ children →
    ∃ place found, ⟨.comment content, place⟩ ∈ plan.dialect.tokens source ∧
      location = place.position name ∧ style = some found ∧
      plan.dialect.IsComment source place.offset content found

/-- The comments of a file are found by the styles of the settings, and keep the style that they
were found by. -/
lemma Yields.keepsStyles {name : String} {source : Text} {children : List Node}
    (h : plan.Yields name (plan.dialect.items name source) children) :
    plan.KeepsStyles name source children := by
  intro location content style hmem
  obtain ⟨hitem, styles, hstyles, rfl⟩ := h.of_mem_comment hmem
  cases Item.comesFrom_of_mem hitem with
  | @comment _ place htoken =>
    obtain ⟨found, hcomment⟩ := Dialect.isComment_of_mem_tokens htoken
    have hdialect : plan.dialect.styles = styles := by
      simp [dialect, scanStyles, hstyles]
    refine ⟨place, found, htoken, rfl, ?_, hcomment⟩
    rw [← hdialect]
    exact hcomment.found_again

/-- All comments in the tree of the file `name` with the text `content` have the style by which they
were found, those of the files spliced in included. -/
def TreeKeepsStyles (plan : Plan) (name : String) (content : Text) (root : Node) : Prop :=
  (∃ location path children, root = .file location name path children ∧
    plan.KeepsStyles name content children) ∧
  ∀ location inner path children, .file location inner path children ∈ root.files →
    ∃ source, plan.loader.read inner = .ok source ∧ plan.KeepsStyles inner source children

/-- The comments of a file and of the files spliced into it keep their styles. -/
lemma Yields.treeKeepsStyles {name path : String} {location : Position} {content : Text}
    {children : List Node} (h : plan.Yields name (plan.dialect.items name content) children) :
    plan.TreeKeepsStyles name content (.file location name path children) := by
  constructor
  · exact ⟨location, path, children, rfl, h.keepsStyles⟩
  · intro there inner path' nodes hmem
    rw [Node.files] at hmem
    obtain ⟨-, source, hread, hnodes⟩ := h.of_mem_filesAll hmem
    exact ⟨source, hread, hnodes.keepsStyles⟩

end Plan

/-- **Comments keep the style they are found by.** A comment token of any source, for any trigger
and styles, is a comment of a style that is kept, and this style is found in the source and in the
comment alone. So each comment in the tree that a run returns has a style, and it is the one by
which the comment was found in the text of its file. -/
theorem comments_keep_styles (context : Context) (settings : Option Settings) (loader : Loader) :
    (∀ (dialect : Dialect) (source content : Text) (place : Place),
      ⟨.comment content, place⟩ ∈ dialect.tokens source →
      ∃ style, dialect.IsComment source place.offset content style) ∧
    (∀ name content session root,
      runText context settings loader name content = (session, .ok root) →
      (context.plan settings loader).TreeKeepsStyles name content root) ∧
    (∀ path session root, runFile context settings loader path = (session, .ok root) →
      ∃ content, loader.read path = .ok content ∧
        (context.plan settings loader).TreeKeepsStyles path content root) := by
  refine ⟨?_, ?_, ?_⟩
  · intro dialect source content place htoken
    exact Dialect.isComment_of_mem_tokens htoken
  · intro name content session root h
    obtain ⟨children, rfl, hyields⟩ := yields_of_runText h
    exact hyields.treeKeepsStyles
  · intro path session root h
    obtain ⟨identity, content, children, -, hread, rfl, hyields⟩ := yields_of_runFile h
    exact ⟨content, hread, hyields.treeKeepsStyles⟩

/-- Settings with two styles of comments that open with the same character. -/
def Settings.slashes : Settings :=
  (Settings.default.addStyle .block).addStyle .doubleSlash

/-- A text with two comments, of which the first one opens with what could close it. -/
def Text.slashes : Text :=
  "a /*/ b */ // c\n".toList

/-- The tree of this text. -/
def Node.slashes : Node :=
  .file ⟨"m", 1, 1⟩ "m" "m" [.text ⟨"m", 1, 1⟩ "a ".toList,
    .comment ⟨"m", 1, 3⟩ "/*/ b */".toList (some .block), .text ⟨"m", 1, 11⟩ " ".toList,
    .comment ⟨"m", 1, 12⟩ "// c".toList (some .doubleSlash), .text ⟨"m", 1, 16⟩ "\n".toList]

/-- In this text, each comment has the style by which it is found. -/
theorem comments_keep_styles_slashes :
    ⟨.comment "/*/ b */".toList, ⟨2, 1, 3⟩⟩ ∈
        Dialect.tokens ⟨['#'], [.block, .doubleSlash]⟩ Text.slashes ∧
      (∃ style, Dialect.IsComment ⟨['#'], [.block, .doubleSlash]⟩ Text.slashes 2
        "/*/ b */".toList style) ∧
      (runText .initial (some .slashes) (Catalogue.loader ⟨[]⟩) "m" Text.slashes).2 =
        .ok .slashes ∧
      (Context.initial.plan (some .slashes) (Catalogue.loader ⟨[]⟩)).TreeKeepsStyles "m"
        Text.slashes .slashes := by
  obtain ⟨htokens, htexts, -⟩ :=
    comments_keep_styles .initial (some .slashes) (Catalogue.loader ⟨[]⟩)
  have htoken : ⟨.comment "/*/ b */".toList, ⟨2, 1, 3⟩⟩ ∈
      Dialect.tokens ⟨['#'], [.block, .doubleSlash]⟩ Text.slashes := by
    decide +kernel
  have hroot : (runText .initial (some .slashes) (Catalogue.loader ⟨[]⟩) "m" Text.slashes).2 =
      .ok .slashes := by
    decide +kernel
  exact ⟨htoken, htokens _ _ _ _ htoken, hroot, htexts _ _ _ _ (Prod.ext rfl hroot)⟩

end Splice

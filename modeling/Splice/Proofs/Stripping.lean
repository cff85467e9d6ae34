import Mathlib.Data.List.Basic
import Splice.Proofs.Expansion.Rendering

/-!
# Stripping only drops comments

What is left when the comments of some styles are stripped is compared with what there is when all
comments are kept. Scanning goes through the same steps, because whether a style is stripped decides
neither where its comments begin nor where they end, so the tokens differ in the stripped comments
only (`Dialect.tokens_eq_filter`). Then the items and the children of files differ in the same way,
while requests are answered with the same questions to the loader (`Plan.Strips.expand_eq`), and so
do whole runs.
-/

namespace Splice

/-! ### Styles and comments -/

namespace CommentStyle

/-- A comment opens its style also when the text after the comment is left out. -/
lemma opens_extent (style : CommentStyle) (source : Text) : style.opens (style.extent source) := by
  rw [opens, List.isPrefixOf_iff_prefix]
  exact List.prefix_append _ _

/-- A style that is not stripped stays the same when it is said to be kept. -/
lemma stripped_false {style : CommentStyle} (h : style.strip = false) :
    style.stripped false = style := by
  obtain ⟨opener, closer, strip, hopener⟩ := style
  cases h
  rfl

end CommentStyle

namespace Styles

/-- The same styles, with no comments stripped. -/
def keepAll (styles : Styles) : Styles :=
  styles.map (·.stripped false)

/-- Whether a comment, given as a text that starts with it, is stripped. -/
def strips (styles : Styles) (source : Text) : Bool :=
  (styles.first? source).any (·.strip)

/-- The style that opens is the same when all comments are kept. -/
lemma first?_keepAll (styles : Styles) (source : Text) :
    styles.keepAll.first? source = (styles.first? source).map (·.stripped false) := by
  rw [keepAll, first?, List.find?_map]
  rfl

/-- The style of a comment can be told from the comment alone: none of the styles before it opens
there, as none opens in the source. -/
lemma first?_extent {styles : Styles} {source : Text} {style : CommentStyle}
    (h : styles.first? source = some style) :
    styles.first? (style.extent source) = some style := by
  have hprefix := CommentStyle.extent_isPrefix (opens_of_first? h)
  obtain ⟨-, earlier, later, hstyles, hearlier⟩ := List.find?_eq_some_iff_append.1 h
  refine List.find?_eq_some_iff_append.2
    ⟨style.opens_extent source, earlier, later, hstyles, fun other hother => ?_⟩
  have hclosed := hearlier other hother
  rw [Bool.not_eq_true'] at hclosed ⊢
  rw [Bool.eq_false_iff] at hclosed ⊢
  intro hopens
  apply hclosed
  have hopener := List.isPrefixOf_iff_prefix.1 hopens
  exact List.isPrefixOf_iff_prefix.2 (hopener.trans hprefix)

/-- A comment is stripped exactly if its style is. -/
lemma strips_extent {styles : Styles} {source : Text} {style : CommentStyle}
    (h : styles.first? source = some style) :
    styles.strips (style.extent source) = style.strip := by
  rw [strips, first?_extent h, Option.any_some]

/-- The style of a comment that is not stripped stays the same when all comments are kept. -/
lemma first?_keepAll_of_not_strips {styles : Styles} {source : Text}
    (h : styles.strips source = false) : styles.keepAll.first? source = styles.first? source := by
  rw [first?_keepAll]
  cases hfirst : styles.first? source with
  | none => rfl
  | some style =>
    rw [strips, hfirst, Option.any_some] at h
    rw [Option.map_some, CommentStyle.stripped_false h]

end Styles

/-! ### Scanning -/

/-- The event, with the style said to be kept if it is a comment. -/
def Event.keep : Event → Event
  | .directive => .directive
  | .comment style => .comment (style.stripped false)

/-- The segment, with its style said to be kept if it is a comment. -/
def Segment.keep : Segment → Segment
  | .text place content => .text place content
  | .comment place style content => .comment place (style.stripped false) content
  | .directive place content tokens => .directive place content tokens
  | .shebang place content => .shebang place content

/-- Keeping comments does not change what a segment covers. -/
lemma Segment.content_keep (segment : Segment) : segment.keep.content = segment.content := by
  cases segment <;> rfl

namespace Dialect

variable {dialect : Dialect} {place : Place} {source rest : Text}

/-- The step, with the style said to be kept if it cuts off a comment. -/
def Step.keep : Step → Step
  | .segment cut rest => .segment cut.keep rest
  | .ending stop => .ending stop

/-- The dialect in which all comments are kept. -/
def keepAll (dialect : Dialect) : Dialect :=
  ⟨dialect.trigger, dialect.styles.keepAll⟩

/-- The event at the start of a text is of the same kind when all comments are kept. -/
lemma event?_keepAll (dialect : Dialect) (lineStart : Bool) (source : Text) :
    dialect.keepAll.event? lineStart source = (dialect.event? lineStart source).map Event.keep := by
  cases source with
  | nil => rfl
  | cons c s =>
    unfold event? keepAll
    dsimp only
    split
    · rfl
    · split
      · rfl
      · rw [Styles.first?_keepAll, Option.map_map, Option.map_map]
        rfl

/-- Plain text ends at the same point when all comments are kept. -/
lemma plain_keepAll (dialect : Dialect) (lineStart : Bool) (source : Text) :
    dialect.keepAll.plain lineStart source = dialect.plain lineStart source := by
  induction source generalizing lineStart with
  | nil => rfl
  | cons c s ih => rw [plain, plain, event?_keepAll, Option.isNone_map, ih]

/-- Directive lines and shebang lines are no comments. -/
lemma keep_directive (dialect : Dialect) (place : Place) (source : Text) :
    (dialect.directive place source).keep = dialect.directive place source := by
  unfold directive
  dsimp only
  split
  · split <;> rfl
  · split <;> rfl

/-- A step goes the same way when all comments are kept. -/
lemma step_keepAll (dialect : Dialect) (place : Place) (source : Text) :
    dialect.keepAll.step place source = (dialect.step place source).keep := by
  unfold step
  rw [event?_keepAll]
  cases dialect.event? place.isLineStart source with
  | none =>
    cases source with
    | nil => rfl
    | cons c s =>
      dsimp only [Option.map_none]
      rw [plain_keepAll]
      rfl
  | some event =>
    cases event with
    | directive => exact (keep_directive dialect place source).symm
    | comment style => rfl

/-- A scan cuts the source at the same points when all comments are kept. The induction is on the
steps of the scan. -/
lemma scanFrom_keepAll (dialect : Dialect) (place : Place) (source : Text) :
    dialect.keepAll.scanFrom place source =
      ⟨(dialect.scanFrom place source).segments.map Segment.keep,
        (dialect.scanFrom place source).ending⟩ := by
  fun_induction scanFrom dialect place source with
  | case1 place source segment rest hstep ih =>
    have hkeep : dialect.keepAll.step place source = .segment segment.keep rest := by
      rw [step_keepAll, hstep, Step.keep]
    rw [scanFrom_eq_cons hkeep, Segment.content_keep, ih]
    rfl
  | case2 place source ending hstep =>
    have hkeep : dialect.keepAll.step place source = .ending ending := by
      rw [step_keepAll, hstep, Step.keep]
    rw [scanFrom_eq_ending hkeep]
    rfl

end Dialect

/-- Whether a token is a comment that is stripped. -/
def Token.isDropped (styles : Styles) (token : Token) : Bool :=
  match token.lexeme with
  | .comment content => styles.strips content
  | _ => false

/-- Only kept tokens can be dropped. -/
lemma Token.isDropped_of_isKept {styles : Styles} {token : Token} (h : token.isKept = false) :
    token.isDropped styles = false := by
  obtain ⟨lexeme, place⟩ := token
  cases lexeme with
  | comment content => simp at h
  | _ => rfl

namespace Dialect

variable {dialect : Dialect} {place : Place} {source rest : Text}

/-- Of a comment that a step cuts off, the comment alone tells whether it is stripped. -/
lemma strips_of_step {p : Place} {style : CommentStyle} {content : Text}
    (h : dialect.step place source = .segment (.comment p style content) rest) :
    dialect.styles.strips content = style.strip := by
  obtain ⟨hfirst, rfl⟩ := step_comment h
  exact Styles.strips_extent hfirst

/-- A segment has the tokens that it has when all comments are kept, without those that are
dropped. -/
lemma tokens_of_step {segment : Segment}
    (h : dialect.step place source = .segment segment rest) :
    segment.tokens = segment.keep.tokens.filter (fun token => !token.isDropped dialect.styles) := by
  cases segment with
  | text p content => rfl
  | comment p style content =>
    have hstrips := strips_of_step h
    cases hstrip : style.strip with
    | true =>
      simp [Segment.tokens, Segment.keep, CommentStyle.stripped, Token.isDropped, hstrips, hstrip]
    | false =>
      simp [Segment.tokens, Segment.keep, CommentStyle.stripped, Token.isDropped, hstrips, hstrip]
  | directive p content tokens =>
    symm
    rw [Segment.keep, Segment.tokens, List.filter_eq_self]
    intro token htoken
    rw [Token.isDropped_of_isKept (isKept_of_mem_directive h htoken), Bool.not_false]
  | shebang p content => rfl

/-- The tokens of a source are those that it has when all comments are kept, without those that are
dropped. -/
lemma tokens_eq_filter (dialect : Dialect) (source : Text) :
    dialect.tokens source =
      (dialect.keepAll.tokens source).filter (fun token => !token.isDropped dialect.styles) := by
  have hsegments : (dialect.scan source).segments.flatMap Segment.tokens =
      ((dialect.scan source).segments.map Segment.keep |>.flatMap Segment.tokens).filter
        (fun token => !token.isDropped dialect.styles) := by
    rw [List.flatMap_map, List.filter_flatMap]
    refine List.flatMap_congr fun segment hsegment => ?_
    obtain ⟨here, text, rest, hstep⟩ := exists_step_of_mem hsegment
    exact tokens_of_step hstep
  have hending : (dialect.scan source).ending.tokens =
      (dialect.scan source).ending.tokens.filter
        (fun token => !token.isDropped dialect.styles) := by
    symm
    rw [List.filter_eq_self]
    intro token htoken
    rw [Token.isDropped_of_isKept (isKept_of_mem_ending htoken), Bool.not_false]
  rw [tokens, tokens, scan, scan, scanFrom_keepAll, Scan.tokens, Scan.tokens, List.filter_append]
  exact congrArg₂ (· ++ ·) hsegments hending

end Dialect

/-! ### Items -/

/-- Whether an item is a comment that is stripped. -/
def Item.isDropped (styles : Styles) : Item → Bool
  | .comment _ content => styles.strips content
  | _ => false

namespace Dialect

/-- The items of segments are those that they have when all comments are kept, without those that
are dropped. The induction is on the segments. -/
lemma ofSegments_eq_filter {styles : Styles} {name : String} {rest : List Item}
    {segments : List Segment}
    (hwhole : ∀ place content tokens, .directive place content tokens ∈ segments →
      Line.IsWhole tokens)
    (hstrips : ∀ place style content, .comment place style content ∈ segments →
      styles.strips content = style.strip)
    (hrest : rest = rest.filter (fun item => !item.isDropped styles)) :
    Item.ofSegments name rest segments =
      (Item.ofSegments name rest (segments.map Segment.keep)).filter
        (fun item => !item.isDropped styles) := by
  induction segments with
  | nil => exact hrest
  | cons segment segments ih =>
    have htail := ih
      (fun place content tokens hmem => hwhole place content tokens (List.mem_cons_of_mem _ hmem))
      (fun place style content hmem => hstrips place style content (List.mem_cons_of_mem _ hmem))
    cases segment with
    | text place content =>
      rw [List.map_cons, Segment.keep, Item.ofSegments, Item.ofSegments, htail]
      rfl
    | comment place style content =>
      have hstrip := hstrips place style content List.mem_cons_self
      rw [List.map_cons, Segment.keep, Item.ofSegments, Item.ofSegments, htail]
      cases hstyle : style.strip with
      | true => simp [CommentStyle.stripped, Item.isDropped, hstrip, hstyle]
      | false => simp [CommentStyle.stripped, Item.isDropped, hstrip, hstyle]
    | directive place content tokens =>
      rw [List.map_cons, Segment.keep, Item.ofSegments, Item.ofSegments, htail]
      cases hrequest : Request.ofLine? name tokens with
      | some request => rfl
      | none =>
        obtain ⟨diagnostic, hfailure⟩ := Item.ofTokens_of_no_request
          (hwhole place content tokens List.mem_cons_self) hrequest
        simp only [hfailure]
        rfl
    | shebang place content =>
      rw [List.map_cons, Segment.keep, Item.ofSegments, Item.ofSegments, htail]

/-- The items of a source are those that it has when all comments are kept, without those that are
dropped. -/
lemma items_eq_filter (dialect : Dialect) (name : String) (source : Text) :
    dialect.items name source =
      (dialect.keepAll.items name source).filter
        (fun item => !item.isDropped dialect.styles) := by
  rw [items_eq_ofSegments, items_eq_ofSegments, scan, scan, scanFrom_keepAll]
  apply ofSegments_eq_filter
  · intro place content tokens hmem
    exact isWhole_of_mem_segments hmem
  · intro place style content hmem
    obtain ⟨here, text, rest, hstep⟩ := exists_step_of_mem hmem
    exact strips_of_step hstep
  · rcases dialect.ofTokens_ending name .start source with ⟨-, hnil⟩ | ⟨diagnostic, hfailure⟩
    · rw [hnil]
      rfl
    · rw [hfailure]
      rfl

end Dialect

/-! ### Trees -/

namespace Node

/-- Whether a node is a comment that is stripped. -/
def isDropped (styles : Styles) : Node → Bool
  | comment _ content _ => styles.strips content
  | _ => false

mutual

/-- The tree of a file without the comments that are stripped, at every level. -/
def prune (styles : Styles) : Node → Node
  | text location content => text location content
  | comment location content style => comment location content style
  | file location name path children => file location name path (pruneAll styles children)

/-- Nodes in a row without the comments that are stripped, at every level. -/
def pruneAll (styles : Styles) : List Node → List Node
  | [] => []
  | node :: nodes =>
    if node.isDropped styles then pruneAll styles nodes
    else node.prune styles :: pruneAll styles nodes

end

/-- Pruning goes through nodes in a row one after the other. -/
lemma pruneAll_append (styles : Styles) (nodes others : List Node) :
    pruneAll styles (nodes ++ others) = pruneAll styles nodes ++ pruneAll styles others := by
  induction nodes with
  | nil => rfl
  | cons node nodes ih =>
    rw [List.cons_append, pruneAll, pruneAll, ih]
    split <;> rfl

end Node

namespace Plan

/-- Two plans that differ in whether comments are stripped: `plan` has the comment styles `styles`,
and `plan₀` has the same ones but keeps all comments. -/
structure Strips (styles : Styles) (plan plan₀ : Plan) : Prop where
  trigger_eq : plan.settings.trigger = plan₀.settings.trigger
  maxDepth_eq : plan.settings.maxDepth = plan₀.settings.maxDepth
  loader_eq : plan.loader = plan₀.loader
  styles_eq : plan.settings.styles = some styles
  keepAll_eq : plan₀.settings.styles = some styles.keepAll

variable {styles : Styles} {plan plan₀ : Plan}

/-- The items of a source under two such plans differ in the comments that are dropped. -/
lemma Strips.items_eq (h : Strips styles plan plan₀) (name : String) (source : Text) :
    plan.dialect.items name source =
      (plan₀.dialect.items name source).filter (fun item => !item.isDropped styles) := by
  have hdialect : plan.dialect = ⟨plan₀.settings.trigger, styles⟩ := by
    rw [dialect, scanStyles, h.trigger_eq, h.styles_eq]
    rfl
  have hdialect₀ : plan₀.dialect = Dialect.keepAll ⟨plan₀.settings.trigger, styles⟩ := by
    rw [dialect, scanStyles, h.keepAll_eq]
    rfl
  rw [hdialect, hdialect₀, Dialect.items_eq_filter]

/-- A path has the same identity and content under two such plans. -/
lemma Strips.find_eq (h : Strips styles plan plan₀) (path : String) (location : Position) :
    plan.find path location = plan₀.find path location := by
  rw [find, find, read, read, h.loader_eq]

/-- Plain text is the same leaf under two such plans. -/
lemma Strips.textLeaf_eq (h : Strips styles plan plan₀) (location : Position) (content : Text) :
    plan.textLeaf location content = .ok (.text location content) ∧
      plan₀.textLeaf location content = .ok (.text location content) := by
  refine ⟨?_, ?_⟩
  · rw [textLeaf, scanStyles, h.styles_eq]
    rfl
  · rw [textLeaf, scanStyles, h.keepAll_eq]
    rfl

/-- A comment is a leaf with its style under two such plans. -/
lemma Strips.commentLeaf_eq (h : Strips styles plan plan₀) (location : Position)
    (content : Text) :
    plan.commentLeaf location content =
        .ok (.comment location content (styles.first? content)) ∧
      plan₀.commentLeaf location content =
        .ok (.comment location content (styles.keepAll.first? content)) := by
  refine ⟨?_, ?_⟩
  · rw [commentLeaf, h.styles_eq]
  · rw [commentLeaf, h.keepAll_eq]

/-- An item that is not dropped stands for the children that it stands for when all comments are
kept, without those that are stripped. -/
lemma Strips.step_eq (h : Strips styles plan plan₀)
    {answer answer₀ : Request → Ledger → Expansion (Option Node)}
    (hanswer : ∀ request ledger, (answer request ledger).map Option.toList =
      (answer₀ request ledger).map (fun node? => Node.pruneAll styles node?.toList))
    {item : Item} (hitem : item.isDropped styles = false) (ledger : Ledger) :
    plan.step answer item ledger =
      (plan₀.step answer₀ item ledger).map (Node.pruneAll styles) := by
  cases item with
  | text location content =>
    obtain ⟨hleaf, hleaf₀⟩ := h.textLeaf_eq location content
    rw [step, step, hleaf, hleaf₀]
    rfl
  | comment location content =>
    have hkept : (Node.comment location content (styles.keepAll.first? content)).isDropped styles =
        false := hitem
    have hprune : Node.pruneAll styles
        [.comment location content (styles.keepAll.first? content)] =
          [.comment location content (styles.first? content)] := by
      rw [Node.pruneAll, if_neg (Bool.eq_false_iff.1 hkept), Node.prune, Node.pruneAll,
        Styles.first?_keepAll_of_not_strips hitem]
    obtain ⟨hleaf, hleaf₀⟩ := h.commentLeaf_eq location content
    rw [step, step, hleaf, hleaf₀, Except.map, ← hprune]
    rfl
  | request request =>
    rw [step_request, step_request, hanswer, Expansion.map_map]
    rfl
  | failure diagnostic => rfl

/-- A dropped item is one leaf when all comments are kept, which is stripped. -/
lemma Strips.step_of_isDropped (h : Strips styles plan plan₀)
    (answer₀ : Request → Ledger → Expansion (Option Node)) {item : Item}
    (hitem : item.isDropped styles = true) (ledger : Ledger) :
    ∃ nodes, plan₀.step answer₀ item ledger = (ledger, .ok nodes) ∧
      Node.pruneAll styles nodes = [] := by
  cases item with
  | comment location content =>
    have hdropped :
        (Node.comment location content (styles.keepAll.first? content)).isDropped styles = true :=
      hitem
    refine ⟨[.comment location content (styles.keepAll.first? content)], ?_, ?_⟩
    · rw [step, (h.commentLeaf_eq location content).2]
      rfl
    · rw [Node.pruneAll, if_pos hdropped, Node.pruneAll]
  | _ => cases hitem

/-- Pruning goes through the children in front and those of the other items one after the other. -/
lemma map_pruneAll_append (styles : Styles) (nodes : List Node) (rest : Expansion (List Node)) :
    Expansion.map (Node.pruneAll styles) (Expansion.map (nodes ++ ·) rest) =
      Expansion.map (Node.pruneAll styles nodes ++ ·)
        (Expansion.map (Node.pruneAll styles) rest) := by
  obtain ⟨after, fault | others⟩ := rest
  · rfl
  · simp only [Expansion.map, Except.map, Node.pruneAll_append]

/-- The items of a file that are not dropped stand for the children that all of them stand for when
all comments are kept, without those that are stripped. The induction is on the items. -/
lemma Strips.collect_eq (h : Strips styles plan plan₀)
    {answer answer₀ : Request → Ledger → Expansion (Option Node)}
    (hanswer : ∀ request ledger, (answer request ledger).map Option.toList =
      (answer₀ request ledger).map (fun node? => Node.pruneAll styles node?.toList))
    (items : List Item) (ledger : Ledger) :
    plan.collect answer (items.filter (fun item => !item.isDropped styles)) ledger =
      (plan₀.collect answer₀ items ledger).map (Node.pruneAll styles) := by
  induction items generalizing ledger with
  | nil => rfl
  | cons item items ih =>
    cases hitem : item.isDropped styles with
    | true =>
      obtain ⟨nodes, hstep₀, hnodes⟩ := h.step_of_isDropped answer₀ hitem ledger
      rw [List.filter_cons_of_neg (by simp [hitem]), ih, collect_cons_ok items hstep₀,
        map_pruneAll_append, hnodes]
      rcases plan₀.collect answer₀ items ledger with ⟨after, fault | rest⟩ <;> rfl
    | false =>
      have hstep := h.step_eq hanswer hitem ledger
      rw [List.filter_cons_of_pos (by simp [hitem])]
      rcases hstep₀ : plan₀.step answer₀ item ledger with ⟨after, fault | nodes⟩
      · rw [hstep₀] at hstep
        rw [collect_cons_error items hstep₀, collect_cons_error _ hstep]
        rfl
      · rw [hstep₀] at hstep
        rw [collect_cons_ok items hstep₀, collect_cons_ok _ hstep, ih, map_pruneAll_append]

/-- Finding and reading the file of a request is the same under two such plans, so it is answered in
the same way but for the comments that are stripped, if this is so for the file. -/
lemma Strips.fetch_eq (h : Strips styles plan plan₀)
    {nested nested₀ : String → String → Text → Ledger → Expansion Node}
    (hnested : ∀ target identity source ledger,
      (nested target identity source ledger).map ([·]) =
        (nested₀ target identity source ledger).map (fun node => Node.pruneAll styles [node]))
    (name : String) (request : Request) (ledger : Ledger) :
    (plan.fetch nested name request ledger).map Option.toList =
      (plan₀.fetch nested₀ name request ledger).map
        (fun node? => Node.pruneAll styles node?.toList) := by
  by_cases hmet : request.once = true ∧
      ledger.HasMet plan.loader (Path.relativeTo name request.target)
  · have hmet₀ := hmet
    rw [h.loader_eq] at hmet₀
    rw [fetch_of_met hmet.1 hmet.2, fetch_of_met hmet₀.1 hmet₀.2, h.loader_eq]
    rfl
  · have hmet₀ := hmet
    rw [h.loader_eq] at hmet₀
    rcases hfind : plan₀.find (Path.relativeTo name request.target) request.location with
      fault | ⟨identity, source⟩
    · rw [fetch_of_missing hmet ((h.find_eq _ _).trans hfind), fetch_of_missing hmet₀ hfind,
        h.loader_eq]
      rfl
    · rw [fetch_of_found hmet ((h.find_eq _ _).trans hfind), fetch_of_found hmet₀ hfind,
        h.loader_eq, Expansion.map_map, Expansion.map_map]
      exact hnested _ _ _ _

/-- A file is expanded to the tree that it is expanded to when all comments are kept, without those
that are stripped, and the ledger is the same. The induction is on how many levels there may still
be below the file. -/
lemma Strips.expand_eq (h : Strips styles plan plan₀) (depth : Int) (name path : String)
    (location : Position) (source : Text) (ledger : Ledger) :
    plan.expand depth name path location source ledger =
      (plan₀.expand depth name path location source ledger).map (Node.prune styles) := by
  generalize hroom : (plan.settings.maxDepth - depth).toNat = room
  induction room using Nat.strong_induction_on
    generalizing depth name path location source ledger with
  | _ room ih =>
    have hanswer : ∀ request ledger, (plan.answer depth name request ledger).map Option.toList =
        (plan₀.answer depth name request ledger).map
          (fun node? => Node.pruneAll styles node?.toList) := by
      intro request ledger
      unfold answer
      rw [← h.maxDepth_eq]
      split
      · rfl
      · apply h.fetch_eq
        intro target identity text ledger
        rw [ih _ (by omega) (depth + 1) target identity request.location text ledger rfl,
          Expansion.map_map]
        -- what is expanded is a file, which is not dropped itself
        rw [Plan.expand_eq]
        rcases plan₀.collect _ _ _ with ⟨after, fault | children⟩ <;> rfl
    rw [Plan.expand_eq, Plan.expand_eq, h.items_eq, h.collect_eq hanswer]
    rcases plan₀.collect _ _ _ with ⟨after, fault | children⟩ <;> rfl

/-- The file of a run is found and read in the same way under two such plans. -/
lemma Strips.expandRoot_eq (h : Strips styles plan plan₀) (path : String) (ledger : Ledger) :
    plan.expandRoot path ledger = (plan₀.expandRoot path ledger).map (Node.prune styles) := by
  rw [expandRoot, expandRoot, h.find_eq, h.loader_eq]
  rcases plan₀.find path (.start path) with fault | ⟨identity, source⟩
  · rfl
  · exact h.expand_eq 1 path identity _ source _

end Plan

/-! ### Runs -/

/-- The settings with other comment styles. -/
def Settings.withStyles (settings : Settings) (styles : Styles) : Settings where
  trigger := settings.trigger
  maxDepth := settings.maxDepth
  styles := some styles
  trigger_ne_nil := settings.trigger_ne_nil
  trigger_no_space := settings.trigger_no_space
  maxDepth_pos := settings.maxDepth_pos

/-- Two runs differ in stripped comments only: the same was asked of the loader and logged, and
either both failed with the same fault, or the tree of `run` is that of `run₀` without the comments
that are stripped, at every level. -/
structure Outcome.Strips (styles : Styles) (run run₀ : Outcome Node) : Prop where
  calls_eq : run.1.calls = run₀.1.calls
  log_eq : run.1.log = run₀.1.log
  result_eq : run.2 = run₀.2.map (Node.prune styles)

/-- **Stripping only drops comments.** The tokens of a source are those that it has when all
comments are kept, without the comments that are stripped. Runs of a text or of a file with the same
trigger, depth and loader, and with these comment styles, differ in the same way from runs that keep
all comments. -/
theorem strips_of_keepAll (styles : Styles) :
    (∀ trigger source, Dialect.tokens ⟨trigger, styles⟩ source =
      (Dialect.tokens ⟨trigger, styles.keepAll⟩ source).filter
        (fun token => !token.isDropped styles)) ∧
    (∀ context context₀ settings settings₀ loader,
      (settings.getD (Context.active context)).styles = some styles →
      settings₀.getD (Context.active context₀) =
        (settings.getD context.active).withStyles styles.keepAll →
      (∀ name content, Outcome.Strips styles (runText context settings loader name content)
        (runText context₀ settings₀ loader name content)) ∧
      (∀ path, Outcome.Strips styles (runFile context settings loader path)
        (runFile context₀ settings₀ loader path))) := by
  refine ⟨?_, ?_⟩
  · intro trigger source
    exact Dialect.tokens_eq_filter ⟨trigger, styles⟩ source
  · intro context context₀ settings settings₀ loader hstyles hkeepAll
    have hplans : Plan.Strips styles (context.plan settings loader)
        (context₀.plan settings₀ loader) := by
      unfold Context.plan
      rw [hkeepAll]
      exact ⟨rfl, rfl, rfl, hstyles, rfl⟩
    refine ⟨?_, ?_⟩
    · intro name content
      rw [runText_eq_expand, runText_eq_expand, hplans.expand_eq]
      exact ⟨rfl, rfl, rfl⟩
    · intro path
      rw [runFile_eq_expandRoot, runFile_eq_expandRoot, hplans.expandRoot_eq]
      exact ⟨rfl, rfl, rfl⟩

/-- Stripping the comments from two slashes on, in a text and in the file that it asks for, leaves
the other comments. -/
theorem strips_of_keepAll_nested :
    ∃ run run₀,
      runText .initial
        (some (Settings.default.withStyles [CommentStyle.doubleSlash.stripped true, .block]))
        (Catalogue.loader ⟨[("x", "p // q\n/* r */".toList)]⟩) "m"
        "a // b\n#include \"x\"\nc".toList = run ∧
      runText .initial (some (Settings.default.withStyles [.doubleSlash, .block]))
        (Catalogue.loader ⟨[("x", "p // q\n/* r */".toList)]⟩) "m"
        "a // b\n#include \"x\"\nc".toList = run₀ ∧
      Outcome.Strips [CommentStyle.doubleSlash.stripped true, .block] run run₀ ∧
      run.2.toOption.map Node.render = some "a \np \n/* r */c".toList ∧
      run₀.2.toOption.map Node.render = some "a // b\np // q\n/* r */c".toList := by
  refine ⟨_, _, rfl, rfl, ?_, ?_, ?_⟩
  · exact ((strips_of_keepAll _).2 .initial .initial _ _ _ rfl rfl).1 _ _
  · decide +kernel
  · decide +kernel

end Splice

import Splice.Loader.Catalogue
import Splice.Preprocessor
import Splice.Proofs.Expansion.Refinement
import Splice.Proofs.Item
import Splice.Proofs.Tiling

/-!
# What a run makes of a source

Two things are said about runs here. A run ends in the session it started with, but for the ledger,
and both the ledger and the result are those of the expansion (`runText_eq_expand`,
`runFile_eq_expandRoot`). And the text of a file that was expanded is its source with some segments
replaced (`Plan.Spliced`): a directive line by the text of the file that it asks for, and a skipped
request, a shebang line or a stripped comment by nothing (`Plan.exists_spliced`).
-/

namespace Splice

namespace Plan

/-- `Spliced plan depth name ledger segments text after` says that `text` is what becomes of the
segments of the file named `name` at the given depth, when the ledger is `ledger` before them and
`after` after them. -/
inductive Spliced (plan : Plan) (depth : Int) (name : String) :
    Ledger → List Segment → Text → Ledger → Prop where
  /-- Nothing is left. -/
  | nil (ledger : Ledger) : Spliced plan depth name ledger [] [] ledger
  /-- Plain text stays as it is. -/
  | text {ledger after : Ledger} {segments : List Segment} {text : Text} (place : Place)
    (content : Text) (htail : Spliced plan depth name ledger segments text after) :
    Spliced plan depth name ledger (.text place content :: segments) (content ++ text) after
  /-- So does a comment, unless its style is stripped. -/
  | comment {ledger after : Ledger} {segments : List Segment} {text : Text} (place : Place)
    {style : CommentStyle} (content : Text) (hstrip : style.strip = false)
    (htail : Spliced plan depth name ledger segments text after) :
    Spliced plan depth name ledger (.comment place style content :: segments) (content ++ text)
      after
  /-- A stripped comment is dropped. -/
  | stripped {ledger after : Ledger} {segments : List Segment} {text : Text} (place : Place)
    {style : CommentStyle} (content : Text) (hstrip : style.strip = true)
    (htail : Spliced plan depth name ledger segments text after) :
    Spliced plan depth name ledger (.comment place style content :: segments) text after
  /-- A shebang line is dropped. -/
  | shebang {ledger after : Ledger} {segments : List Segment} {text : Text} (place : Place)
    (content : Text) (htail : Spliced plan depth name ledger segments text after) :
    Spliced plan depth name ledger (.shebang place content :: segments) text after
  /-- The line of a request for one time only is dropped if its file was met before. -/
  | skipped {ledger after : Ledger} {segments : List Segment} {text : Text} (place : Place)
    (content : Text) {tokens : List Token} {request : Request}
    (hrequest : Request.ofLine? name tokens = some request) (honce : request.once = true)
    (hmet : ledger.HasMet plan.loader (Path.relativeTo name request.target))
    (htail : Spliced plan depth name
      ((ledger.identify plan.loader (Path.relativeTo name request.target)).note
        (.skipping request.location (Path.relativeTo name request.target))) segments text after) :
    Spliced plan depth name ledger (.directive place content tokens :: segments) text after
  /-- The line of any other request is replaced by the text of its file, as it is expanded one level
  deeper. -/
  | replaced {ledger between after : Ledger} {segments : List Segment} {text source : Text}
    {identity : String} (place : Place) (content : Text) {tokens : List Token} {request : Request}
    {node : Node} (hrequest : Request.ofLine? name tokens = some request)
    (hnew : ¬ (request.once = true ∧
      ledger.HasMet plan.loader (Path.relativeTo name request.target)))
    (hidentity : plan.loader.canonical (Path.relativeTo name request.target) = .ok identity)
    (hread : plan.loader.read (Path.relativeTo name request.target) = .ok source)
    (hexpand : plan.expand (depth + 1) (Path.relativeTo name request.target) identity
      request.location source
      (ledger.enroll plan.loader request.once (Path.relativeTo name request.target)) =
        (between, .ok node))
    (htail : Spliced plan depth name between segments text after) :
    Spliced plan depth name ledger (.directive place content tokens :: segments)
      (node.render ++ text) after

variable {plan : Plan} {depth : Int} {name : String}

/-- Children that are collected from the items of segments render to what becomes of the segments.
The induction is on the segments; each is one item, or none. -/
lemma spliced_of_collect {segments : List Segment} {rest : List Item} {ledger after : Ledger}
    {nodes : List Node}
    (hwhole : ∀ place content tokens, .directive place content tokens ∈ segments →
      Line.IsWhole tokens)
    (h : plan.collect (plan.answer depth name) (Item.ofSegments name rest segments) ledger =
      (after, .ok nodes)) :
    ∃ between first last, plan.Spliced depth name ledger segments (Node.renderAll first) between ∧
      plan.collect (plan.answer depth name) rest between = (after, .ok last) ∧
      nodes = first ++ last := by
  induction segments generalizing ledger nodes with
  | nil => exact ⟨ledger, [], nodes, .nil ledger, h, rfl⟩
  | cons segment segments ih =>
    have hwhole' : ∀ place content tokens, .directive place content tokens ∈ segments →
        Line.IsWhole tokens :=
      fun place content tokens hmem => hwhole place content tokens (List.mem_cons_of_mem _ hmem)
    cases segment with
    | text place content =>
      obtain ⟨middle, head, tail, hstep, htail, rfl⟩ := collect_cons_eq_ok h
      obtain ⟨rfl, rfl⟩ := step_text_eq_ok hstep
      obtain ⟨between, first, last, hspliced, hlast, rfl⟩ := ih hwhole' htail
      exact ⟨between, .text (place.position name) content :: first, last,
        .text place content hspliced, hlast, rfl⟩
    | comment place style content =>
      rw [Item.ofSegments] at h
      split at h
      · rename_i hstrip
        obtain ⟨between, first, last, hspliced, hlast, rfl⟩ := ih hwhole' h
        exact ⟨between, first, last, .stripped place content hstrip hspliced, hlast, rfl⟩
      · rename_i hstrip
        obtain ⟨middle, head, tail, hstep, htail, rfl⟩ := collect_cons_eq_ok h
        obtain ⟨rfl, styles, -, rfl⟩ := step_comment_eq_ok hstep
        obtain ⟨between, first, last, hspliced, hlast, rfl⟩ := ih hwhole' htail
        exact ⟨between, .comment (place.position name) content (styles.first? content) :: first,
          last, .comment place content (Bool.eq_false_iff.2 hstrip) hspliced, hlast, rfl⟩
    | directive place content tokens =>
      rw [Item.ofSegments] at h
      split at h
      · rename_i request hrequest
        obtain ⟨middle, head, tail, hstep, htail, rfl⟩ := collect_cons_eq_ok h
        obtain ⟨node?, hanswer, rfl⟩ := step_request_eq_ok hstep
        obtain ⟨between, first, last, hspliced, hlast, rfl⟩ := ih hwhole' htail
        rcases (answer_eq_ok hanswer).2 with
          ⟨honce, hmet, rfl, rfl⟩ |
            ⟨identity, source, node, hnew, hidentity, hread, hexpand, rfl⟩
        · exact ⟨between, first, last,
            .skipped place content hrequest honce hmet hspliced, hlast, rfl⟩
        · exact ⟨between, node :: first, last,
            .replaced place content hrequest hnew hidentity hread hexpand hspliced, hlast, rfl⟩
      · rename_i hnone
        obtain ⟨diagnostic, hfailure⟩ := Item.ofTokens_of_no_request
          (hwhole place content tokens List.mem_cons_self) hnone
        rw [hfailure] at h
        cases h
    | shebang place content =>
      obtain ⟨between, first, last, hspliced, hlast, rfl⟩ := ih hwhole' h
      exact ⟨between, first, last, .shebang place content hspliced, hlast, rfl⟩

end Plan

/-- The text of a file that was expanded is its source, cut into segments, with directive lines
replaced. -/
lemma Plan.exists_spliced {plan : Plan} {depth : Int} {name path : String} {location : Position}
    {source : Text} {ledger after : Ledger} {root : Node}
    (h : plan.expand depth name path location source ledger = (after, .ok root)) :
    ∃ segments final, Tiles plan.dialect [] segments source ∧
      plan.Spliced depth name (ledger.note (.entering name depth)) segments root.render final ∧
      after = final.note (.leaving name) := by
  obtain ⟨final, children, hcollect, rfl, rfl⟩ := expand_eq_ok h
  rw [Dialect.items_eq_ofSegments] at hcollect
  obtain ⟨between, first, last, hspliced, hlast, rfl⟩ := spliced_of_collect
    (fun place content tokens hmem => Dialect.isWhole_of_mem_segments hmem) hcollect
  rcases plan.dialect.ofTokens_ending name .start source with ⟨⟨p, hending⟩, hnil⟩ | ⟨d, hfailure⟩
  · rw [Dialect.scan, hnil] at hlast
    cases hlast
    have htrigger : '\n' ∉ plan.dialect.trigger :=
      Text.newline_notMem_of_no_space plan.settings.trigger_no_space
    obtain ⟨htiles, -⟩ := Dialect.tiles_scan htrigger hending
    refine ⟨_, final, htiles, ?_, rfl⟩
    rw [Node.render, List.append_nil]
    exact hspliced
  · rw [Dialect.scan, hfailure] at hlast
    cases hlast

/-- What stays the same throughout a run with the given settings, or with those in force. -/
def Context.plan (context : Context) (settings : Option Settings) (loader : Loader) : Plan :=
  ⟨settings.getD context.active, context.active.styles, loader⟩

/-- A session at the end of a run: what it started with, and what the expansion left behind. -/
def Session.conclude (session : Session) (expansion : Expansion Node) : Outcome Node :=
  ({ session with
      visited := expansion.1.visited
      calls := expansion.1.calls
      log := expansion.1.log },
    expansion.2)

/-- A session without open files takes over the ledger of an expansion, and nothing else. -/
lemma Session.absorb_of_frames_eq_nil {session : Session} (h : session.frames = [])
    (nodes : Node → List Node) (expansion : Expansion Node) :
    session.absorb nodes expansion = session.conclude expansion := by
  obtain ⟨settings, fallback, depth, visited, frames, calls, log⟩ := session
  subst h
  obtain ⟨ledger, fault | node⟩ := expansion <;> rfl

/-- A run of a text expands the text at the first level. -/
lemma runText_eq_expand (context : Context) (settings : Option Settings) (loader : Loader)
    (name : String) (content : Text) :
    runText context settings loader name content =
      (context.session settings).conclude ((context.plan settings loader).expand 1 name name
        (.start name) content .empty) := by
  rw [runText, Session.runSource_eq_expand, Session.absorb_of_frames_eq_nil rfl]
  rfl

/-- A run of a file expands the file at the first level, and counts it as met. -/
lemma runFile_eq_expandRoot (context : Context) (settings : Option Settings) (loader : Loader)
    (path : String) :
    runFile context settings loader path =
      (context.session settings).conclude
        ((context.plan settings loader).expandRoot path .empty) := by
  rw [runFile, Plan.expandRoot]
  rcases hfind : (context.plan settings loader).find path (.start path) with
    fault | ⟨identity, source⟩
  · rw [Session.runRoot_of_missing hfind]
    rfl
  · rw [Session.runRoot_of_found hfind, Session.runSource_eq_expand,
      Session.absorb_of_frames_eq_nil rfl]
    rfl

/-- What renders to some text is a success with a tree of this text. -/
lemma exists_root_of_render {σ : Type} (outcome : σ × Except Fault Node) {text : Text}
    (h : outcome.2.toOption.map Node.render = some text) :
    ∃ state root, outcome = (state, .ok root) ∧ root.render = text := by
  obtain ⟨state, fault | root⟩ := outcome
  · cases h
  · exact ⟨state, root, rfl, Option.some.inj h⟩

/-- **Runs are expansions.** A run of a text or of a file ends in the session that it started with,
with the ledger and the result of the expansion; so it gives the same tree or the same fault, counts
the same identities as met and asks the loader the same questions. And wherever a file is expanded,
its text is its source with each directive line replaced by the text of the file that it asks for,
and each skipped request, shebang line and stripped comment dropped. -/
theorem run_eq_expansion (context : Context) (settings : Option Settings) (loader : Loader) :
    (∀ name content, runText context settings loader name content =
      (context.session settings).conclude ((context.plan settings loader).expand 1 name name
        (.start name) content .empty)) ∧
    (∀ path, runFile context settings loader path =
      (context.session settings).conclude
        ((context.plan settings loader).expandRoot path .empty)) ∧
    (∀ depth name path location source ledger after root,
      (context.plan settings loader).expand depth name path location source ledger =
        (after, .ok root) →
      ∃ segments final, Tiles (context.plan settings loader).dialect [] segments source ∧
        (context.plan settings loader).Spliced depth name (ledger.note (.entering name depth))
          segments root.render final ∧
        after = final.note (.leaving name)) := by
  refine ⟨?_, ?_, ?_⟩
  · intro name content
    exact runText_eq_expand context settings loader name content
  · intro path
    exact runFile_eq_expandRoot context settings loader path
  · intro depth name path location source ledger after root h
    exact Plan.exists_spliced h

/-- The text of a file that asks for another one two times, but the second time only if it was not
met, is spliced in this way. -/
theorem run_eq_expansion_nested :
    ∃ after root,
      (Context.plan .initial none (Catalogue.loader ⟨[("d/x", "p\nq".toList)]⟩)).expand 1 "d/m"
        "d/m" (.start "d/m") "#!a\nb\n#require \"x\"\nc\n#require \"x\"\n".toList .empty =
          (after, .ok root) ∧
      root.render = "b\np\nqc\n".toList ∧
      ∃ segments final,
        (Context.plan .initial none (Catalogue.loader ⟨[("d/x", "p\nq".toList)]⟩)).Spliced 1 "d/m"
          (Ledger.empty.note (.entering "d/m" 1)) segments root.render final := by
  have hsuccess :
      ((Context.plan .initial none (Catalogue.loader ⟨[("d/x", "p\nq".toList)]⟩)).expand 1 "d/m"
        "d/m" (.start "d/m") "#!a\nb\n#require \"x\"\nc\n#require \"x\"\n".toList
          .empty).2.toOption.map Node.render = some "b\np\nqc\n".toList := by
    decide +kernel
  obtain ⟨after, root, hexpand, hrender⟩ := exists_root_of_render _ hsuccess
  obtain ⟨segments, final, -, hspliced, -⟩ :=
    (run_eq_expansion .initial none _).2.2 _ _ _ _ _ _ _ _ hexpand
  exact ⟨after, root, hexpand, hrender, segments, final, hspliced⟩

end Splice

import Mathlib.Data.List.Dedup
import Mathlib.Data.List.Perm.Subperm
import Splice.Proofs.Cycle

/-!
# Files that are asked for one time only

Where all requests are for one time only, files may ask for each other in circles. The files that
are being run then have different identities at every moment: each was entered into the identities
that were met before it was read, and a request for one of these is skipped (`Moment.Distinct`). So
no more files are nested in one another than there are identities of files, and with more levels
than that no request is ever refused. With as many levels as files the last request of a circle
would be refused, since the depth is checked before it is known that the request can be skipped.
-/

namespace Splice

/-! ### Catalogues -/

/-- The paths of the files of a catalogue, each in normal form and one time. -/
def Catalogue.paths (catalogue : Catalogue) : List String :=
  (catalogue.entries.map fun entry => Path.normalForm entry.1).dedup

/-- The identities of the files that a loader has are among the given ones. -/
def Loader.FilesAmong (loader : Loader) (files : List String) : Prop :=
  ∀ name identity source, loader.canonical name = .ok identity →
    loader.read name = .ok source → identity ∈ files

/-- The identity of a file that a catalogue has is one of its paths. -/
lemma Catalogue.filesAmong_paths (catalogue : Catalogue) :
    catalogue.loader.FilesAmong catalogue.paths := by
  intro name identity source hidentity hread
  rw [canonical_loader, Except.ok.injEq] at hidentity
  obtain ⟨key, hmem, hnormal⟩ := (get?_eq_some_iff.1 (read_eq_ok_iff.1 hread)).exists_mem
  exact List.mem_dedup.2 (List.mem_map.2 ⟨(key, source), hmem, hnormal.trans hidentity⟩)

/-- The files that can be read make requests for one time only. -/
def Plan.OnlyOnce (plan : Plan) : Prop :=
  ∀ name source, plan.loader.read name = .ok source →
    ∀ request, .request request ∈ plan.dialect.items name source → request.once = true

/-! ### Moments -/

namespace Moment

/-- The identities of the files under construction, innermost first. -/
def identities (moment : Moment) : List String :=
  moment.session.frames.map Frame.path

/-- Leaving a file takes its identity off. -/
lemma identities_left (session : Session) (name : String) (tasks : List Task)
    (result : Except Fault Unit) :
    (left session name tasks result).identities = (session.frames.map Frame.path).tail := by
  obtain ⟨settings, fallback, depth, visited, frames, calls, log⟩ := session
  rcases frames with _ | ⟨frame, _ | ⟨outer, frames⟩⟩
  · rfl
  · cases result <;> rfl
  · cases result <;> rfl

/-- The files under construction are different ones: their identities are different, they were met,
and they are among the given ones. -/
structure Distinct (files : List String) (moment : Moment) : Prop where
  nodup : moment.identities.Nodup
  met : moment.identities ⊆ moment.session.visited
  held : moment.identities ⊆ files

namespace Distinct

variable {files : List String} {moment : Moment}

/-- No more files are under construction than there are identities. -/
lemma length_le (h : moment.Distinct files) : moment.identities.length ≤ files.length :=
  (List.subperm_of_subset h.nodup h.held).length_le

/-- A step that leaves the files under construction and only adds identities that were met. -/
lemma of_same {later : Moment} (h : moment.Distinct files)
    (hsame : later.identities = moment.identities)
    (hvisited : moment.session.visited ⊆ later.session.visited) : later.Distinct files where
  nodup := hsame ▸ h.nodup
  met := by
    rw [hsame]
    exact List.Subset.trans h.met hvisited
  held := hsame ▸ h.held

/-- A file is left. -/
lemma left {session : Session} {task : Task} {tasks : List Task}
    {last : Except Fault (Option Node)} (h : Distinct files ⟨session, task :: tasks, last⟩)
    (result : Except Fault Unit) : (left session task.name tasks result).Distinct files := by
  have hvisited := (leaves_left session task.name tasks result).visited_eq
  have htail : (session.frames.map Frame.path).tail ⊆ session.frames.map Frame.path :=
    (List.tail_sublist _).subset
  refine ⟨?_, ?_, ?_⟩
  · rw [identities_left]
    exact h.nodup.sublist (List.tail_sublist _)
  · rw [identities_left, hvisited]
    exact List.Subset.trans htail h.met
  · rw [identities_left]
    exact List.Subset.trans htail h.held

/-- A file is entered the identity of which was not met before, and is met then. -/
lemma entered {session after : Session} {tasks : List Task} {last : Except Fault (Option Node)}
    (h : Distinct files ⟨session, tasks, last⟩) {identity : String}
    (hframes : after.frames = session.frames)
    (hvisited : after.visited = session.visited ++ [identity])
    (hnew : identity ∉ session.visited) (hfile : identity ∈ files) (source : Text) (name : String)
    (location : Position) :
    (entered after source name identity location tasks).Distinct files := by
  have hidentities : (Moment.entered after source name identity location tasks).identities =
      identity :: session.frames.map Frame.path := by
    rw [← hframes]
    rfl
  have hmet : (Moment.entered after source name identity location tasks).session.visited =
      session.visited ++ [identity] := hvisited
  refine ⟨?_, ?_, ?_⟩
  · rw [hidentities]
    exact List.nodup_cons.2 ⟨fun hmem => hnew (h.met hmem), h.nodup⟩
  · rw [hidentities, hmet]
    intro other hother
    rcases List.mem_cons.1 hother with rfl | hother
    · exact List.mem_append_right _ List.mem_cons_self
    · exact List.mem_append_left _ (h.met hother)
  · rw [hidentities]
    intro other hother
    rcases List.mem_cons.1 hother with rfl | hother
    · exact hfile
    · exact h.held hother

end Distinct

end Moment

/-! ### Runs -/

namespace Run

variable {run : Run} {path : String} {files : List String}

/-- At the first moment of a run of a file, at most this file is under construction. -/
lemma distinct_first (hinput : run.input = .file path)
    (hfiles : run.loader.FilesAmong files) : run.first.Distinct files := by
  have hstarts := run.starts_first
  generalize run.first = first at hstarts
  cases hstarts with
  | text name content hother =>
    rw [hinput] at hother
    cases hother
  | missing other fault hother hfind =>
    exact ⟨List.nodup_nil, List.nil_subset _, List.nil_subset _⟩
  | read other identity source hother hidentity hread =>
    rw [hinput] at hother
    cases hother
    have hmet := Session.canonical_mem_enrollRoot hidentity run.session
    refine ⟨List.nodup_singleton _, ?_, ?_⟩
    · exact List.cons_subset.2 ⟨hmet, List.nil_subset _⟩
    · exact List.cons_subset.2 ⟨hfiles path identity source hidentity hread, List.nil_subset _⟩

/-- In a run of a file, the requests that are carried out come from files that were read. -/
lemma once_of_sound (hinput : run.input = .file path)
    (honce : (run.context.plan run.settings run.loader).OnlyOnce) {session : Session}
    {name : String} {request : Request} {items : List Item} {tasks : List Task}
    {last : Except Fault (Option Node)}
    (h : run.Sound ⟨session, ⟨name, .request request :: items⟩ :: tasks, last⟩) :
    request.once = true := by
  cases h.traced with
  | cons source hsource hitems htail =>
    rw [SourceAt, hinput] at hsource
    have hmem : .request request ∈ run.dialect.items name source :=
      hitems.subset List.mem_cons_self
    exact honce name source hsource.2 request hmem

/-- One step: a file is only entered by a request for one time only, for an identity that was not
met. -/
lemma distinct_next (hinput : run.input = .file path)
    (hfiles : run.loader.FilesAmong files)
    (honce : (run.context.plan run.settings run.loader).OnlyOnce) {moment : Moment}
    (hsound : run.Sound moment) (h : moment.Distinct files) :
    (moment.next run.loader).Distinct files := by
  have hways := Moment.advances_next run.loader moment
  generalize moment.next run.loader = after at hways
  cases hways with
  | ended session result => exact h
  | abandon session task tasks fault => exact h.left (.error fault)
  | finish session name tasks last => exact h.left (.ok ())
  | keep session name item items tasks last node hopen =>
    refine h.of_same ?_ (List.Subset.refl _)
    obtain ⟨settings, fallback, depth, visited, frames, calls, log⟩ := session
    cases frames <;> rfl
  | fail session name item items tasks last fault hfault =>
    exact h.of_same rfl (List.Subset.refl _)
  | refuse session name request items tasks last hdeep => exact h.of_same rfl (List.Subset.refl _)
  | skip session name request items tasks last hshallow hmet =>
    exact h.of_same rfl (List.Subset.refl _)
  | missing session name request items tasks last fault hshallow hnew hfind =>
    refine h.of_same ?_ (session.visited_prefix_enroll run.loader request).subset
    exact congrArg (List.map Frame.path) (session.enroll_frames run.loader request)
  | enter session name request items tasks last identity source hshallow hnew hidentity hread =>
    have hasked : request.once = true := once_of_sound hinput honce hsound
    have hfresh : identity ∉ session.visited :=
      fun hmem => hnew ⟨hasked, identity, hmem, hidentity⟩
    have hvisited := session.enroll_visited run.loader request hidentity hnew
    rw [if_pos hasked] at hvisited
    have hheld : identity ∈ files := hfiles _ identity source hidentity hread
    have hbefore : Moment.Distinct files ⟨session, ⟨name, items⟩ :: tasks, .ok last⟩ :=
      ⟨h.nodup, h.met, h.held⟩
    exact hbefore.entered (session.enroll_frames run.loader request) hvisited hfresh hheld source
      _ _

/-- At every moment of such a run, the files under construction are different ones. -/
lemma distinct_moment (hinput : run.input = .file path)
    (hfiles : run.loader.FilesAmong files)
    (honce : (run.context.plan run.settings run.loader).OnlyOnce) (n : Nat) :
    (run.moment n).Distinct files := by
  refine sound_induction (distinct_first hinput hfiles) ?_ n
  intro moment hsound hdistinct
  exact distinct_next hinput hfiles honce hsound hdistinct

/-- The files that are being run are those under construction, so that there are as many of them as
identities. -/
lemma Sound.identities_length {moment : Moment} (h : run.Sound moment) :
    moment.identities.length = moment.tasks.length := by
  have hlength := congrArg List.length h.names_eq
  rw [List.length_map, List.length_map] at hlength
  rw [Moment.identities, List.length_map, hlength]

/-- With more levels than identities of files, no request of such a run is refused. -/
lemma isTooDeep_eq_false (hinput : run.input = .file path)
    (hfiles : run.loader.FilesAmong files)
    (honce : (run.context.plan run.settings run.loader).OnlyOnce)
    (hdepth : files.length < run.limits.maxDepth) {fault : Fault}
    (h : run.outcome.2 = .error fault) : fault.isTooDeep = false := by
  by_contra hdeep
  obtain ⟨last, hresult⟩ := exists_error_of_outcome h
  obtain ⟨n, request, -, hlevel⟩ := exists_refused hresult (by simpa using hdeep)
  have hbound := (distinct_moment hinput hfiles honce n).length_le
  rw [(run.sound n).identities_length, hlevel] at hbound
  omega

end Run

/-- **Files that ask for each other for one time only are never nested too deep.** Take a run of a
file from a catalogue in which all requests of files are for one time only, with more levels than
the catalogue has paths, where spellings of the same path count one time. Then the files that are
being run have different identities at every moment, and are at most as many as these paths; and the
run does not fail because files are nested too deep, whatever circles the requests make and however
the paths are spelled. -/
theorem not_tooDeep_of_onlyOnce (catalogue : Catalogue) (context : Context)
    (settings : Option Settings) (path : String)
    (hdepth : catalogue.paths.length < (settings.getD context.active).maxDepth)
    (honce : (context.plan settings catalogue.loader).OnlyOnce) :
    (∀ n, ((Run.mk context settings catalogue.loader (.file path)).moment n).identities.Nodup ∧
      ((Run.mk context settings catalogue.loader (.file path)).moment n).session.depth ≤
        catalogue.paths.length) ∧
    ∀ session fault, runFile context settings catalogue.loader path = (session, .error fault) →
      fault.isTooDeep = false := by
  have hfiles := catalogue.filesAmong_paths
  constructor
  · intro n
    have hsound := (Run.mk context settings catalogue.loader (.file path)).sound n
    have hdistinct : ((Run.mk context settings catalogue.loader (.file path)).moment n).Distinct
        catalogue.paths := Run.distinct_moment rfl hfiles honce n
    have hlength := hdistinct.length_le
    rw [hsound.identities_length] at hlength
    refine ⟨hdistinct.nodup, ?_⟩
    rw [hsound.depth_eq]
    exact Int.ofNat_le.2 hlength
  · intro session fault h
    have houtcome : (Run.mk context settings catalogue.loader (.file path)).outcome.2 =
        .error fault := congrArg Prod.snd h
    exact Run.isTooDeep_eq_false rfl hfiles honce hdepth houtcome

/-- Whether an item is not a request for every time. -/
def Item.isBrief : Item → Bool
  | request asked => asked.once
  | _ => true

/-- Items that ask for the same as others ask for one time only if these do. -/
lemma Item.isBrief_of_alike {items others : List Item} (h : List.Forall₂ Alike items others)
    (hbrief : items.all isBrief = true) : others.all isBrief = true := by
  induction h with
  | nil => rfl
  | cons hhead _ ih =>
    rw [List.all_cons, Bool.and_eq_true] at hbrief ⊢
    refine ⟨?_, ih hbrief.2⟩
    cases hhead with
    | request p q target once => exact hbrief.1
    | _ => rfl

/-- The requests in a catalogue are for one time only if those in its entries are, under the names
they have there. -/
lemma Catalogue.onlyOnce_of_entries {catalogue : Catalogue} {context : Context}
    {settings : Option Settings}
    (h : catalogue.entries.all (fun entry =>
      ((context.plan settings catalogue.loader).dialect.items entry.1 entry.2).all
        Item.isBrief) = true) :
    (context.plan settings catalogue.loader).OnlyOnce := by
  intro name source hread request hmem
  obtain ⟨key, hentry, -⟩ := (get?_eq_some_iff.1 (read_eq_ok_iff.1 hread)).exists_mem
  have hbrief := List.all_eq_true.1 h (key, source) hentry
  have halike := Dialect.alike_items (context.plan settings catalogue.loader).dialect key name
    source
  exact List.all_eq_true.1 (Item.isBrief_of_alike halike hbrief) _ hmem

/-- Two files that ask for each other for one time only, by other spellings of their paths. -/
def Catalogue.circle : Catalogue :=
  ⟨[("a", "#require \"./b\"\np\n".toList), ("./d/../b", "#require \"d/../a\"\nq\n".toList)]⟩

/-- The settings in a new process, with the given greatest depth. -/
def Settings.ofMaxDepth (maxDepth : Nat) (hpos : 1 ≤ maxDepth) : Settings :=
  Context.initial.active.withMaxDepth maxDepth hpos

/-- With three levels a run of such a file returns, under a third spelling of its path. The bound is
the best one: with two levels, which are as many as there are files, it fails. -/
theorem not_tooDeep_of_onlyOnce_circle :
    Catalogue.circle.paths = ["a", "b"] ∧
    (∀ session fault, runFile .initial (some (.ofMaxDepth 3 (by decide))) Catalogue.circle.loader
      "x/../a" = (session, .error fault) → fault.isTooDeep = false) ∧
    (runFile .initial (some (.ofMaxDepth 3 (by decide))) Catalogue.circle.loader "x/../a").2 =
      .ok (.file ⟨"x/../a", 1, 1⟩ "x/../a" "a"
        [.file ⟨"x/../a", 1, 1⟩ "x/../b" "b" [.text ⟨"x/../b", 2, 1⟩ ['q', '\n']],
          .text ⟨"x/../a", 2, 1⟩ ['p', '\n']]) ∧
    (runFile .initial (some (.ofMaxDepth 2 (by decide))) Catalogue.circle.loader "x/../a").2 =
      .error (.problem (.tooDeep 2 ⟨"x/../b", 1, 1⟩)) := by
  have hpaths : Catalogue.circle.paths = ["a", "b"] := by decide +kernel
  have hdepth : Catalogue.circle.paths.length <
      ((some (Settings.ofMaxDepth 3 (by decide))).getD Context.initial.active).maxDepth := by
    rw [hpaths]
    decide
  have honce : (Context.initial.plan (some (.ofMaxDepth 3 (by decide)))
      Catalogue.circle.loader).OnlyOnce :=
    Catalogue.onlyOnce_of_entries (by decide +kernel)
  refine ⟨hpaths, ?_, by decide +kernel, by decide +kernel⟩
  exact (not_tooDeep_of_onlyOnce _ _ _ "x/../a" hdepth honce).2

end Splice

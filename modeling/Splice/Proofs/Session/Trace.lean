import Splice.Proofs.Expansion.Tree
import Splice.Proofs.Session.Invariant

/-!
# The trace of a run

A run leaves two traces: what it asked of the loader, and its log. The questions are told apart by
`Call.Traces`: a file that is read is identified right before, and an identity that is asked for and
not followed by a read is that of a skipped request. The files that were read so far are those of
the tree as far as it is built, in the order of `Node.names` (`Moment.spliced`), and so are those
that the log says were entered (`Log.entered`). Each step adds to all three or to none of them
(`Moment.Adds`), so that the tree of a run names the files that it read and entered
(`Run.exists_accounts`).

The log is also read with a stack of the files that were entered and not yet left (`Log.nesting?`).
It is the stack of the files that are being run at every moment, also after a fault (`Run.logged`).
-/

namespace Splice

/-! ### Questions to the loader -/

namespace Call

/-- The path that a question asks for the content of. -/
def readPath? : Call → Option String
  | canonical _ => none
  | read path => some path

/-- `Traces calls reads skipped` says that `calls` ask for the content of the paths `reads`, in
order, each right after its identity, and otherwise only for the identities of the paths `skipped`,
in order. -/
inductive Traces : List Call → List String → List String → Prop where
  /-- Nothing was asked. -/
  | nil : Traces [] [] []
  /-- A file is identified and read. -/
  | file {calls : List Call} {reads skipped : List String} (path : String)
    (hcalls : Traces calls reads skipped) :
    Traces (calls ++ [.canonical path, .read path]) (reads ++ [path]) skipped
  /-- A file is identified, and then the request is skipped. -/
  | skip {calls : List Call} {reads skipped : List String} (path : String)
    (hcalls : Traces calls reads skipped) :
    Traces (calls ++ [.canonical path]) reads (skipped ++ [path])

/-- The paths that are read are those of the questions for content. -/
lemma Traces.filterMap_readPath? {calls : List Call} {reads skipped : List String}
    (h : Traces calls reads skipped) : calls.filterMap readPath? = reads := by
  induction h with
  | nil => rfl
  | file path hcalls ih =>
    rw [List.filterMap_append, ih]
    rfl
  | skip path hcalls ih => simp [readPath?, ih]

end Call

/-! ### What a log says -/

namespace Log

/-- The name of the file that a record says is entered. -/
def Record.enteredName? : Record → Option String
  | entering name _ => some name
  | leaving _ => none
  | skipping _ _ => none
  | warning _ => none

/-- The names of the files that are entered by a log, in order. -/
def entered (log : List Record) : List String :=
  log.filterMap Record.enteredName?

/-- The files that are entered by more records come after the others. -/
@[simp] lemma entered_append (log more : List Record) :
    entered (log ++ more) = entered log ++ entered more :=
  List.filterMap_append

/-- A record of an entry enters that file. -/
@[simp] lemma entered_entering (name : String) (depth : Int) :
    entered [.entering name depth] = [name] := rfl

/-- A record that a file is left enters none. -/
@[simp] lemma entered_leaving (name : String) : entered [.leaving name] = [] := rfl

/-- Neither does one of a request that is skipped. -/
@[simp] lemma entered_skipping (location : Position) (name : String) :
    entered [.skipping location name] = [] := rfl

/-- Warnings enter no file. -/
@[simp] lemma entered_warnings (warnings : List String) :
    entered (warnings.map .warning) = [] := by
  simp [entered, Record.enteredName?]

/-- The files that are open after a record, innermost first. There is no such list if the record
does not fit: a file is entered at a depth other than the number of open files with the new one, or
left while it is not the innermost one. -/
def Record.nest (opened : List String) : Record → Option (List String)
  | entering name depth => if depth = opened.length + 1 then some (name :: opened) else none
  | leaving name => if opened.head? = some name then some opened.tail else none
  | skipping _ _ => some opened
  | warning _ => some opened

/-- The files that are open at the end of a log, innermost first, if all of its records fit. -/
def nesting? (log : List Record) : Option (List String) :=
  log.foldlM Record.nest []

/-- The files that are open after one more record. -/
lemma nesting?_snoc {log : List Record} {opened : List String} (h : nesting? log = some opened)
    (record : Record) : nesting? (log ++ [record]) = record.nest opened := by
  unfold nesting? at h ⊢
  rw [List.foldlM_append, h]
  simp

/-- Warnings leave the files open that are. -/
lemma nesting?_warnings {log : List Record} {opened : List String}
    (h : nesting? log = some opened) (warnings : List String) :
    nesting? (log ++ warnings.map .warning) = some opened := by
  induction warnings generalizing log with
  | nil => simpa using h
  | cons warning warnings ih =>
    have hsnoc : nesting? (log ++ [.warning warning]) = some opened := nesting?_snoc h _
    simpa using ih hsnoc

end Log

/-- Entering a file adds that to the log. -/
lemma Moment.entered_log (session : Session) (source : Text) (name path : String)
    (location : Position) (tasks : List Task) :
    (entered session source name path location tasks).session.log =
      session.log ++ [.entering name (session.depth + 1)] :=
  rfl

/-- Leaving a file adds that to the log. -/
lemma Moment.left_log (session : Session) (name : String) (tasks : List Task)
    (result : Except Fault Unit) :
    (left session name tasks result).session.log = session.log ++ [.leaving name] := by
  obtain ⟨settings, fallback, depth, visited, frames, calls, log⟩ := session
  rcases frames with _ | ⟨frame, _ | ⟨outer, frames⟩⟩
  · rfl
  · cases result <;> rfl
  · cases result <;> rfl

/-! ### The files of a tree under construction -/

namespace Node

/-- The files in nodes in a row are those in the first ones and those in the others. -/
lemma filesAll_append (nodes more : List Node) :
    filesAll (nodes ++ more) = filesAll nodes ++ filesAll more := by
  induction nodes with
  | nil => simp [filesAll]
  | cons node nodes ih => cases node <;> simp [filesAll, ih]

end Node

/-- The names of a file under construction and of the files spliced into it so far. -/
def Frame.names (frame : Frame) : List String :=
  frame.name :: (Node.filesAll frame.children).filterMap Node.name?

/-- A file has the same names before and after it is complete. -/
lemma Frame.names_freeze (frame : Frame) : frame.freeze.names = frame.names := by
  simp [freeze, Node.names, Node.files, Node.name?, names]

/-- The names of the files in nodes that are added come after those of a file. -/
lemma Frame.names_append (frame : Frame) (nodes : List Node) :
    Frame.names { frame with children := frame.children ++ nodes } =
      frame.names ++ (Node.filesAll nodes).filterMap Node.name? := by
  simp [names, Node.filesAll_append]

/-- The names of all files of a session, those around a file before it. -/
def Session.names (session : Session) : List String :=
  session.frames.reverse.flatMap Frame.names

/-- The names of the files in nodes that are added come after those of the session. -/
lemma Session.names_extend {session : Session} (hopen : session.frames ≠ []) (ledger : Ledger)
    (nodes : List Node) :
    (session.extend ledger nodes).names =
      session.names ++ (Node.filesAll nodes).filterMap Node.name? := by
  obtain ⟨settings, fallback, depth, visited, frames, calls, log⟩ := session
  cases frames with
  | nil => exact absurd rfl hopen
  | cons frame frames => simp [extend, names, Frame.names_append]

namespace Moment

/-- The names of all files of a moment, in the order of the tree. A run that is over has its tree,
and no file under construction. -/
def spliced : Moment → List String
  | ⟨_, [], .ok (some root)⟩ => root.names
  | ⟨session, _, _⟩ => session.names

/-- While a file is being run, the names are those of the files under construction. -/
@[simp] lemma spliced_cons (session : Session) (task : Task) (tasks : List Task)
    (result : Except Fault (Option Node)) :
    spliced ⟨session, task :: tasks, result⟩ = session.names := rfl

/-- A file that is entered comes after all others. -/
lemma spliced_entered (session : Session) (source : Text) (name path : String)
    (location : Position) (tasks : List Task) :
    (entered session source name path location tasks).spliced = session.names ++ [name] := by
  simp [entered, Session.push, Session.note, Session.names, Frame.names, Node.filesAll]

/-- A file that is left stays where it is in the tree. -/
lemma spliced_left {session : Session} {name : String} {tasks : List Task}
    (hframes : session.frames.length = tasks.length + 1) :
    (left session name tasks (.ok ())).spliced = session.names := by
  obtain ⟨settings, fallback, depth, visited, frames, calls, log⟩ := session
  rcases frames with _ | ⟨frame, _ | ⟨outer, frames⟩⟩
  · simp at hframes
  · obtain rfl : tasks = [] := by simpa using hframes.symm
    show frame.freeze.names = [frame].reverse.flatMap Frame.names
    rw [Frame.names_freeze]
    simp
  · obtain ⟨task, tasks, rfl⟩ : ∃ task rest, tasks = task :: rest :=
      List.exists_cons_of_length_pos (by simp at hframes; omega)
    have hnode : (Node.filesAll [frame.freeze]).filterMap Node.name? = frame.names := by
      simp [Frame.freeze, Node.filesAll, Node.name?, Frame.names]
    show (({ outer with children := outer.children ++ [frame.freeze] } ::
      frames).reverse.flatMap Frame.names) = _
    simp [Session.names, Frame.names_append, hnode]

/-! ### What a step adds -/

instance (session : Session) (loader : Loader) (request : Request) :
    Decidable (session.HasMet loader request) :=
  inferInstanceAs (Decidable (request.once = true ∧
    ∃ identity ∈ session.visited, session.identityOf loader request = .ok identity))

/-- The path of the file of a request that the next step skips, if it skips one. -/
def skipped? (loader : Loader) (moment : Moment) : Option String :=
  moment.request?.bind fun request =>
    if moment.session.depth < moment.session.settings.maxDepth ∧
        moment.session.HasMet loader request then
      some (moment.session.resolve request.target)
    else none

/-- What a step can add to the questions, to the names of the files and to those that are entered by
the log. -/
inductive Adds (loader : Loader) (moment after : Moment) : Prop where
  /-- Nothing is asked, and the files stay the same. -/
  | nothing (hcalls : after.session.calls = moment.session.calls)
    (hspliced : after.spliced = moment.spliced)
    (hentered : Log.entered after.session.log = Log.entered moment.session.log)
    (hskipped : moment.skipped? loader = none)
  /-- A request is skipped after its file was identified. -/
  | skip (path : String) (hcalls : after.session.calls = moment.session.calls ++ [.canonical path])
    (hspliced : after.spliced = moment.spliced)
    (hentered : Log.entered after.session.log = Log.entered moment.session.log)
    (hskipped : moment.skipped? loader = some path)
  /-- A file is identified, read and entered. -/
  | file (path : String)
    (hcalls : after.session.calls = moment.session.calls ++ [.canonical path, .read path])
    (hspliced : after.spliced = moment.spliced ++ [path])
    (hentered : Log.entered after.session.log = Log.entered moment.session.log ++ [path])
    (hskipped : moment.skipped? loader = none)

section Adds

variable {loader : Loader} {session : Session} {name : String} {items : List Item}
  {tasks : List Task} {last result : Option Node}

/-- A leaf adds nothing. -/
lemma adds_append {item : Item} {node : Node} (hopen : session.frames ≠ [])
    (hleaf : Node.filesAll [node] = []) (hitem : ∀ request, item ≠ .request request) :
    Adds loader ⟨session, ⟨name, item :: items⟩ :: tasks, .ok last⟩
      ⟨(session.append node).1, ⟨name, items⟩ :: tasks,
        (session.append node).2.map fun _ => none⟩ := by
  rw [Session.append_eq_extend hopen]
  refine .nothing rfl ?_ rfl ?_
  · simp [Session.names_extend hopen, hleaf]
  · cases item with
    | request request => exact absurd rfl (hitem request)
    | text location content => rfl
    | comment location content => rfl
    | failure diagnostic => rfl

/-- A request that succeeds is skipped, or has its file identified, read and entered. -/
lemma adds_request {request : Request}
    (hok : (next loader ⟨session, ⟨name, .request request :: items⟩ :: tasks, .ok last⟩).result =
      .ok result) :
    Adds loader ⟨session, ⟨name, .request request :: items⟩ :: tasks, .ok last⟩
      (next loader ⟨session, ⟨name, .request request :: items⟩ :: tasks, .ok last⟩) := by
  by_cases hdeep : (session.settings.maxDepth : Int) ≤ session.depth
  · rw [next_of_deep hdeep] at hok
    cases hok
  · have hshallow : session.depth < session.settings.maxDepth := by omega
    by_cases hmet : session.HasMet loader request
    · rw [next_of_hasMet hshallow hmet]
      refine .skip (session.resolve request.target) rfl rfl ?_ ?_
      · simp [Session.skip]
      · simp [skipped?, request?, hshallow, hmet]
    · rw [next, carried, if_neg hdeep, Session.retrieve_of_not_hasMet hmet] at hok ⊢
      rcases hfind : (session.plan loader).find (session.resolve request.target)
          request.location with fault | ⟨identity, source⟩
      · rw [hfind] at hok
        cases hok
      · have hidentity : loader.canonical (session.resolve request.target) = .ok identity :=
          (Plan.find_eq_ok_iff.1 hfind).1
        refine .file (session.resolve request.target) ?_ ?_ ?_ ?_
        · have hcalls := session.enroll_calls loader request
          rw [Loader.questions_of_ok hidentity] at hcalls
          exact hcalls
        · show (entered _ _ _ _ _ _).spliced = _
          rw [spliced_entered, Session.names, Session.enroll_frames]
          rfl
        · show Log.entered (entered _ _ _ _ _ _).session.log = _
          rw [entered_log, Session.enroll_log]
          simp
        · simp [skipped?, request?, hmet]

end Adds

/-- A step that succeeds adds to the questions what it adds to the files. -/
lemma adds_next {loader : Loader} {moment : Moment} {result : Option Node}
    (hframes : moment.session.frames.length = moment.tasks.length)
    (hok : (moment.next loader).result = .ok result) : moment.Adds loader (moment.next loader) := by
  obtain ⟨session, tasks, last⟩ := moment
  rcases tasks with _ | ⟨⟨name, items⟩, tasks⟩
  · exact .nothing rfl rfl rfl rfl
  · have hopen : session.frames ≠ [] := List.ne_nil_of_length_eq_add_one hframes
    rcases last with fault | last
    · have herror := left_result_error hopen name tasks fault
      rw [next, herror] at hok
      cases hok
    · rcases items with _ | ⟨item, items⟩
      · refine .nothing (leaves_left session name tasks (.ok ())).calls_eq (spliced_left hframes) ?_
          rfl
        rw [next, left_log]
        simp
      · cases item with
        | text location content =>
          rw [next, carried, Session.keepText] at hok ⊢
          cases hstyles : session.scanStyles with
          | none =>
            rw [hstyles] at hok
            cases hok
          | some styles => exact adds_append hopen (by simp [Node.filesAll]) (by simp)
        | comment location content =>
          rw [next, carried, Session.keepComment] at hok ⊢
          cases hstyles : session.settings.styles with
          | none =>
            rw [hstyles] at hok
            cases hok
          | some styles => exact adds_append hopen (by simp [Node.filesAll]) (by simp)
        | request request => exact adds_request hok
        | failure diagnostic => cases hok

end Moment

/-! ### The files that are open -/

namespace Moment

/-- The files that are open by the log are those that are being run. -/
def Logged (moment : Moment) : Prop :=
  Log.nesting? moment.session.log = some (moment.tasks.map Task.name)

/-- Entering a file at the depth that is one more than the files around keeps to the log. -/
lemma logged_entered {session : Session} {tasks : List Task}
    (hlog : Log.nesting? session.log = some (tasks.map Task.name))
    (hdepth : session.depth = tasks.length) (source : Text) (name path : String)
    (location : Position) : (entered session source name path location tasks).Logged := by
  rw [Logged, entered_log, Log.nesting?_snoc hlog, Log.Record.nest, hdepth, List.length_map,
    if_pos rfl]
  rfl

/-- Leaving the innermost file keeps to the log. -/
lemma Logged.left {session : Session} {task : Task} {tasks : List Task}
    {last : Except Fault (Option Node)} (h : Logged ⟨session, task :: tasks, last⟩)
    (result : Except Fault Unit) : (left session task.name tasks result).Logged := by
  rw [Logged, left_log, Log.nesting?_snoc h, Log.Record.nest, List.map_cons, List.head?_cons,
    if_pos rfl]
  rfl

end Moment

namespace Run

/-- The log fits the files that are being run, at every moment. -/
lemma logged (run : Run) (n : Nat) : (run.moment n).Logged := by
  refine sound_induction ?_ ?_ n
  · have hwarned (path : String) :
        Log.nesting? (run.session.enrollRoot run.loader path).log = some [] := by
      rw [Session.enrollRoot_log]
      exact Log.nesting?_warnings rfl _
    have hstarts := run.starts_first
    generalize run.first = first at hstarts
    cases hstarts with
    | text name content hinput => exact Moment.logged_entered rfl rfl content name name _
    | missing path fault hinput hfind => exact hwarned path
    | read path identity source hinput hidentity hread =>
      exact Moment.logged_entered (hwarned path) rfl source path _ _
  · intro moment hsound hlogged
    have hways := Moment.advances_next run.loader moment
    generalize moment.next run.loader = after at hways
    cases hways with
    | ended session result => exact hlogged
    | abandon session task tasks fault => exact hlogged.left (.error fault)
    | finish session name tasks last => exact hlogged.left (.ok ())
    | keep session name item items tasks last node hopen => exact hlogged
    | fail session name item items tasks last fault hfault => exact hlogged
    | refuse session name request items tasks last hdeep => exact hlogged
    | skip session name request items tasks last hshallow hmet =>
      have hwarned := Log.nesting?_warnings hlogged
        (run.loader.warnings (session.resolve request.target))
      exact Log.nesting?_snoc hwarned _
    | missing session name request items tasks last fault hshallow hnew hfind =>
      rw [Moment.Logged, Session.enroll_log]
      exact Log.nesting?_warnings hlogged _
    | enter session name request items tasks last identity source hshallow hnew hidentity hread =>
      have hdepth : (session.enroll run.loader request).depth =
          ((⟨name, items⟩ :: tasks : List Task).length : Int) := hsound.depth_eq
      refine Moment.logged_entered ?_ hdepth source _ _ _
      rw [Session.enroll_log]
      exact Log.nesting?_warnings hlogged _

/-! ### The files of a run -/

/-- The paths of the files of the requests that a run skips before a moment, in order. -/
def skipped (run : Run) (n : Nat) : List String :=
  (List.range n).filterMap fun k => (run.moment k).skipped? run.loader

/-- One step more skips at most one request. -/
lemma skipped_succ (run : Run) (n : Nat) :
    run.skipped (n + 1) = run.skipped n ++ ((run.moment n).skipped? run.loader).toList := by
  rw [skipped, List.range_succ, List.filterMap_append]
  cases h : (run.moment n).skipped? run.loader <;> simp [skipped, h]

/-- The names of the files that a run does not read: a text that it is given. -/
def given (run : Run) : List String :=
  match run.input with
  | .text name _ => [name]
  | .file _ => []

/-- The names of the files of a tree that are read: all files, or those spliced into a text that was
given. -/
def readNames (run : Run) (root : Node) : List String :=
  match run.input with
  | .text _ _ => root.files.filterMap Node.name?
  | .file _ => root.names

/-- What comes after the text that was given, among the files of a tree, are those that are read. -/
lemma eq_readNames {run : Run} {root : Node} {reads : List String}
    (h : run.given ++ reads = root.names) : reads = run.readNames root := by
  unfold given at h
  unfold readNames
  split at h
  · cases root with
    | text location content =>
      rw [Node.names, Node.files] at h
      cases h
    | comment location content style =>
      rw [Node.names, Node.files] at h
      cases h
    | file location name path children => exact (List.cons.inj h).2
  · exact h

/-- The traces of a run up to a moment fit the tree as far as it is built: the files that were read
are those of the tree, without a text that was given, nothing else was asked for but the identities
of skipped requests, and the files that were entered by the log are those of the tree. -/
structure Accounts (run : Run) (n : Nat) (reads : List String) : Prop where
  traces : Call.Traces (run.moment n).session.calls reads (run.skipped n)
  spliced : run.given ++ reads = (run.moment n).spliced
  entered : Log.entered (run.moment n).session.log = (run.moment n).spliced

/-- The traces fit at the first moment of a run, unless the file of the run is not found. -/
lemma exists_accounts_first {run : Run} {last : Option Node} (h : run.first.result = .ok last) :
    ∃ reads, run.Accounts 0 reads := by
  have hstarts := run.starts_first
  generalize hfirst : run.first = first at hstarts h
  have hmoment : run.moment 0 = first := hfirst
  cases hstarts with
  | text name content hinput =>
    refine ⟨[], ?_, ?_, ?_⟩
    · rw [hmoment]
      exact .nil
    · rw [hmoment, given, hinput, Moment.spliced_entered]
      rfl
    · rw [hmoment, Moment.spliced_entered, Moment.entered_log]
      rfl
  | missing path fault hinput hfind => cases h
  | read path identity source hinput hidentity hread =>
    have hcalls : (run.moment 0).session.calls = [] ++ [.canonical path, .read path] := by
      rw [hmoment, ← Loader.questions_of_ok hidentity]
      exact run.session.enrollRoot_calls run.loader path
    refine ⟨[path], ?_, ?_, ?_⟩
    · rw [hcalls]
      exact .file path .nil
    · rw [hmoment, given, hinput, Moment.spliced_entered]
      rfl
    · rw [hmoment, Moment.spliced_entered, Moment.entered_log, Session.enrollRoot_log,
        Log.entered_append, Log.entered_append, Log.entered_warnings, Log.entered_entering]
      rfl

/-- A step that succeeds keeps the traces fitting. -/
lemma Accounts.next {run : Run} {n : Nat} {reads : List String} {last : Option Node}
    (h : run.Accounts n reads) (hok : (run.moment (n + 1)).result = .ok last) :
    ∃ more, run.Accounts (n + 1) more := by
  obtain ⟨htraces, hspliced, hentered⟩ := h
  have hframes : (run.moment n).session.frames.length = (run.moment n).tasks.length := by
    simpa using congrArg List.length (run.sound n).names_eq
  rw [moment_succ] at hok
  cases Moment.adds_next hframes hok with
  | nothing hcalls hsame hlog hskipped =>
    refine ⟨reads, ?_, ?_, ?_⟩
    · rw [moment_succ, skipped_succ, hcalls, hskipped, Option.toList_none, List.append_nil]
      exact htraces
    · rw [moment_succ, hsame, hspliced]
    · rw [moment_succ, hlog, hentered, hsame]
  | skip path hcalls hsame hlog hskipped =>
    refine ⟨reads, ?_, ?_, ?_⟩
    · rw [moment_succ, skipped_succ, hcalls, hskipped]
      exact htraces.skip path
    · rw [moment_succ, hsame, hspliced]
    · rw [moment_succ, hlog, hentered, hsame]
  | file path hcalls hmore hlog hskipped =>
    refine ⟨reads ++ [path], ?_, ?_, ?_⟩
    · rw [moment_succ, skipped_succ, hcalls, hskipped, Option.toList_none, List.append_nil]
      exact htraces.file path
    · rw [moment_succ, hmore, ← hspliced, List.append_assoc]
    · rw [moment_succ, hlog, hentered, hmore]

/-- As long as a run does not fail, its traces fit the tree. The induction is on the moments, none
of which follows one with a fault. -/
lemma exists_accounts (run : Run) (n : Nat) {last : Option Node}
    (h : (run.moment n).result = .ok last) : ∃ reads, run.Accounts n reads := by
  induction n generalizing last with
  | zero => exact exists_accounts_first h
  | succ n ih =>
    cases hbefore : (run.moment n).result with
    | ok before =>
      obtain ⟨reads, hreads⟩ := ih hbefore
      exact hreads.next h
    | error fault =>
      rw [(error_moment_add hbefore 1).1] at h
      cases h

/-- A run that succeeds reads the files of its tree, in the order of the tree: the top-level file
and then the files spliced in, or the latter alone if the run is given a text. Each is identified
right before it is read, and otherwise the loader is asked only for the identities of the requests
that are skipped. The files that are entered by the log are all those of the tree, in the same
order. The log of any run, also of one that fails, is well bracketed: files are left in the reverse
order in which they are entered, all files that are entered are left, and the depth of each is the
number of files that are open with it. -/
theorem trace_of_outcome (run : Run) :
    (∀ root, run.outcome.2 = .ok root →
      run.outcome.1.calls.filterMap Call.readPath? = run.readNames root ∧
      Log.entered run.outcome.1.log = root.names ∧
      ∃ last, run.moment last = ⟨run.outcome.1, [], .ok (some root)⟩ ∧
        Call.Traces run.outcome.1.calls (run.readNames root) (run.skipped last)) ∧
    Log.nesting? run.outcome.1.log = some [] := by
  obtain ⟨last, hlast⟩ := run.exists_last
  refine ⟨?_, ?_⟩
  · intro root hroot
    rw [hroot] at hlast
    have hok : (run.moment last).result = .ok (some root) := by
      rw [hlast]
      rfl
    obtain ⟨reads, htraces, hspliced, hentered⟩ := run.exists_accounts last hok
    rw [hlast] at htraces hspliced hentered
    obtain rfl : reads = run.readNames root := eq_readNames hspliced
    exact ⟨htraces.filterMap_readPath?, hentered, last, hlast, htraces⟩
  · have hlogged := run.logged last
    rw [hlast] at hlogged
    exact hlogged

/-- A run of a file that asks for a second file, and then for a third one that the second one asks
for already. -/
def nested : Run where
  context := .initial
  settings := none
  loader := Catalogue.loader ⟨[("m", "#include \"x\"\n#require \"y\"\n".toList),
    ("x", "#require \"y\"\n".toList), ("y", "q\n".toList)]⟩
  input := .file "m"

/-- The tree of such a run. -/
def nestedRoot : Node :=
  .file ⟨"m", 1, 1⟩ "m" "m" [.file ⟨"m", 1, 1⟩ "x" "x" [.file ⟨"x", 1, 1⟩ "y" "y"
    [.text ⟨"y", 1, 1⟩ "q\n".toList]]]

/-- The three files are read and entered in the order of the tree, and the identity that is asked
for last is that of the request that is skipped. -/
theorem trace_of_outcome_nested :
    nested.outcome.2 = .ok nestedRoot ∧
      nested.outcome.1.calls.filterMap Call.readPath? = ["m", "x", "y"] ∧
      nested.outcome.1.calls = [.canonical "m", .read "m", .canonical "x", .read "x",
        .canonical "y", .read "y", .canonical "y"] ∧
      Log.entered nested.outcome.1.log = ["m", "x", "y"] ∧
      Log.nesting? nested.outcome.1.log = some [] := by
  obtain ⟨htree, hlog⟩ := trace_of_outcome nested
  have hroot : nested.outcome.2 = .ok nestedRoot := by decide +kernel
  have hnames : nestedRoot.names = ["m", "x", "y"] := by
    simp [nestedRoot, Node.names, Node.files, Node.filesAll, Node.name?]
  obtain ⟨hreads, hentered, -⟩ := htree nestedRoot hroot
  exact ⟨hroot, hreads.trans hnames, by decide +kernel, hentered.trans hnames, hlog⟩

end Run

end Splice

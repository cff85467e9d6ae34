import Mathlib.Logic.Function.Iterate
import Splice.Proofs.Expansion.Rendering
import Splice.Proofs.Session.Operation

/-!
# A run, moment by moment

A run is given by functions that call each other for files nested in one another. What holds
throughout a run is said about its moments instead. A `Moment` has the session, the files that are
being run with the items that are left of each, and what the last step came to; `Moment.next`
carries out one item, or leaves a file. The files that wait for the innermost one are a list, so
that there is no recursion in a step.

The moments of a run lead to the outcome of the run: entering a file and going on step by step ends
with the file left, the session and the result being those of `Session.runFile`, whatever files wait
around it (`Moment.runFile_reaches`). So each run has a last moment, with its outcome
(`Run.exists_last`).
-/

namespace Splice

/-- A file that is being run, with the items that are still to be carried out. -/
structure Task where
  name : String
  items : List Item
deriving DecidableEq

/-- A run at one moment. It is over when no file is being run. -/
structure Moment where
  session : Session
  /-- The files that are being run, innermost first. -/
  tasks : List Task
  /-- What the last step came to. After a fault all files are left; the node is that of a file which
  was just left. -/
  result : Except Fault (Option Node)

namespace Moment

/-- The moment at which a file was entered. -/
def entered (session : Session) (source : Text) (name path : String) (location : Position)
    (tasks : List Task) : Moment :=
  let session := session.push ⟨location, name, path, []⟩
  let session := session.note (.entering name session.depth)
  ⟨session, ⟨name, session.dialect.items name source⟩ :: tasks, .ok none⟩

/-- The moment at which a file was left. -/
def left (session : Session) (name : String) (tasks : List Task) (result : Except Fault Unit) :
    Moment :=
  let (session, result) := Session.close name (session, result)
  ⟨session, tasks, result.map some⟩

/-- What leaving a file does to the session: the innermost file is taken off, and becomes a child of
the next one if it is complete. Neither the loader nor the identities that were met are involved. -/
structure Leaves (session after : Session) : Prop where
  settings_eq : after.settings = session.settings
  fallback_eq : after.fallback = session.fallback
  visited_eq : after.visited = session.visited
  calls_eq : after.calls = session.calls
  depth_eq : after.depth = session.depth - 1
  names_eq : after.frames.map Frame.name = (session.frames.map Frame.name).tail

/-- Leaving a file does no more than this. -/
lemma leaves_left (session : Session) (name : String) (tasks : List Task)
    (result : Except Fault Unit) : Leaves session (left session name tasks result).session := by
  obtain ⟨settings, fallback, depth, visited, frames, calls, log⟩ := session
  rcases frames with _ | ⟨frame, _ | ⟨outer, frames⟩⟩
  · exact ⟨rfl, rfl, rfl, rfl, rfl, rfl⟩
  · cases result <;> exact ⟨rfl, rfl, rfl, rfl, rfl, rfl⟩
  · cases result <;> exact ⟨rfl, rfl, rfl, rfl, rfl, rfl⟩

/-- A file that was entered can be left, and a fault stays the same. -/
lemma left_result_error {session : Session} (hopen : session.frames ≠ []) (name : String)
    (tasks : List Task) (fault : Fault) :
    (left session name tasks (.error fault)).result = .error fault := by
  obtain ⟨settings, fallback, depth, visited, frames, calls, log⟩ := session
  cases frames with
  | nil => exact absurd rfl hopen
  | cons frame frames => rfl

/-- A file that was entered can be left, and then is a node. -/
lemma left_result_ok {session : Session} (hopen : session.frames ≠ []) (name : String)
    (tasks : List Task) :
    ∃ node, (left session name tasks (.ok ())).result = .ok (some node) := by
  obtain ⟨settings, fallback, depth, visited, frames, calls, log⟩ := session
  cases frames with
  | nil => exact absurd rfl hopen
  | cons frame frames => exact ⟨_, rfl⟩

/-- The moment after the retrieval of the file of a request, which is entered if there is one. -/
def retrieved (location : Position) (tasks : List Task) : Outcome (Option Retrieval) → Moment
  | (session, .error fault) => ⟨session, tasks, .error fault⟩
  | (session, .ok none) => ⟨session, tasks, .ok none⟩
  | (session, .ok (some file)) =>
    entered session file.source file.name file.identity location tasks

/-- The moment after an item was carried out; `tasks` is what is left to be done. -/
def carried (loader : Loader) (session : Session) (tasks : List Task) : Item → Moment
  | .text location content =>
    let (session, result) := session.keepText location content
    ⟨session, tasks, result.map fun _ => none⟩
  | .comment location content =>
    let (session, result) := session.keepComment location content
    ⟨session, tasks, result.map fun _ => none⟩
  | .request request =>
    if session.settings.maxDepth ≤ session.depth then
      ⟨session, tasks,
        .error (.problem (.tooDeep session.settings.maxDepth request.location))⟩
    else retrieved request.location tasks (session.retrieve loader request)
  | .failure diagnostic => ⟨session, tasks, .error (.problem diagnostic)⟩

/-- The next moment: the next item of the innermost file is carried out. The file is left when it
has no more items, or when there was a fault. -/
def next (loader : Loader) : Moment → Moment
  | ⟨session, [], result⟩ => ⟨session, [], result⟩
  | ⟨session, task :: tasks, .error fault⟩ => left session task.name tasks (.error fault)
  | ⟨session, ⟨name, []⟩ :: tasks, .ok _⟩ => left session name tasks (.ok ())
  | ⟨session, ⟨name, item :: items⟩ :: tasks, .ok _⟩ =>
    carried loader session (⟨name, items⟩ :: tasks) item

/-- The request that the next step carries out, if it carries out one. -/
def request? : Moment → Option Request
  | ⟨_, ⟨_, .request request :: _⟩ :: _, .ok _⟩ => some request
  | _ => none

/-- A request is carried out exactly if it is the next item of the innermost file and there was no
fault. -/
lemma request?_eq_some {moment : Moment} {request : Request} (h : moment.request? = some request) :
    ∃ session name items tasks last,
      moment = ⟨session, ⟨name, .request request :: items⟩ :: tasks, .ok last⟩ := by
  unfold request? at h
  split at h
  · cases h
    exact ⟨_, _, _, _, _, rfl⟩
  · cases h

/-- The ways in which the next moment can come about, with what a step finds. -/
inductive Advances (loader : Loader) : Moment → Moment → Prop where
  /-- A run that is over stays as it is. -/
  | ended (session : Session) (result : Except Fault (Option Node)) :
    Advances loader ⟨session, [], result⟩ ⟨session, [], result⟩
  /-- After a fault the innermost file is given up. -/
  | abandon (session : Session) (task : Task) (tasks : List Task) (fault : Fault) :
    Advances loader ⟨session, task :: tasks, .error fault⟩
      (left session task.name tasks (.error fault))
  /-- A file without further items is complete. -/
  | finish (session : Session) (name : String) (tasks : List Task) (last : Option Node) :
    Advances loader ⟨session, ⟨name, []⟩ :: tasks, .ok last⟩ (left session name tasks (.ok ()))
  /-- Text or a comment is kept. -/
  | keep (session : Session) (name : String) (item : Item) (items : List Item)
    (tasks : List Task) (last : Option Node) (node : Node) (hopen : session.frames ≠ []) :
    Advances loader ⟨session, ⟨name, item :: items⟩ :: tasks, .ok last⟩
      ⟨session.extend session.ledger [node], ⟨name, items⟩ :: tasks, .ok none⟩
  /-- An item cannot be carried out. A problem with the source is one that the item states. -/
  | fail (session : Session) (name : String) (item : Item) (items : List Item)
    (tasks : List Task) (last : Option Node) (fault : Fault)
    (hfault : ∀ diagnostic, fault = .problem diagnostic → item = .failure diagnostic) :
    Advances loader ⟨session, ⟨name, item :: items⟩ :: tasks, .ok last⟩
      ⟨session, ⟨name, items⟩ :: tasks, .error fault⟩
  /-- A request is refused in a file that is nested as deep as allowed. -/
  | refuse (session : Session) (name : String) (request : Request) (items : List Item)
    (tasks : List Task) (last : Option Node)
    (hdeep : (session.settings.maxDepth : Int) ≤ session.depth) :
    Advances loader ⟨session, ⟨name, .request request :: items⟩ :: tasks, .ok last⟩
      ⟨session, ⟨name, items⟩ :: tasks,
        .error (.problem (.tooDeep session.settings.maxDepth request.location))⟩
  /-- A request is skipped for a file that was met. -/
  | skip (session : Session) (name : String) (request : Request) (items : List Item)
    (tasks : List Task) (last : Option Node)
    (hshallow : session.depth < session.settings.maxDepth)
    (hmet : session.HasMet loader request) :
    Advances loader ⟨session, ⟨name, .request request :: items⟩ :: tasks, .ok last⟩
      ⟨session.skip loader request, ⟨name, items⟩ :: tasks, .ok none⟩
  /-- The file of a request is not found. -/
  | missing (session : Session) (name : String) (request : Request) (items : List Item)
    (tasks : List Task) (last : Option Node) (fault : Fault)
    (hshallow : session.depth < session.settings.maxDepth)
    (hnew : ¬ session.HasMet loader request)
    (hfind : (session.plan loader).find (session.resolve request.target) request.location =
      .error fault) :
    Advances loader ⟨session, ⟨name, .request request :: items⟩ :: tasks, .ok last⟩
      ⟨session.enroll loader request, ⟨name, items⟩ :: tasks, .error fault⟩
  /-- The file of a request is read and entered. -/
  | enter (session : Session) (name : String) (request : Request) (items : List Item)
    (tasks : List Task) (last : Option Node) (identity : String) (source : Text)
    (hshallow : session.depth < session.settings.maxDepth)
    (hnew : ¬ session.HasMet loader request)
    (hidentity : session.identityOf loader request = .ok identity)
    (hread : loader.read (session.resolve request.target) = .ok source) :
    Advances loader ⟨session, ⟨name, .request request :: items⟩ :: tasks, .ok last⟩
      (entered (session.enroll loader request) source (session.resolve request.target) identity
        request.location (⟨name, items⟩ :: tasks))

section Advances

variable {loader : Loader} {session : Session} {name : String} {items : List Item}
  {tasks : List Task} {last : Option Node}

/-- A node is added to the innermost file, or the step fails without a problem in the source. -/
lemma advances_append (item : Item) (node : Node) :
    Advances loader ⟨session, ⟨name, item :: items⟩ :: tasks, .ok last⟩
      ⟨(session.append node).1, ⟨name, items⟩ :: tasks,
        (session.append node).2.map fun _ => none⟩ := by
  by_cases hopen : session.frames = []
  · have happend : session.append node = (session, .error .noOpenFile) := by
      rw [Session.append, hopen]
    rw [happend]
    refine .fail session name item items tasks last .noOpenFile ?_
    intro diagnostic hfault
    cases hfault
  · rw [Session.append_eq_extend hopen]
    exact .keep session name item items tasks last node hopen

/-- A step that needs comment styles fails without them. -/
lemma advances_noStyles (item : Item) :
    Advances loader ⟨session, ⟨name, item :: items⟩ :: tasks, .ok last⟩
      ⟨session, ⟨name, items⟩ :: tasks, .error .noStyles⟩ := by
  refine .fail session name item items tasks last .noStyles ?_
  intro diagnostic hfault
  cases hfault

/-- A request above the greatest depth goes on with the retrieval of its file. -/
lemma advances_retrieved {request : Request}
    (hshallow : session.depth < session.settings.maxDepth) :
    Advances loader ⟨session, ⟨name, .request request :: items⟩ :: tasks, .ok last⟩
      (retrieved request.location (⟨name, items⟩ :: tasks) (session.retrieve loader request)) := by
  have hways := Session.retrieves_retrieve loader request session
  generalize session.retrieve loader request = outcome at hways
  cases hways with
  | skipped hmet => exact .skip session name request items tasks last hshallow hmet
  | missing fault hnew hfind =>
    exact .missing session name request items tasks last fault hshallow hnew hfind
  | read identity source hnew hidentity hread =>
    exact .enter session name request items tasks last identity source hshallow hnew hidentity
      hread

/-- Every step goes in one of these ways. -/
lemma advances_next (loader : Loader) (moment : Moment) :
    Advances loader moment (moment.next loader) := by
  obtain ⟨session, tasks, result⟩ := moment
  rcases tasks with _ | ⟨⟨name, items⟩, tasks⟩
  · exact .ended session result
  · rcases result with fault | last
    · exact .abandon session ⟨name, items⟩ tasks fault
    · rcases items with _ | ⟨item, items⟩
      · exact .finish session name tasks last
      · cases item with
        | text location content =>
          rw [next, carried, Session.keepText]
          cases session.scanStyles with
          | none => exact advances_noStyles _
          | some styles => exact advances_append _ _
        | comment location content =>
          rw [next, carried, Session.keepComment]
          cases session.settings.styles with
          | none => exact advances_noStyles _
          | some styles => exact advances_append _ _
        | request request =>
          rw [next, carried]
          split
          · rename_i hdeep
            exact .refuse session name request items tasks last hdeep
          · rename_i hshallow
            exact advances_retrieved (by omega)
        | failure diagnostic =>
          refine .fail session name (.failure diagnostic) items tasks last _ ?_
          intro other hfault
          cases hfault
          rfl

end Advances

section Request

variable {loader : Loader} {session : Session} {name : String} {request : Request}
  {items : List Item} {tasks : List Task} {last : Option Node}

/-- A request above the greatest depth that is skipped. -/
lemma next_of_hasMet (hshallow : session.depth < session.settings.maxDepth)
    (hmet : session.HasMet loader request) :
    next loader ⟨session, ⟨name, .request request :: items⟩ :: tasks, .ok last⟩ =
      ⟨session.skip loader request, ⟨name, items⟩ :: tasks, .ok none⟩ := by
  rw [next, carried, if_neg (by omega), Session.retrieve_of_hasMet hmet]
  rfl

/-- A request above the greatest depth that is not skipped asks for an identity, and if there is one
for a file. -/
lemma session_next_of_not_hasMet (hshallow : session.depth < session.settings.maxDepth)
    (hnew : ¬ session.HasMet loader request) :
    (next loader ⟨session, ⟨name, .request request :: items⟩ :: tasks, .ok last⟩).session.calls =
        (session.enroll loader request).calls ∧
      (next loader
          ⟨session, ⟨name, .request request :: items⟩ :: tasks, .ok last⟩).session.visited =
        (session.enroll loader request).visited := by
  rw [next, carried, if_neg (by omega), Session.retrieve_of_not_hasMet hnew]
  rcases (session.plan loader).find (session.resolve request.target) request.location with
    fault | ⟨identity, source⟩
  · exact ⟨rfl, rfl⟩
  · exact ⟨rfl, rfl⟩

/-- A request at the greatest depth is refused. -/
lemma next_of_deep (hdeep : (session.settings.maxDepth : Int) ≤ session.depth) :
    next loader ⟨session, ⟨name, .request request :: items⟩ :: tasks, .ok last⟩ =
      ⟨session, ⟨name, items⟩ :: tasks,
        .error (.problem (.tooDeep session.settings.maxDepth request.location))⟩ := by
  rw [next, carried, if_pos hdeep]

end Request

/-! ### Steps lead to the outcome of a run -/

/-- A moment that comes some steps after another one. -/
def Reaches (loader : Loader) (moment later : Moment) : Prop :=
  ∃ n, (next loader)^[n] moment = later

section Reaches

variable {loader : Loader}

/-- A moment comes no steps after itself. -/
lemma Reaches.refl (moment : Moment) : Reaches loader moment moment :=
  ⟨0, rfl⟩

/-- What comes some steps after the next moment comes after the moment. -/
lemma Reaches.of_next {moment later : Moment} (h : Reaches loader (next loader moment) later) :
    Reaches loader moment later := by
  obtain ⟨n, hn⟩ := h
  exact ⟨n + 1, hn⟩

/-- Steps can be taken one after the other. -/
lemma Reaches.trans {moment between later : Moment} (hfirst : Reaches loader moment between)
    (hsecond : Reaches loader between later) : Reaches loader moment later := by
  obtain ⟨n, rfl⟩ := hfirst
  obtain ⟨k, rfl⟩ := hsecond
  refine ⟨k + n, ?_⟩
  rw [Function.iterate_add_apply]

/-- A file is left after a fault, and when there are no more items. -/
lemma next_eq_left (session : Session) (name : String) {items : List Item} (tasks : List Task)
    {result : Except Fault (Option Node)} (h : ∀ node?, result = .ok node? → items = []) :
    next loader ⟨session, ⟨name, items⟩ :: tasks, result⟩ =
      left session name tasks (result.map fun _ => ()) := by
  cases result with
  | error fault => rfl
  | ok node? =>
    obtain rfl := h node? rfl
    rfl

/-- Answering requests with the given number of levels left is what steps lead to. -/
def Serves (loader : Loader) (room : Nat) : Prop :=
  ∀ (request : Request) (session : Session) (name : String) (items : List Item)
    (tasks : List Task) (last : Option Node), session.room = room →
    Reaches loader ⟨session, ⟨name, .request request :: items⟩ :: tasks, .ok last⟩
      ⟨(Session.serveWithin loader room request session).1, ⟨name, items⟩ :: tasks,
        (Session.serveWithin loader room request session).2⟩

/-- A session that grows has the same number of levels left. -/
lemma room_of_grows {session after : Session} (h : session.Grows after) :
    after.room = session.room := by
  obtain ⟨ledger, nodes, -, rfl⟩ := h
  rfl

/-- From a moment, steps lead to the innermost file having been run to its end, or to a fault in it,
with the given outcome. -/
def Performs (loader : Loader) (moment : Moment) (name : String) (tasks : List Task)
    (outcome : Outcome Unit) : Prop :=
  ∃ items result, Reaches loader moment ⟨outcome.1, ⟨name, items⟩ :: tasks, result⟩ ∧
    result.map (fun _ => ()) = outcome.2 ∧ ∀ node?, result = .ok node? → items = []

/-- A fault in a file is one of its outcomes. -/
lemma Performs.of_error {moment : Moment} {session : Session} {name : String} {items : List Item}
    {tasks : List Task} {fault : Fault}
    (h : Reaches loader moment ⟨session, ⟨name, items⟩ :: tasks, .error fault⟩) :
    Performs loader moment name tasks (session, .error fault) := by
  refine ⟨items, .error fault, h, rfl, ?_⟩
  intro node? hresult
  cases hresult

/-- What steps lead to later is what they lead to. -/
lemma Performs.of_reaches {moment between : Moment} {name : String} {tasks : List Task}
    {outcome : Outcome Unit} (h : Reaches loader moment between)
    (hlater : Performs loader between name tasks outcome) :
    Performs loader moment name tasks outcome := by
  obtain ⟨items, result, hreaches, hresult, hitems⟩ := hlater
  exact ⟨items, result, h.trans hreaches, hresult, hitems⟩

/-- Steps that lead to the outcome of an item, and from there to that of the other items, lead to
that of all items. -/
lemma Performs.andThen {α : Type} {moment : Moment} {name : String} {items : List Item}
    {tasks : List Task} {outcome : Outcome α} {node? : α → Option Node}
    {rest : Session → Outcome Unit}
    (hitem : Reaches loader moment ⟨outcome.1, ⟨name, items⟩ :: tasks, outcome.2.map node?⟩)
    (hrest : ∀ last, Performs loader ⟨outcome.1, ⟨name, items⟩ :: tasks, .ok last⟩ name tasks
      (rest outcome.1)) :
    Performs loader moment name tasks (outcome.andThen rest) := by
  obtain ⟨after, fault | result⟩ := outcome
  · exact .of_error hitem
  · exact .of_reaches hitem (hrest (node? result))

/-- Steps carry out the items of a file, up to the first that fails. The induction is on the
items. -/
lemma performs_perform {room : Nat} (hserves : Serves loader room) (items : List Item)
    (session : Session) (name : String) (tasks : List Task) (last : Option Node)
    (hroom : session.room = room) :
    Performs loader ⟨session, ⟨name, items⟩ :: tasks, .ok last⟩ name tasks
      (Session.perform (Session.serveWithin loader room) items session) := by
  induction items generalizing session last with
  | nil => exact ⟨[], .ok last, Reaches.refl _, rfl, fun _ _ => rfl⟩
  | cons item items ih =>
    cases item with
    | text location content =>
      have hgrows := session.keepText_grows location content
      have hstep : Reaches loader
          ⟨session, ⟨name, .text location content :: items⟩ :: tasks, .ok last⟩
          ⟨(session.keepText location content).1, ⟨name, items⟩ :: tasks,
            (session.keepText location content).2.map fun _ => none⟩ := ⟨1, rfl⟩
      rw [Session.perform_text]
      exact .andThen hstep fun next? => ih _ next? ((room_of_grows hgrows).trans hroom)
    | comment location content =>
      have hgrows := session.keepComment_grows location content
      have hstep : Reaches loader
          ⟨session, ⟨name, .comment location content :: items⟩ :: tasks, .ok last⟩
          ⟨(session.keepComment location content).1, ⟨name, items⟩ :: tasks,
            (session.keepComment location content).2.map fun _ => none⟩ := ⟨1, rfl⟩
      rw [Session.perform_comment]
      exact .andThen hstep fun next? => ih _ next? ((room_of_grows hgrows).trans hroom)
    | request request =>
      have hgrows := (Session.serveWithin_extends loader room request session).grows
      have hstep : Reaches loader ⟨session, ⟨name, .request request :: items⟩ :: tasks, .ok last⟩
          ⟨(Session.serveWithin loader room request session).1, ⟨name, items⟩ :: tasks,
            (Session.serveWithin loader room request session).2.map id⟩ := by
        rw [Except.map_id]
        exact hserves request session name items tasks last hroom
      rw [Session.perform_request]
      exact .andThen hstep fun next? => ih _ next? ((room_of_grows hgrows).trans hroom)
    | failure diagnostic => exact .of_error ⟨1, rfl⟩

/-- From the moment at which a file was entered, steps lead to the moment at which it was left, with
the outcome of running it. -/
lemma runFile_reaches {room : Nat} (hserves : Serves loader room) (session : Session)
    (hroom : session.room - 1 = room) (source : Text) (name path : String) (location : Position)
    (tasks : List Task) :
    Reaches loader (entered session source name path location tasks)
      ⟨(Session.runFile (Session.serveWithin loader room) source name path location session).1,
        tasks,
        (Session.runFile (Session.serveWithin loader room) source name path location
          session).2.map some⟩ := by
  set inner := (session.push ⟨location, name, path, []⟩).note
    (.entering name (session.push ⟨location, name, path, []⟩).depth) with hinner
  have hinnerRoom : inner.room = room := by
    have hdepth : inner.depth = session.depth + 1 := rfl
    have hsettings : inner.settings = session.settings := rfl
    unfold Session.room at hroom ⊢
    rw [hdepth, hsettings]
    omega
  obtain ⟨items, result, hreaches, hresult, hitems⟩ := performs_perform hserves
    (inner.dialect.items name source) inner name tasks none hinnerRoom
  refine hreaches.trans (.of_next ?_)
  rw [next_eq_left _ name tasks hitems, hresult]
  exact Reaches.refl _

/-- Steps answer requests. The induction is on the levels that are left; the file of a request is
run with one level less. -/
lemma serves (loader : Loader) (room : Nat) : Serves loader room := by
  induction room with
  | zero =>
    intro request session name items tasks last hroom
    have hdeep : (session.settings.maxDepth : Int) ≤ session.depth := by
      unfold Session.room at hroom
      omega
    refine .of_next ?_
    rw [next, carried, if_pos hdeep]
    exact Reaches.refl _
  | succ room ih =>
    intro request session name items tasks last hroom
    have hshallow : ¬ (session.settings.maxDepth : Int) ≤ session.depth := by
      unfold Session.room at hroom
      omega
    have hgrows := (Session.retrieve_extends loader request session).grows
    refine .of_next ?_
    rw [next, carried, if_neg hshallow, Session.serveWithin_succ_eq]
    rcases hretrieve : session.retrieve loader request with ⟨after, fault | _ | file⟩
    · exact Reaches.refl _
    · exact Reaches.refl _
    · rw [hretrieve] at hgrows
      have hinner : after.room - 1 = room := by
        rw [room_of_grows hgrows, hroom, Nat.add_sub_cancel]
      have hrun := runFile_reaches ih after hinner file.source file.name file.identity
        request.location (⟨name, items⟩ :: tasks)
      rw [Session.runRetrieved]
      rcases hresult : Session.runFile (Session.serveWithin loader room) file.source file.name
          file.identity request.location after with ⟨final, fault | node⟩
      · rw [hresult] at hrun
        exact hrun
      · rw [hresult] at hrun
        exact hrun

/-- From the moment at which a source was entered, steps lead to the outcome of running it. -/
lemma runSource_reaches (loader : Loader) (session : Session) (source : Text) (name path : String)
    (location : Position) (tasks : List Task) :
    Reaches loader (entered session source name path location tasks)
      ⟨(session.runSource loader source name path location).1, tasks,
        (session.runSource loader source name path location).2.map some⟩ :=
  runFile_reaches (serves loader _) session rfl source name path location tasks

end Reaches

end Moment

/-! ### Runs -/

/-- What a run is given: a text under a name, or the path of a file. -/
inductive Input where
  | text (name : String) (content : Text)
  | file (path : String)

/-- A run, with everything that it depends on. -/
structure Run where
  context : Context
  settings : Option Settings
  loader : Loader
  input : Input

namespace Run

/-- The outcome of a run. -/
def outcome (run : Run) : Outcome Node :=
  match run.input with
  | .text name content => runText run.context run.settings run.loader name content
  | .file path => runFile run.context run.settings run.loader path

/-- The settings of a run: those given, or else those in force. -/
def limits (run : Run) : Settings :=
  run.settings.getD run.context.active

/-- The session with which a run starts. -/
def session (run : Run) : Session :=
  run.context.session run.settings

/-- The first moment of a run. A file that is not found is not entered. -/
def first (run : Run) : Moment :=
  match run.input with
  | .text name content => .entered run.session content name name (.start name) []
  | .file path =>
    match run.session.retrieveRoot run.loader path with
    | (session, .error fault) => ⟨session, [], .error fault⟩
    | (session, .ok file) =>
      .entered session file.source file.name file.identity (.start path) []

/-- The ways in which a run can start, with what it finds. -/
inductive Starts (run : Run) : Moment → Prop where
  /-- A text is entered. -/
  | text (name : String) (content : Text) (hinput : run.input = .text name content) :
    Starts run (.entered run.session content name name (.start name) [])
  /-- The file is not found. -/
  | missing (path : String) (fault : Fault) (hinput : run.input = .file path)
    (hfind : (run.session.plan run.loader).find path (.start path) = .error fault) :
    Starts run ⟨run.session.enrollRoot run.loader path, [], .error fault⟩
  /-- The file is read and entered. -/
  | read (path identity : String) (source : Text) (hinput : run.input = .file path)
    (hidentity : run.loader.canonical path = .ok identity)
    (hread : run.loader.read path = .ok source) :
    Starts run (.entered (run.session.enrollRoot run.loader path) source path identity
      (.start path) [])

/-- Every run starts in one of these ways. -/
lemma starts_first (run : Run) : run.Starts run.first := by
  unfold first
  split
  · rename_i name content hinput
    exact .text name content hinput
  · rename_i path hinput
    rw [Session.retrieveRoot_eq]
    rcases hfind : (run.session.plan run.loader).find path (.start path) with
      fault | ⟨identity, source⟩
    · exact .missing path fault hinput hfind
    · obtain ⟨hidentity, hread⟩ := Plan.find_eq_ok_iff.1 hfind
      exact .read path identity source hinput hidentity hread

/-- The moments of a run, in order. -/
def moment (run : Run) (n : Nat) : Moment :=
  (Moment.next run.loader)^[n] run.first

/-- Each moment of a run comes from the one before it. -/
lemma moment_succ (run : Run) (n : Nat) :
    run.moment (n + 1) = Moment.next run.loader (run.moment n) := by
  rw [moment, Function.iterate_succ_apply']
  rfl

/-- What holds at the first moment of a run, and at the next moment after each at which it holds,
holds at all moments. -/
lemma moment_induction {run : Run} {P : Moment → Prop} (hfirst : P run.first)
    (hnext : ∀ moment, P moment → P (moment.next run.loader)) (n : Nat) : P (run.moment n) := by
  induction n with
  | zero => exact hfirst
  | succ n ih =>
    rw [moment_succ]
    exact hnext _ ih

/-- A run that is over stays as it is. -/
lemma moment_of_over {run : Run} {n : Nat} (hover : (run.moment n).tasks = []) (k : Nat) :
    run.moment (n + k) = run.moment n := by
  induction k with
  | zero => rfl
  | succ k ih =>
    rw [← Nat.add_assoc, moment_succ, ih]
    generalize run.moment n = moment at hover
    obtain ⟨session, tasks, result⟩ := moment
    obtain rfl : tasks = [] := hover
    rfl

/-- Each run has a last moment, and its session and result are the outcome of the run. -/
lemma exists_last (run : Run) :
    ∃ n, run.moment n = ⟨run.outcome.1, [], run.outcome.2.map some⟩ := by
  have hstarts := run.starts_first
  unfold moment
  generalize run.first = first at hstarts
  cases hstarts with
  | text name content hinput =>
    rw [outcome, hinput]
    exact Moment.runSource_reaches run.loader run.session content name name (.start name) []
  | missing path fault hinput hfind =>
    have houtcome : run.outcome = (run.session.enrollRoot run.loader path, .error fault) := by
      rw [outcome, hinput]
      exact Session.runRoot_of_missing hfind
    refine ⟨0, ?_⟩
    rw [houtcome]
    rfl
  | read path identity source hinput hidentity hread =>
    have houtcome : run.outcome =
        (run.session.enrollRoot run.loader path).runSource run.loader source path identity
          (.start path) := by
      rw [outcome, hinput]
      exact Session.runRoot_of_found (Plan.find_eq_ok_iff.2 ⟨hidentity, hread⟩)
    rw [houtcome]
    exact Moment.runSource_reaches run.loader (run.session.enrollRoot run.loader path) source path
      identity (.start path) []

end Run

end Splice

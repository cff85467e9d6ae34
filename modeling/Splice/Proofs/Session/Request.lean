import Splice.Proofs.Session.Extension

/-!
# What becomes of a request

Answering a request has two parts. First its file is retrieved: the loader is asked for the identity
of the file, a request for one time only is skipped if that identity was met, and otherwise the file
is read. Then the file is run. `Session.retrieve` is the first part alone, which is where the
identities that were met are looked up and entered; `Session.Retrieves` lists the three ways in
which it can go, and `Session.serveWithin_succ_eq` puts it in its place in front of the run. A
top-level file is retrieved in the same way, but never skipped (`Session.retrieveRoot`).
-/

namespace Splice

/-- A file that was found and read for a request. -/
structure Retrieval where
  name : String
  identity : String
  source : Text

namespace Session

/-- Finds and reads the file of a request. There is none if the request is skipped. -/
def retrieve (loader : Loader) (request : Request) (session : Session) :
    Outcome (Option Retrieval) :=
  let name := session.resolve request.target
  match session.identify loader name with
  | (session, .error fault) => (session, .error fault)
  | (session, .ok identity) =>
    if request.once && session.visited.contains identity then
      (session.note (.skipping request.location name), .ok none)
    else
      let session := if request.once then session.visit identity else session
      match session.load loader name request.location with
      | (session, .error fault) => (session, .error fault)
      | (session, .ok source) => (session, .ok (some ⟨name, identity, source⟩))

/-- The identity of the file that a request asks for in a session, if it has one. -/
def identityOf (session : Session) (loader : Loader) (request : Request) :
    Except String String :=
  loader.canonical (session.resolve request.target)

/-- Whether a request is for one time only and the identity of its file was met. -/
def HasMet (session : Session) (loader : Loader) (request : Request) : Prop :=
  request.once = true ∧
    ∃ identity ∈ session.visited, session.identityOf loader request = .ok identity

/-- The session after a request was skipped: the loader was asked for an identity, and the log says
so. -/
def skip (session : Session) (loader : Loader) (request : Request) : Session :=
  { session with
    calls := session.calls ++ [.canonical (session.resolve request.target)]
    log := session.log ++ (loader.warnings (session.resolve request.target)).map .warning ++
      [.skipping request.location (session.resolve request.target)] }

/-- The session after the file of a request was asked for: the identity, if there is one, counts as
met if the request is for one time only. -/
def enroll (session : Session) (loader : Loader) (request : Request) : Session :=
  session.extend
    (session.ledger.enroll loader request.once (session.resolve request.target)) []

section Fields

variable (session : Session) (loader : Loader) (request : Request)

/-- A session that is extended by no children has the frames it had. -/
@[simp] lemma extend_nil_frames (ledger : Ledger) :
    (session.extend ledger []).frames = session.frames := by
  obtain ⟨settings, fallback, depth, visited, frames, calls, log⟩ := session
  cases frames <;> simp [extend]

/-- Skipping a request only adds to the ledger. -/
lemma skip_eq_extend : session.skip loader request = session.extend
    ((session.ledger.identify loader (session.resolve request.target)).note
      (.skipping request.location (session.resolve request.target))) [] := by
  obtain ⟨settings, fallback, depth, visited, frames, calls, log⟩ := session
  cases frames <;> simp [skip, extend, Session.ledger, Ledger.identify, Ledger.note]

@[simp] lemma enroll_frames : (session.enroll loader request).frames = session.frames := by
  simp [enroll]

/-- A request that is not skipped asks the questions for its file. -/
lemma enroll_calls : (session.enroll loader request).calls =
    session.calls ++ loader.questions (session.resolve request.target) :=
  session.ledger.enroll_calls loader request.once (session.resolve request.target)

/-- The warnings of the loader about the file of a request are added to the log. -/
lemma enroll_log : (session.enroll loader request).log =
    session.log ++ (loader.warnings (session.resolve request.target)).map .warning :=
  session.ledger.enroll_log loader request.once (session.resolve request.target)

/-- Asking for the file of a request only adds identities. -/
lemma visited_prefix_enroll : session.visited <+: (session.enroll loader request).visited :=
  session.ledger.visited_prefix_enroll loader request.once (session.resolve request.target)

/-- A request is not skipped for an identity that was not met. -/
lemma not_hasMet_of_fresh {session : Session} {loader : Loader} {request : Request}
    {identity : String} (hidentity : session.identityOf loader request = .ok identity)
    (hfresh : identity ∉ session.visited) : ¬ session.HasMet loader request := by
  rintro ⟨-, met, hmem, hmet⟩
  cases hidentity.symm.trans hmet
  exact hfresh hmem

/-- A request that is not skipped enters the identity of its file if it is for one time only. -/
lemma enroll_visited {identity : String}
    (hidentity : session.identityOf loader request = .ok identity)
    (hnew : ¬ session.HasMet loader request) :
    (session.enroll loader request).visited =
      if request.once then session.visited ++ [identity] else session.visited :=
  session.ledger.enroll_visited hidentity request.once hnew

end Fields

/-- The ways in which the retrieval of the file of a request can go. -/
inductive Retrieves (loader : Loader) (request : Request) (session : Session) :
    Outcome (Option Retrieval) → Prop where
  /-- The request is for one time only, and the identity of the file was met. -/
  | skipped (hmet : session.HasMet loader request) :
    Retrieves loader request session (session.skip loader request, .ok none)
  /-- The file has no identity, or cannot be read. -/
  | missing (fault : Fault) (hnew : ¬ session.HasMet loader request)
    (hfind : (session.plan loader).find (session.resolve request.target) request.location =
      .error fault) :
    Retrieves loader request session (session.enroll loader request, .error fault)
  /-- The file is read. -/
  | read (identity : String) (source : Text) (hnew : ¬ session.HasMet loader request)
    (hidentity : session.identityOf loader request = .ok identity)
    (hread : loader.read (session.resolve request.target) = .ok source) :
    Retrieves loader request session
      (session.enroll loader request,
        .ok (some ⟨session.resolve request.target, identity, source⟩))

section Retrieve

variable {loader : Loader} {request : Request} {session : Session}

/-- A request for one time only for an identity that was met is skipped. -/
lemma retrieve_of_hasMet (hmet : session.HasMet loader request) :
    session.retrieve loader request = (session.skip loader request, .ok none) := by
  obtain ⟨honce, identity, hmem, hidentity⟩ := hmet
  rw [identityOf] at hidentity
  have hskip : (request.once &&
      (session.extend (session.ledger.identify loader (session.resolve request.target))
        []).visited.contains identity) = true := by
    simpa [extend, Ledger.identify, Session.ledger, honce] using hmem
  rw [skip_eq_extend, retrieve]
  simp only [identify_eq_extend, hidentity, Except.mapError]
  rw [if_pos hskip]
  rfl

/-- The file of any other request is asked for. -/
lemma retrieve_of_not_hasMet (hnew : ¬ session.HasMet loader request) :
    session.retrieve loader request =
      (session.enroll loader request,
        ((session.plan loader).find (session.resolve request.target) request.location).map
          fun found => some ⟨session.resolve request.target, found.1, found.2⟩) := by
  rw [enroll, retrieve, Plan.find, plan_loader]
  simp only [identify_eq_extend]
  cases hidentity : loader.canonical (session.resolve request.target) with
  | error text =>
    rw [← extend_enroll_of_error session loader hidentity]
    rfl
  | ok identity =>
    have hskip : ¬ (request.once &&
        (session.extend (session.ledger.identify loader (session.resolve request.target))
          []).visited.contains identity) = true := by
      intro hmet
      obtain ⟨honce, hmem⟩ : request.once = true ∧ identity ∈ session.visited := by
        simpa [extend, Ledger.identify, Session.ledger] using hmet
      exact hnew ⟨honce, identity, hmem, hidentity⟩
    simp only [Except.mapError]
    rw [if_neg hskip, load_extend_enroll session loader hidentity]
    cases (session.plan loader).read (session.resolve request.target) request.location <;> rfl

/-- Every retrieval goes in one of these ways. -/
lemma retrieves_retrieve (loader : Loader) (request : Request) (session : Session) :
    Retrieves loader request session (session.retrieve loader request) := by
  by_cases hmet : session.HasMet loader request
  · rw [retrieve_of_hasMet hmet]
    exact .skipped hmet
  · rw [retrieve_of_not_hasMet hmet]
    rcases hfind : (session.plan loader).find (session.resolve request.target)
        request.location with fault | ⟨identity, source⟩
    · exact .missing fault hmet hfind
    · obtain ⟨hidentity, hread⟩ := Plan.find_eq_ok_iff.1 hfind
      exact .read identity source hmet hidentity hread

end Retrieve

/-- Runs the file that was retrieved for a request, if there is one. -/
def runRetrieved (serve : Request → Session → Outcome (Option Node)) (location : Position) :
    Outcome (Option Retrieval) → Outcome (Option Node)
  | (session, .error fault) => (session, .error fault)
  | (session, .ok none) => (session, .ok none)
  | (session, .ok (some file)) =>
    match runFile serve file.source file.name file.identity location session with
    | (session, .ok node) => (session, .ok (some node))
    | (session, .error fault) => (session, .error fault)

/-- With a level left, the file of a request is retrieved and then run. -/
lemma serveWithin_succ_eq (loader : Loader) (room : Nat) (request : Request) (session : Session) :
    serveWithin loader (room + 1) request session =
      runRetrieved (serveWithin loader room) request.location
        (session.retrieve loader request) := by
  unfold serveWithin retrieve
  dsimp only
  rcases session.identify loader (session.resolve request.target) with ⟨asked, fault | identity⟩
  · rfl
  · dsimp only
    split
    · rfl
    · rcases (if request.once = true then asked.visit identity else asked).load loader
        (session.resolve request.target) request.location with ⟨after, fault | source⟩
      · rfl
      · rfl

/-! ### Top-level files -/

/-- Finds and reads a top-level file, the identity of which counts as met. -/
def retrieveRoot (loader : Loader) (path : String) (session : Session) : Outcome Retrieval :=
  match session.identify loader path with
  | (session, .error fault) => (session, .error fault)
  | (session, .ok identity) =>
    match (session.visit identity).load loader path (.start path) with
    | (session, .error fault) => (session, .error fault)
    | (session, .ok source) => (session, .ok ⟨path, identity, source⟩)

/-- The session after a top-level file was asked for, the identity of which counts as met. -/
def enrollRoot (session : Session) (loader : Loader) (path : String) : Session :=
  session.extend (session.ledger.enroll loader true path) []

section Root

variable {loader : Loader} {session : Session} {path : String}

/-- A top-level file is found as the plan finds it, and the session is enrolled. -/
lemma retrieveRoot_eq (loader : Loader) (path : String) (session : Session) :
    session.retrieveRoot loader path =
      (session.enrollRoot loader path,
        ((session.plan loader).find path (.start path)).map
          fun found => ⟨path, found.1, found.2⟩) := by
  rw [enrollRoot, retrieveRoot, Plan.find, plan_loader]
  simp only [identify_eq_extend]
  cases hidentity : loader.canonical path with
  | error text =>
    rw [← extend_enroll_of_error session loader hidentity]
    rfl
  | ok identity =>
    have hload := load_extend_enroll session loader hidentity true (.start path)
    rw [if_pos rfl] at hload
    simp only [Except.mapError, hload]
    cases (session.plan loader).read path (.start path) <;> rfl

/-- The questions for a top-level file are asked. -/
lemma enrollRoot_calls (session : Session) (loader : Loader) (path : String) :
    (session.enrollRoot loader path).calls = session.calls ++ loader.questions path :=
  session.ledger.enroll_calls loader true path

/-- The warnings of the loader about a top-level file are added to the log. -/
lemma enrollRoot_log (session : Session) (loader : Loader) (path : String) :
    (session.enrollRoot loader path).log =
      session.log ++ (loader.warnings path).map .warning :=
  session.ledger.enroll_log loader true path

/-- The identity of a top-level file counts as met. -/
lemma canonical_mem_enrollRoot {identity : String}
    (hidentity : loader.canonical path = .ok identity) (session : Session) :
    identity ∈ (session.enrollRoot loader path).visited := by
  by_cases hmem : identity ∈ session.visited <;>
    simp [enrollRoot, extend, Ledger.enroll, hidentity, Ledger.identify, Ledger.visit, Ledger.read,
      Session.ledger, hmem]

/-- A top-level file is retrieved and then run. -/
lemma runRoot_eq (loader : Loader) (path : String) (session : Session) :
    session.runRoot loader path =
      match session.retrieveRoot loader path with
      | (session, .error fault) => (session, .error fault)
      | (session, .ok file) =>
        session.runSource loader file.source file.name file.identity (.start path) := by
  unfold runRoot retrieveRoot
  rcases session.identify loader path with ⟨asked, fault | identity⟩
  · rfl
  · dsimp only
    rcases (asked.visit identity).load loader path (.start path) with ⟨after, fault | source⟩ <;>
      rfl

/-- A top-level file that is not found is not run. -/
lemma runRoot_of_missing {fault : Fault}
    (hfind : (session.plan loader).find path (.start path) = .error fault) :
    session.runRoot loader path = (session.enrollRoot loader path, .error fault) := by
  rw [runRoot_eq, retrieveRoot_eq, hfind]
  rfl

/-- A top-level file that is found is run. -/
lemma runRoot_of_found {identity : String} {source : Text}
    (hfind : (session.plan loader).find path (.start path) = .ok (identity, source)) :
    session.runRoot loader path =
      (session.enrollRoot loader path).runSource loader source path identity (.start path) := by
  rw [runRoot_eq, retrieveRoot_eq, hfind]
  rfl

end Root

end Session

end Splice

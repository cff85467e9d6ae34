import Splice.Proofs.Expansion.Basic
import Splice.Session.Run

/-!
# How a session changes while a file is run

The sessions that a file goes through while it is run differ from the one in which it was entered
only in their ledger and in the children of the innermost file: they are
`Session.extend session ledger nodes`. This module says what the single steps of a session do to
such sessions, and in particular that asking for a file changes the ledger as `Ledger.enroll` says
(`Session.load_extend_enroll`).
-/

namespace Splice

namespace Session

/-- What of a session does not change in a run. -/
def plan (session : Session) (loader : Loader) : Plan :=
  ⟨session.settings, session.fallback, loader⟩

/-- What of a session is handed on from file to file. -/
def ledger (session : Session) : Ledger :=
  ⟨session.visited, session.calls, session.log⟩

/-- The session with another ledger, and with more children for the innermost file. -/
def extend (session : Session) (ledger : Ledger) (nodes : List Node) : Session :=
  { session with
    visited := ledger.visited
    calls := ledger.calls
    log := ledger.log
    frames := session.frames.modifyHead fun frame =>
      { frame with children := frame.children ++ nodes } }

/-- What becomes of a session by an expansion: it takes over the ledger, and the nodes that the
result brings are added to the innermost file. -/
def absorb {α : Type} (session : Session) (nodes : α → List Node) :
    Expansion α → Outcome α
  | (ledger, .ok result) => (session.extend ledger (nodes result), .ok result)
  | (ledger, .error fault) => (session.extend ledger [], .error fault)

/-! ### Extended sessions -/

section Extend

variable (session : Session) (ledger : Ledger) (nodes : List Node) (loader : Loader)

@[simp] lemma extend_depth : (session.extend ledger nodes).depth = session.depth := rfl

@[simp] lemma extend_settings : (session.extend ledger nodes).settings = session.settings := rfl

@[simp] lemma extend_scanStyles : (session.extend ledger nodes).scanStyles = session.scanStyles :=
  rfl

@[simp] lemma plan_settings : (session.plan loader).settings = session.settings := rfl

@[simp] lemma plan_loader : (session.plan loader).loader = loader := rfl

@[simp] lemma plan_scanStyles : (session.plan loader).scanStyles = session.scanStyles := rfl

@[simp] lemma plan_dialect : (session.plan loader).dialect = session.dialect := rfl

/-- A session is extended by its own ledger and no children. -/
lemma extend_self : session.extend session.ledger [] = session := by
  obtain ⟨settings, fallback, depth, visited, frames, calls, log⟩ := session
  cases frames <;> simp [extend, Session.ledger]

/-- Of two extensions, the last ledger counts, and the children add up. -/
lemma extend_extend (ledger' : Ledger) (nodes' : List Node) :
    (session.extend ledger nodes).extend ledger' nodes' =
      session.extend ledger' (nodes ++ nodes') := by
  obtain ⟨settings, fallback, depth, visited, frames, calls, log⟩ := session
  cases frames <;> simp [extend]

/-- A node added to the innermost file is one more child, if there is such a file. -/
lemma append_extend (hopen : session.frames ≠ []) (node : Node) :
    (session.extend ledger nodes).append node =
      (session.extend ledger (nodes ++ [node]), .ok ()) := by
  obtain ⟨settings, fallback, depth, visited, frames, calls, log⟩ := session
  cases frames with
  | nil => exact absurd rfl hopen
  | cons frame frames => simp [extend, append]

/-- A node attached to the innermost file, if there is one, is one more child. -/
lemma attach_extend (node : Node) :
    (session.extend ledger nodes).attach node = session.extend ledger (nodes ++ [node]) := by
  obtain ⟨settings, fallback, depth, visited, frames, calls, log⟩ := session
  cases frames <;> simp [extend, attach, append]

/-- Leaving a file that was entered gives the file with its children, and the session around it with
the ledger of the session inside. -/
lemma pop_push_extend (frame : Frame) :
    ((session.push frame).extend ledger nodes).pop =
      (session.extend ledger [], .ok { frame with children := frame.children ++ nodes }) := by
  obtain ⟨settings, fallback, depth, visited, frames, calls, log⟩ := session
  cases frames <;> simp [extend, push, pop]

/-- A record in the log is a record in the ledger. -/
lemma note_extend (record : Log.Record) :
    (session.extend ledger nodes).note record = session.extend (ledger.note record) nodes :=
  rfl

/-- A file that was entered becomes one more child of the file around it when it is closed after a
run to its end, and nothing otherwise. -/
lemma close_push_extend (name : String) (frame : Frame) (result : Except Fault Unit) :
    close name ((session.push frame).extend ledger nodes, result) =
      session.absorb ([·]) (ledger.note (.leaving name),
        result.map fun _ => Frame.freeze { frame with children := frame.children ++ nodes }) := by
  rw [close, pop_push_extend]
  cases result with
  | error fault => rfl
  | ok done =>
    simp only [note_extend, attach_extend, List.nil_append]
    rfl

/-- A question for an identity goes into the ledger. -/
lemma identify_extend (path : String) :
    (session.extend ledger nodes).identify loader path =
      (session.extend (ledger.identify loader path) nodes,
        (loader.canonical path).mapError .unusablePath) :=
  rfl

/-- An identity that is met goes into the ledger. -/
lemma visit_extend (identity : String) :
    (session.extend ledger nodes).visit identity =
      session.extend (ledger.visit identity) nodes := by
  by_cases hmem : identity ∈ ledger.visited <;> simp [visit, Ledger.visit, extend, hmem]

/-- A question for a content goes into the ledger, and the answer is that of the plan. -/
lemma load_extend (path : String) (location : Position) :
    (session.extend ledger nodes).load loader path location =
      (session.extend (ledger.read path) nodes, (session.plan loader).read path location) :=
  rfl

/-- A session asks for an identity, and takes note of it. -/
lemma identify_eq_extend (path : String) :
    session.identify loader path =
      (session.extend (session.ledger.identify loader path) [],
        (loader.canonical path).mapError .unusablePath) := by
  conv_lhs => rw [← session.extend_self]
  rw [identify_extend]

/-- A session in which a file was asked for. -/
lemma extend_enroll_of_error {path text : String} (hidentity : loader.canonical path = .error text)
    (once : Bool) :
    session.extend (session.ledger.identify loader path) [] =
      session.extend (session.ledger.enroll loader once path) [] := by
  rw [Ledger.enroll, hidentity]

/-- A path with an identity, which counts as met if it is asked for one time only, is read after
that. -/
lemma load_extend_enroll {path identity : String} (hidentity : loader.canonical path = .ok identity)
    (once : Bool) (location : Position) :
    (if once = true then
        (session.extend (session.ledger.identify loader path) []).visit identity
      else session.extend (session.ledger.identify loader path) []).load loader path location =
      (session.extend (session.ledger.enroll loader once path) [],
        (session.plan loader).read path location) := by
  cases once <;> simp [visit_extend, load_extend, Ledger.enroll, hidentity]

end Extend

end Session

end Splice

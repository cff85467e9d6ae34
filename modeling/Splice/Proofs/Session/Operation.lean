import Splice.Proofs.Session.Request

/-!
# Operations on a session

A session can be driven from outside, by any of its operations in any order, and each of them may
fail. This module says what holds of a session after such a history. All operations that run files
change a session in one way only (`Session.Grows`): they may add nodes to the innermost file under
construction, identities to those that were met, and entries to the ledger. A file that is run is
entered and left again, so that the files around it are as before, also when it fails at any level
below (`Session.runFile_extends`, `Session.serveWithin_extends`). Only `Session.push` and
`Session.pop` change which files are under construction, and the depth follows them.
-/

namespace Splice

/-- Goes on after a step, unless the step failed. -/
def Outcome.andThen {α β : Type} (outcome : Outcome α) (rest : Session → Outcome β) : Outcome β :=
  match outcome with
  | (session, .ok _) => rest session
  | (session, .error fault) => (session, .error fault)

namespace Session

/-! ### How a session grows -/

/-- A session that comes from `session` by adding nodes to the innermost file and entries to the
ledger. Identities that were met stay met. -/
def Grows (session after : Session) : Prop :=
  ∃ ledger nodes, session.visited <+: ledger.visited ∧ after = session.extend ledger nodes

/-- A step that adds the nodes of its result to the innermost file, and none if it fails, and
entries to the ledger. -/
def Extends {α : Type} (session : Session) (nodes : α → List Node) (outcome : Outcome α) : Prop :=
  ∃ ledger, session.visited <+: ledger.visited ∧ outcome = session.absorb nodes (ledger, outcome.2)

/-- A session grows into itself. -/
lemma Grows.refl (session : Session) : session.Grows session :=
  ⟨session.ledger, [], List.prefix_rfl, session.extend_self.symm⟩

/-- What grows two times grows. -/
lemma Grows.trans {session between after : Session} (hfirst : session.Grows between)
    (hsecond : between.Grows after) : session.Grows after := by
  obtain ⟨ledger, nodes, hvisited, rfl⟩ := hfirst
  obtain ⟨ledger', nodes', hvisited', rfl⟩ := hsecond
  refine ⟨ledger', nodes ++ nodes', hvisited.trans hvisited', ?_⟩
  rw [extend_extend]

/-- A step that extends a session lets it grow. -/
lemma Extends.grows {α : Type} {session : Session} {nodes : α → List Node} {outcome : Outcome α}
    (h : session.Extends nodes outcome) : session.Grows outcome.1 := by
  obtain ⟨ledger, hvisited, houtcome⟩ := h
  obtain ⟨after, fault | result⟩ := outcome
  · exact ⟨ledger, [], hvisited, (Prod.mk.inj houtcome).1⟩
  · exact ⟨ledger, nodes result, hvisited, (Prod.mk.inj houtcome).1⟩

/-- What is taken over after the ledger changed is taken over by the session itself. -/
lemma absorb_extend {α : Type} (session : Session) (ledger : Ledger) (nodes : α → List Node)
    (expansion : Expansion α) :
    (session.extend ledger []).absorb nodes expansion = session.absorb nodes expansion := by
  obtain ⟨after, fault | result⟩ := expansion
  · rw [absorb, absorb, extend_extend, List.nil_append]
  · rw [absorb, absorb, extend_extend, List.nil_append]

/-- A step after the ledger changed is a step of the session itself. -/
lemma Extends.of_extend {α : Type} {session : Session} {ledger : Ledger} {nodes : α → List Node}
    {outcome : Outcome α} (hvisited : session.visited <+: ledger.visited)
    (h : (session.extend ledger []).Extends nodes outcome) : session.Extends nodes outcome := by
  obtain ⟨ledger', hvisited', houtcome⟩ := h
  rw [absorb_extend] at houtcome
  exact ⟨ledger', hvisited.trans hvisited', houtcome⟩

/-- A node that is added to an open file is one more child of it. -/
lemma append_eq_extend {session : Session} (hopen : session.frames ≠ []) (node : Node) :
    session.append node = (session.extend session.ledger [node], .ok ()) := by
  have happend := session.append_extend session.ledger [] hopen node
  rw [extend_self, List.nil_append] at happend
  exact happend

/-- A node that is added lets a session grow, if there is a file to add it to. -/
lemma append_grows (session : Session) (node : Node) : session.Grows (session.append node).1 := by
  by_cases hopen : session.frames = []
  · have hsame : (session.append node).1 = session := by
      rw [append, hopen]
    rw [hsame]
    exact Grows.refl session
  · refine ⟨session.ledger, [node], List.prefix_rfl, ?_⟩
    rw [append_eq_extend hopen]

/-- Keeping text lets a session grow. -/
lemma keepText_grows (session : Session) (location : Position) (content : Text) :
    session.Grows (session.keepText location content).1 := by
  unfold keepText
  split
  · exact Grows.refl session
  · exact append_grows session _

/-- Keeping a comment lets a session grow. -/
lemma keepComment_grows (session : Session) (location : Position) (content : Text) :
    session.Grows (session.keepComment location content).1 := by
  unfold keepComment
  split
  · exact Grows.refl session
  · exact append_grows session _

section Perform

variable {serve : Request → Session → Outcome (Option Node)} {items : List Item}
  {session : Session}

/-- Text is kept, and then the other items are carried out. -/
lemma perform_text (location : Position) (content : Text) :
    perform serve (.text location content :: items) session =
      Outcome.andThen (session.keepText location content) (perform serve items) := by
  rw [perform]
  rcases session.keepText location content with ⟨after, fault | ⟨⟩⟩ <;> rfl

/-- A comment is kept, and then the other items are carried out. -/
lemma perform_comment (location : Position) (content : Text) :
    perform serve (.comment location content :: items) session =
      Outcome.andThen (session.keepComment location content) (perform serve items) := by
  rw [perform]
  rcases session.keepComment location content with ⟨after, fault | ⟨⟩⟩ <;> rfl

/-- A request is answered, and then the other items are carried out. -/
lemma perform_request (request : Request) :
    perform serve (.request request :: items) session =
      Outcome.andThen (serve request session) (perform serve items) := by
  rw [perform]
  rcases serve request session with ⟨after, fault | node?⟩ <;> rfl

end Perform

/-- A session that grows by a step, and by what comes after it, grows. -/
lemma andThen_grows {α β : Type} {session : Session} {outcome : Outcome α}
    {rest : Session → Outcome β} (h : session.Grows outcome.1)
    (hrest : ∀ after : Session, after.Grows (rest after).1) :
    session.Grows (Outcome.andThen outcome rest).1 := by
  obtain ⟨after, fault | result⟩ := outcome
  · exact h
  · exact h.trans (hrest after)

/-- Carrying out items lets a session grow, also up to an item that fails, if this is so for
answering requests. The induction is on the items. -/
lemma perform_grows {serve : Request → Session → Outcome (Option Node)}
    (hserve : ∀ request (session : Session),
      session.Extends Option.toList (serve request session))
    (items : List Item) (session : Session) : session.Grows (perform serve items session).1 := by
  induction items generalizing session with
  | nil => exact Grows.refl session
  | cons item items ih =>
    cases item with
    | text location content =>
      rw [perform_text]
      exact andThen_grows (session.keepText_grows location content) ih
    | comment location content =>
      rw [perform_comment]
      exact andThen_grows (session.keepComment_grows location content) ih
    | request request =>
      rw [perform_request]
      exact andThen_grows (hserve request session).grows ih
    | failure diagnostic => exact Grows.refl session

/-- A file that is run is left as it was entered: the files around it get its node as one more
child, or nothing if it fails. -/
lemma runFile_extends {serve : Request → Session → Outcome (Option Node)}
    (hserve : ∀ request (session : Session),
      session.Extends Option.toList (serve request session))
    (source : Text) (name path : String) (location : Position) (session : Session) :
    session.Extends ([·]) (runFile serve source name path location session) := by
  set frame : Frame := ⟨location, name, path, []⟩ with hframe
  set entered := (session.push frame).note (.entering name (session.push frame).depth)
    with hentered
  obtain ⟨ledger, nodes, hvisited, hperform⟩ :=
    perform_grows hserve (entered.dialect.items name source) entered
  have hextend : entered.extend ledger nodes = (session.push frame).extend ledger nodes := rfl
  have hrun : runFile serve source name path location session =
      close name (perform serve (entered.dialect.items name source) entered) := rfl
  rw [hextend] at hperform
  rw [hrun]
  rcases hresult : perform serve (entered.dialect.items name source) entered with ⟨inside, result⟩
  rw [hresult] at hperform
  obtain rfl : inside = (session.push frame).extend ledger nodes := hperform
  rw [close_push_extend]
  refine ⟨ledger.note (.leaving name), hvisited, ?_⟩
  cases result <;> rfl

/-- The retrieval of a file touches no file under construction. -/
lemma retrieve_extends (loader : Loader) (request : Request) (session : Session) :
    session.Extends (fun _ => []) (session.retrieve loader request) := by
  have hways := retrieves_retrieve loader request session
  generalize session.retrieve loader request = outcome at hways
  cases hways with
  | skipped hmet =>
    rw [skip_eq_extend]
    exact ⟨_, List.prefix_rfl, rfl⟩
  | missing fault hnew hfind => exact ⟨_, visited_prefix_enroll session loader request, rfl⟩
  | read identity source hnew hidentity hread =>
    exact ⟨_, visited_prefix_enroll session loader request, rfl⟩

/-- A retrieved file that is run extends the session from which it was retrieved. -/
lemma runRetrieved_extends {serve : Request → Session → Outcome (Option Node)}
    (hserve : ∀ request (session : Session),
      session.Extends Option.toList (serve request session))
    (location : Position) {session : Session} {outcome : Outcome (Option Retrieval)}
    (h : session.Extends (fun _ => []) outcome) :
    session.Extends Option.toList (runRetrieved serve location outcome) := by
  obtain ⟨ledger, hvisited, houtcome⟩ := h
  obtain ⟨between, fault | _ | file⟩ := outcome
  · obtain rfl : between = session.extend ledger [] := (Prod.mk.inj houtcome).1
    exact ⟨ledger, hvisited, rfl⟩
  · obtain rfl : between = session.extend ledger [] := (Prod.mk.inj houtcome).1
    exact ⟨ledger, hvisited, rfl⟩
  · obtain rfl : between = session.extend ledger [] := (Prod.mk.inj houtcome).1
    have hrun : session.Extends ([·]) (runFile serve file.source file.name file.identity location
        (session.extend ledger [])) :=
      (runFile_extends hserve _ _ _ location _).of_extend hvisited
    rw [runRetrieved]
    generalize runFile serve file.source file.name file.identity location
      (session.extend ledger []) = inner at hrun
    obtain ⟨ledger', hvisited', hinner⟩ := hrun
    obtain ⟨after, fault | node⟩ := inner
    · exact ⟨ledger', hvisited', congrArg (·, _) (Prod.mk.inj hinner).1⟩
    · exact ⟨ledger', hvisited', congrArg (·, _) (Prod.mk.inj hinner).1⟩

/-- Answering a request extends the session, whatever happens at the levels below. The induction is
on the levels that are left. -/
lemma serveWithin_extends (loader : Loader) (room : Nat) (request : Request) (session : Session) :
    session.Extends Option.toList (serveWithin loader room request session) := by
  induction room generalizing request session with
  | zero =>
    refine ⟨session.ledger, List.prefix_rfl, ?_⟩
    rw [serveWithin, absorb, extend_self]
  | succ room ih =>
    rw [serveWithin_succ_eq]
    exact runRetrieved_extends ih request.location (retrieve_extends loader request session)

/-- Running a source extends the session. -/
lemma runSource_extends (loader : Loader) (source : Text) (name path : String)
    (location : Position) (session : Session) :
    session.Extends ([·]) (session.runSource loader source name path location) :=
  runFile_extends (serveWithin_extends loader _) source name path location session

/-- Running a top-level file extends the session: the identity of the file is entered, if it has
one, and then the file is read and run. -/
lemma runRoot_extends (loader : Loader) (path : String) (session : Session) :
    session.Extends ([·]) (session.runRoot loader path) := by
  have hvisited := session.ledger.visited_prefix_enroll loader true path
  rcases hfind : (session.plan loader).find path (.start path) with fault | ⟨identity, source⟩
  · rw [runRoot_of_missing hfind]
    exact ⟨_, hvisited, rfl⟩
  · rw [runRoot_of_found hfind]
    exact (runSource_extends loader source path identity (.start path)
      (session.enrollRoot loader path)).of_extend hvisited

/-- Answering a request extends the session. -/
lemma serve_extends (loader : Loader) (request : Request) (session : Session) :
    session.Extends Option.toList (session.serve loader request) :=
  serveWithin_extends loader session.room request session

/-- Carrying out the items of a source lets a session grow. -/
lemma runItems_grows (loader : Loader) (source : Text) (name : String) (session : Session) :
    session.Grows (session.runItems loader source name).1 :=
  perform_grows (serveWithin_extends loader session.room) _ session

/-! ### What stays and what is added -/

/-- What a step that may bring a node leaves behind of the session before it. The depth and the
files under construction are as they were, except that the node, if there is one, is added at the
end of the children of the innermost file. -/
structure Restores {α : Type} (session : Session) (node? : α → Option Node) (outcome : Outcome α) :
    Prop where
  settings_eq : outcome.1.settings = session.settings
  depth_eq : outcome.1.depth = session.depth
  visited_prefix : session.visited <+: outcome.1.visited
  /-- A step that fails adds nothing. -/
  frames_of_error : ∀ fault, outcome.2 = .error fault → outcome.1.frames = session.frames
  /-- Nor does a step that brings no node. -/
  frames_of_none : ∀ result, outcome.2 = .ok result → node? result = none →
    outcome.1.frames = session.frames
  /-- A node is one more child of the innermost file, and of no other. -/
  frames_of_some : ∀ result node, outcome.2 = .ok result → node? result = some node →
    outcome.1.frames = session.frames.modifyHead fun frame =>
      { frame with children := frame.children ++ [node] }

/-- A step that extends a session by at most one node restores the rest of it. -/
lemma Extends.restores {α : Type} {session : Session} {node? : α → Option Node}
    {outcome : Outcome α} (h : session.Extends (fun result => (node? result).toList) outcome) :
    session.Restores node? outcome := by
  obtain ⟨ledger, hvisited, houtcome⟩ := h
  obtain ⟨after, fault | result⟩ := outcome
  · obtain rfl : after = session.extend ledger [] := (Prod.mk.inj houtcome).1
    refine ⟨rfl, rfl, hvisited, ?_, ?_, ?_⟩
    · intro other _
      exact extend_nil_frames session ledger
    · intro result hresult
      cases hresult
    · intro result node hresult
      cases hresult
  · obtain rfl : after = session.extend ledger (node? result).toList := (Prod.mk.inj houtcome).1
    refine ⟨rfl, rfl, hvisited, ?_, ?_, ?_⟩
    · intro fault hfault
      cases hfault
    · intro other hother hnone
      cases hother
      rw [hnone]
      exact extend_nil_frames session ledger
    · intro other node hother hsome
      cases hother
      rw [hsome]
      rfl

end Session

/-! ### Histories -/

/-- An operation on a session, with what it is given. -/
inductive Operation where
  | push (frame : Frame)
  | pop
  | append (node : Node)
  | resolve (target : String)
  | serve (request : Request)
  | runRoot (path : String)
  | runSource (source : Text) (name path : String) (location : Position)
  | runItems (source : Text) (name : String)

namespace Operation

/-- The session after an operation, whether or not the operation failed. -/
def next (loader : Loader) (session : Session) : Operation → Session
  | push frame => session.push frame
  | pop => session.pop.1
  | append node => (session.append node).1
  | resolve _ => session
  | serve request => (session.serve loader request).1
  | runRoot path => (session.runRoot loader path).1
  | runSource source name path location =>
    (session.runSource loader source name path location).1
  | runItems source name => (session.runItems loader source name).1

/-- How often an operation tries to leave a file when there is none: it is one time or never. -/
def idlePops (session : Session) : Operation → Nat
  | pop => if session.frames = [] then 1 else 0
  | _ => 0

end Operation

namespace Session

/-- The session after operations in order. -/
def after (loader : Loader) (session : Session) (operations : List Operation) : Session :=
  operations.foldl (Operation.next loader) session

/-- How often, among operations in order, one tries to leave a file when there is none. -/
def idlePops (loader : Loader) : Session → List Operation → Nat
  | _, [] => 0
  | session, operation :: operations =>
    operation.idlePops session + idlePops loader (operation.next loader session) operations

/-- By how much the depth differs from the number of files under construction. -/
def balance (session : Session) : Int :=
  session.depth - session.frames.length

/-- Growing keeps the balance. -/
lemma Grows.balance_eq {session after : Session} (h : session.Grows after) :
    after.balance = session.balance := by
  obtain ⟨ledger, nodes, -, rfl⟩ := h
  simp [balance, extend]

/-- Growing only adds identities. -/
lemma Grows.visited_prefix {session after : Session} (h : session.Grows after) :
    session.visited <+: after.visited := by
  obtain ⟨ledger, nodes, hvisited, rfl⟩ := h
  exact hvisited

end Session

namespace Operation

variable (loader : Loader)

/-- What an operation does: it enters a file, it leaves one, or it lets the session grow. -/
lemma next_cases (session : Session) (operation : Operation) :
    (∃ frame, operation = .push frame) ∨ operation = .pop ∨
      operation.idlePops session = 0 ∧ session.Grows (operation.next loader session) := by
  cases operation with
  | push frame => exact Or.inl ⟨frame, rfl⟩
  | pop => exact Or.inr (Or.inl rfl)
  | append node => exact Or.inr (Or.inr ⟨rfl, session.append_grows node⟩)
  | resolve target => exact Or.inr (Or.inr ⟨rfl, Session.Grows.refl session⟩)
  | serve request => exact Or.inr (Or.inr ⟨rfl, (session.serve_extends loader request).grows⟩)
  | runRoot path => exact Or.inr (Or.inr ⟨rfl, (session.runRoot_extends loader path).grows⟩)
  | runSource source name path location =>
    exact Or.inr (Or.inr ⟨rfl,
      (session.runSource_extends loader source name path location).grows⟩)
  | runItems source name =>
    exact Or.inr (Or.inr ⟨rfl, session.runItems_grows loader source name⟩)

/-- One operation: the depth falls behind the number of files exactly if the operation tries to
leave a file when there is none. -/
lemma balance_next (session : Session) (operation : Operation) :
    (operation.next loader session).balance = session.balance - operation.idlePops session := by
  rcases operation.next_cases loader session with ⟨frame, rfl⟩ | rfl | ⟨hidle, hgrows⟩
  · simp only [next, idlePops, Session.balance, Session.push, List.length_cons]
    push_cast
    omega
  · cases hframes : session.frames with
    | nil =>
      simp [next, idlePops, Session.balance, Session.pop, hframes]
    | cons frame frames =>
      simp only [next, idlePops, Session.balance, Session.pop, hframes, List.length_cons,
        reduceCtorEq, if_false]
      push_cast
      omega
  · rw [hgrows.balance_eq, hidle]
    simp

/-- One operation only adds identities. -/
lemma visited_prefix_next (session : Session) (operation : Operation) :
    session.visited <+: (operation.next loader session).visited := by
  rcases operation.next_cases loader session with ⟨frame, rfl⟩ | rfl | ⟨-, hgrows⟩
  · exact List.prefix_rfl
  · cases hframes : session.frames with
    | nil => simp [next, Session.pop, hframes]
    | cons frame frames => simp [next, Session.pop, hframes]
  · exact hgrows.visited_prefix

end Operation

namespace Session

variable (loader : Loader)

/-- Operations in order: the depth falls behind the number of files by how often one tried to leave
a file when there was none. The induction is on the operations. -/
lemma balance_after (session : Session) (operations : List Operation) :
    (session.after loader operations).balance =
      session.balance - session.idlePops loader operations := by
  induction operations generalizing session with
  | nil => simp [after, idlePops]
  | cons operation operations ih =>
    have hstep := operation.balance_next loader session
    have hrest := ih (operation.next loader session)
    rw [after, List.foldl_cons, ← after, hrest, hstep, idlePops]
    push_cast
    omega

/-- Operations in order only add identities. The induction is on the operations. -/
lemma visited_prefix_after (session : Session) (operations : List Operation) :
    session.visited <+: (session.after loader operations).visited := by
  induction operations generalizing session with
  | nil => exact List.prefix_rfl
  | cons operation operations ih =>
    exact (operation.visited_prefix_next loader session).trans (ih _)

/-- **Sessions keep their balance.** After any operations on a session, some of which may have
failed, the depth is the number of files under construction less the number of times that a file
was to be left when there was none, and identities that were met stay met. Operations that run
files, in any session, leave the files under construction as they were, also when they fail at any
level, and add the node that they return, if there is one, to the innermost file. Carrying out items
in the innermost file changes no other file, and adds to its children at the end. -/
theorem balanced_after_operations (settings : Settings) (fallback : Option Styles) :
    (∀ operations,
      ((start settings fallback).after loader operations).depth =
        ((start settings fallback).after loader operations).frames.length -
          (start settings fallback).idlePops loader operations) ∧
    (∀ operations more,
      ((start settings fallback).after loader operations).visited <+:
        ((start settings fallback).after loader (operations ++ more)).visited) ∧
    (∀ session : Session,
      (∀ request, session.Restores id (session.serve loader request)) ∧
      (∀ path, session.Restores some (session.runRoot loader path)) ∧
      (∀ source name path location,
        session.Restores some (session.runSource loader source name path location)) ∧
      (∀ source name, (session.runItems loader source name).1.depth = session.depth ∧
        ∃ nodes, (session.runItems loader source name).1.frames =
          session.frames.modifyHead fun frame =>
            { frame with children := frame.children ++ nodes })) := by
  refine ⟨?_, ?_, ?_⟩
  · intro operations
    have hbalance := balance_after loader (start settings fallback) operations
    have hstart : (start settings fallback).balance = 0 := rfl
    rw [hstart, balance] at hbalance
    omega
  · intro operations more
    have hmore := visited_prefix_after loader ((start settings fallback).after loader operations)
      more
    have happend : (start settings fallback).after loader (operations ++ more) =
        ((start settings fallback).after loader operations).after loader more :=
      List.foldl_append
    rw [happend]
    exact hmore
  · intro session
    refine ⟨?_, ?_, ?_, ?_⟩
    · intro request
      exact (session.serve_extends loader request).restores
    · intro path
      exact (session.runRoot_extends loader path).restores
    · intro source name path location
      exact (session.runSource_extends loader source name path location).restores
    · intro source name
      obtain ⟨ledger, nodes, -, hgrown⟩ := session.runItems_grows loader source name
      rw [hgrown]
      exact ⟨rfl, nodes, rfl⟩

end Session

end Splice

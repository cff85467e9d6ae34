import Splice.Proofs.Session.Request

/-!
# Sessions agree with expansion

A session that carries out items on its stack does the same as expansion without one. The sessions
that a file goes through while it is run are extensions of the one in which it was entered
(`Session.extend`). One step of the run moves from one of these to the next, just as `Plan.collect`
goes on to the next item (`Session.perform_extend`); so entering a file, running it and leaving it
again gives the session with the ledger of the expansion and the file as one more child
(`Session.runFile_eq_expand`). The answer to a request follows by induction on the levels that are
left (`Session.serveWithin_eq_answer`).
-/

namespace Splice

namespace Session

/-! ### Items -/

variable {session : Session} (loader : Loader)

/-- One item: the session takes over the ledger and the children of the item and goes on with the
other items, or it stops at the fault. `serve` and `answer` have to agree on the request. -/
lemma perform_cons_extend {serve : Request → Session → Outcome (Option Node)}
    {answer : Request → Ledger → Expansion (Option Node)} (hopen : session.frames ≠ [])
    {ledger : Ledger} {nodes : List Node}
    (hserve : ∀ request, serve request (session.extend ledger nodes) =
      (session.extend ledger nodes).absorb Option.toList (answer request ledger))
    (item : Item) (items : List Item) :
    perform serve (item :: items) (session.extend ledger nodes) =
      match (session.plan loader).step answer item ledger with
      | (ledger, .error fault) => (session.extend ledger nodes, .error fault)
      | (ledger, .ok more) => perform serve items (session.extend ledger (nodes ++ more)) := by
  cases item with
  | text location content =>
    have happend := session.append_extend ledger nodes hopen (.text location content)
    cases hstyles : session.scanStyles <;>
      simp [perform, keepText, Plan.step, Plan.textLeaf, hstyles, Except.map, happend]
  | comment location content =>
    cases hstyles : session.settings.styles with
    | none => simp [perform, keepComment, Plan.step, Plan.commentLeaf, hstyles, Except.map]
    | some styles =>
      have happend := session.append_extend ledger nodes hopen
        (.comment location content (styles.first? content))
      simp [perform, keepComment, Plan.step, Plan.commentLeaf, hstyles, Except.map, happend]
  | request request =>
    rw [perform, hserve request]
    rcases hanswer : answer request ledger with ⟨after, fault | node?⟩
    · simp [absorb, extend_extend, Plan.step, hanswer, Except.map]
    · simp [absorb, extend_extend, Plan.step, hanswer, Except.map]
  | failure diagnostic => rfl

/-- Carrying out items on an extended session collects the children of the items. On success these
are added to the children of the innermost file; after a fault the children do not matter, since the
file is given up. -/
lemma perform_extend {serve : Request → Session → Outcome (Option Node)}
    {answer : Request → Ledger → Expansion (Option Node)} (hopen : session.frames ≠ [])
    (hserve : ∀ request ledger nodes, serve request (session.extend ledger nodes) =
      (session.extend ledger nodes).absorb Option.toList (answer request ledger))
    (items : List Item) (ledger : Ledger) (nodes : List Node) :
    ∃ kept, perform serve items (session.extend ledger nodes) =
        (session.extend ((session.plan loader).collect answer items ledger).1 kept,
          ((session.plan loader).collect answer items ledger).2.map fun _ => ()) ∧
      ∀ children, ((session.plan loader).collect answer items ledger).2 = .ok children →
        kept = nodes ++ children := by
  induction items generalizing ledger nodes with
  | nil =>
    refine ⟨nodes, rfl, ?_⟩
    intro children hchildren
    cases hchildren
    rw [List.append_nil]
  | cons item items ih =>
    rw [perform_cons_extend loader hopen (fun request => hserve request ledger nodes) item items]
    rcases hstep : (session.plan loader).step answer item ledger with ⟨after, fault | more⟩
    · rw [Plan.collect_cons_error items hstep]
      refine ⟨nodes, rfl, ?_⟩
      intro children hchildren
      cases hchildren
    · obtain ⟨kept, hperform, hkept⟩ := ih after (nodes ++ more)
      rw [Plan.collect_cons_ok items hstep]
      refine ⟨kept, ?_, ?_⟩
      · simp only [hperform, Expansion.map]
        cases ((session.plan loader).collect answer items after).2 <;> rfl
      · intro children hchildren
        rcases hrest : (session.plan loader).collect answer items after with ⟨final, fault | rest⟩
        · rw [hrest] at hchildren
          cases hchildren
        · rw [hrest] at hchildren
          cases hchildren
          rw [hkept rest (by rw [hrest]), List.append_assoc]

/-! ### Files -/

/-- Entering a file, carrying out its items and leaving it again expands the file and adds its node
to the file around it. `serve` has to answer requests as the plan does inside the file. -/
lemma runFile_eq_expand {serve : Request → Session → Outcome (Option Node)} {name : String}
    (hserve : ∀ (inner : Session) request, inner.plan loader = session.plan loader →
      inner.depth = session.depth + 1 → inner.current?.map Frame.name = some name →
      serve request inner = inner.absorb Option.toList
        ((session.plan loader).answer (session.depth + 1) name request inner.ledger))
    (source : Text) (path : String) (location : Position) :
    runFile serve source name path location session =
      session.absorb ([·]) ((session.plan loader).expand (session.depth + 1) name path location
        source session.ledger) := by
  set frame : Frame := ⟨location, name, path, []⟩ with hframe
  set ledger := session.ledger.note (.entering name (session.depth + 1)) with hledger
  have hopen : (session.push frame).frames ≠ [] := by simp [push]
  have hentered : (session.push frame).note (.entering name (session.push frame).depth) =
      (session.push frame).extend ledger [] := by
    rw [← (session.push frame).extend_self, note_extend, extend_self]
    rfl
  have hagree : ∀ request ledger nodes,
      serve request ((session.push frame).extend ledger nodes) =
        ((session.push frame).extend ledger nodes).absorb Option.toList
          ((session.plan loader).answer (session.depth + 1) name request ledger) := by
    intro request ledger nodes
    exact hserve _ request rfl rfl (by simp [push, extend, current?, hframe])
  obtain ⟨kept, hperform, hkept⟩ := perform_extend loader hopen hagree
    (session.dialect.items name source) ledger []
  have hplan : (session.push frame).plan loader = session.plan loader := rfl
  have hrun : runFile serve source name path location session =
      close name (perform serve (session.dialect.items name source)
        ((session.push frame).extend ledger [])) := by
    rw [runFile, ← hframe, hentered]
    rfl
  rw [hplan] at hperform hkept
  rw [hrun, hperform, close_push_extend, Plan.expand_eq, plan_dialect, ← hledger]
  rcases hcollect : (session.plan loader).collect
      ((session.plan loader).answer (session.depth + 1) name)
      (session.dialect.items name source) ledger with ⟨after, fault | children⟩
  · rfl
  · have hchildren : kept = children := hkept children (by rw [hcollect])
    rw [hchildren]
    rfl

/-- Running the source of a file with the levels that are left inside it, given that requests are
answered as the plan answers them wherever that many levels are left. -/
lemma runFile_serveWithin {room : Nat}
    (hanswer : ∀ (inner : Session) request name, inner.room = room →
      inner.current?.map Frame.name = some name →
      serveWithin loader room request inner = inner.absorb Option.toList
        ((inner.plan loader).answer inner.depth name request inner.ledger))
    (hroom : session.room - 1 = room) (source : Text) (name path : String) (location : Position) :
    runFile (serveWithin loader room) source name path location session =
      session.absorb ([·]) ((session.plan loader).expand (session.depth + 1) name path location
        source session.ledger) := by
  apply runFile_eq_expand
  intro inner request hplan hdepth hname
  have hsettings : inner.settings = session.settings := congrArg Plan.settings hplan
  have hinner : inner.room = room := by
    unfold Session.room at hroom ⊢
    rw [hsettings, hdepth]
    omega
  rw [hanswer inner request name hinner hname, hplan, hdepth]

/-- A relative path in a request starts at the directory of the innermost file. -/
lemma resolve_of_name {name : String} (hname : session.current?.map Frame.name = some name)
    (target : String) : session.resolve target = Path.relativeTo name target := by
  cases hcurrent : session.current? with
  | none => simp [hcurrent] at hname
  | some frame =>
    simp only [hcurrent, Option.map_some, Option.some.injEq] at hname
    rw [resolve, hcurrent, ← hname]

/-- With a level left, a request is answered by fetching its file, given that the file is run as it
is expanded. -/
lemma serveWithin_succ {room : Nat} {name : String}
    (hname : session.current?.map Frame.name = some name)
    (hnested : ∀ source target identity location ledger,
      runFile (serveWithin loader room) source target identity location
          (session.extend ledger []) =
        (session.extend ledger []).absorb ([·])
          ((session.plan loader).expand (session.depth + 1) target identity location source ledger))
    (request : Request) :
    serveWithin loader (room + 1) request session =
      session.absorb Option.toList ((session.plan loader).fetch
        (fun target identity source ledger => (session.plan loader).expand (session.depth + 1)
          target identity request.location source ledger) name request session.ledger) := by
  rw [serveWithin_succ_eq]
  have hresolve := resolve_of_name hname request.target
  by_cases hmet : session.HasMet loader request
  · rw [retrieve_of_hasMet hmet, skip_eq_extend, hresolve]
    have hledger : session.ledger.HasMet loader (Path.relativeTo name request.target) := by
      rw [← hresolve]
      exact hmet.2
    rw [Plan.fetch_of_met hmet.1 hledger]
    rfl
  · rw [retrieve_of_not_hasMet hmet, enroll, hresolve]
    have hledger : ¬ (request.once = true ∧
        session.ledger.HasMet loader (Path.relativeTo name request.target)) := by
      rw [← hresolve]
      exact hmet
    rcases hfind : (session.plan loader).find (Path.relativeTo name request.target)
        request.location with fault | ⟨identity, source⟩
    · rw [Plan.fetch_of_missing hledger hfind]
      rfl
    · rw [Plan.fetch_of_found hledger hfind]
      simp only [Except.map, runRetrieved, hnested, plan_loader]
      rcases (session.plan loader).expand (session.depth + 1)
          (Path.relativeTo name request.target) identity request.location source
          (session.ledger.enroll loader request.once (Path.relativeTo name request.target)) with
        ⟨after, fault | node⟩ <;>
        simp [absorb, extend_extend, Expansion.map, Except.map]

/-- With the levels that are left counted by `room`, a request inside a file is answered as the plan
answers it at the depth of the session. The induction is on the levels; the file of the request is
run with one level less. -/
lemma serveWithin_eq_answer (room : Nat) (session : Session) (request : Request) (name : String)
    (hroom : session.room = room) (hname : session.current?.map Frame.name = some name) :
    serveWithin loader room request session =
      session.absorb Option.toList
        ((session.plan loader).answer session.depth name request session.ledger) := by
  induction room generalizing session request name with
  | zero =>
    have hdeep : (session.settings.maxDepth : Int) ≤ session.depth := by
      unfold Session.room at hroom
      omega
    rw [serveWithin, Plan.answer, plan_settings, if_pos hdeep, absorb, extend_self]
  | succ room ih =>
    have hshallow : ¬ (session.settings.maxDepth : Int) ≤ session.depth := by
      unfold Session.room at hroom
      omega
    rw [Plan.answer, plan_settings, if_neg hshallow]
    apply serveWithin_succ loader hname
    intro source target identity location ledger
    have hinner : (session.extend ledger []).room - 1 = room := by
      unfold Session.room at hroom ⊢
      rw [extend_settings, extend_depth]
      omega
    exact runFile_serveWithin loader ih hinner source target identity location

/-- Running a source in a session expands it, one level deeper than the session, and adds its node
to the innermost file. -/
lemma runSource_eq_expand (session : Session) (source : Text) (name path : String)
    (location : Position) :
    session.runSource loader source name path location =
      session.absorb ([·]) ((session.plan loader).expand (session.depth + 1) name path location
        source session.ledger) :=
  runFile_serveWithin loader (fun inner request name => serveWithin_eq_answer loader _ inner
    request name) rfl source name path location

end Session

end Splice

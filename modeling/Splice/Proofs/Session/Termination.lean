import Splice.Proofs.Scanner
import Splice.Proofs.Session.Depth

/-!
# Scans and runs come to an end

A scan comes to an end since each of its steps goes over text or leads to a mode of smaller rank;
see `Splice.Proofs.Scanner`. A run comes to an end although a loader may have a file for every path,
and each of them may ask for more files: a file is nested deeper than the one that asks for it, and
what is left of the other files was there before. So the steps of a run are well-founded
(`Moment.wellFounded_follows`): there is no bound on their number that would hold for all loaders,
and no need for one.

The number of levels that are left, by which `Session.serveWithin` recurses, is only the reason for
this. Requests are answered by a recursion that does not mention it, in which the depth of the
session alone decides whether a file is entered (`Session.respond`), and this recursion has exactly
one solution (`Session.eq_respond_iff`).
-/

namespace Splice

/-! ### The recursion -/

/-- An outcome goes on with equal steps if they are equal where it goes on. -/
lemma Outcome.andThen_congr {α β : Type} {outcome : Outcome α} {rest rest' : Session → Outcome β}
    (h : rest outcome.1 = rest' outcome.1) : outcome.andThen rest = outcome.andThen rest' := by
  obtain ⟨after, fault | result⟩ := outcome
  · rfl
  · exact h

namespace Session

/-- One call of the recursion by which requests are answered: the file is retrieved and run unless
the session is as deep as allowed, and `answer` answers the requests of this file. -/
def respond (loader : Loader) (answer : Request → Session → Outcome (Option Node))
    (request : Request) (session : Session) : Outcome (Option Node) :=
  if session.settings.maxDepth ≤ session.depth then
    (session, .error (.problem (.tooDeep session.settings.maxDepth request.location)))
  else runRetrieved answer request.location (session.retrieve loader request)

/-- Two ways of answering requests are the same with the given number of levels left. -/
def AgreeWithin (room : Nat) (answer other : Request → Session → Outcome (Option Node)) : Prop :=
  ∀ request (session : Session), session.room = room →
    answer request session = other request session

section Agree

variable {room : Nat} {answer other : Request → Session → Outcome (Option Node)}

/-- Items are carried out in the same way, since no item changes the number of levels. The induction
is on the items. -/
lemma AgreeWithin.perform_eq (h : AgreeWithin room answer other)
    (hother : ∀ request (session : Session),
      session.Extends Option.toList (other request session))
    (items : List Item) {session : Session} (hroom : session.room = room) :
    perform answer items session = perform other items session := by
  induction items generalizing session with
  | nil => rfl
  | cons item items ih =>
    cases item with
    | text location content =>
      have hgrows := session.keepText_grows location content
      rw [perform_text, perform_text]
      exact Outcome.andThen_congr (ih ((Moment.room_of_grows hgrows).trans hroom))
    | comment location content =>
      have hgrows := session.keepComment_grows location content
      rw [perform_comment, perform_comment]
      exact Outcome.andThen_congr (ih ((Moment.room_of_grows hgrows).trans hroom))
    | request request =>
      have hgrows := (hother request session).grows
      rw [perform_request, perform_request, h request session hroom]
      exact Outcome.andThen_congr (ih ((Moment.room_of_grows hgrows).trans hroom))
    | failure diagnostic => rfl

/-- A file is run in the same way, with one level more. -/
lemma AgreeWithin.runFile_eq (h : AgreeWithin room answer other)
    (hother : ∀ request (session : Session),
      session.Extends Option.toList (other request session))
    {session : Session} (hroom : session.room - 1 = room) (source : Text) (name path : String)
    (location : Position) :
    runFile answer source name path location session =
      runFile other source name path location session := by
  have hinner : ((session.push ⟨location, name, path, []⟩).note
      (.entering name (session.push ⟨location, name, path, []⟩).depth)).room = room := by
    rw [← hroom]
    simp only [Session.room, push, note]
    omega
  unfold runFile
  simp only [h.perform_eq hother _ hinner]

/-- A file that was retrieved is run in the same way. -/
lemma AgreeWithin.runRetrieved_eq (h : AgreeWithin room answer other)
    (hother : ∀ request (session : Session),
      session.Extends Option.toList (other request session))
    (location : Position) {outcome : Outcome (Option Retrieval)}
    (hroom : outcome.1.room - 1 = room) :
    runRetrieved answer location outcome = runRetrieved other location outcome := by
  obtain ⟨session, fault | _ | file⟩ := outcome
  · rfl
  · rfl
  · rw [runRetrieved, runRetrieved, h.runFile_eq hother hroom]

/-- One call of the recursion goes the same way with one level more. -/
lemma AgreeWithin.respond_eq (h : AgreeWithin room answer other)
    (hother : ∀ request (session : Session),
      session.Extends Option.toList (other request session))
    (loader : Loader) (request : Request) {session : Session} (hroom : session.room - 1 = room) :
    respond loader answer request session = respond loader other request session := by
  have hgrows := (retrieve_extends loader request session).grows
  have hafter : (session.retrieve loader request).1.room - 1 = room := by
    rw [Moment.room_of_grows hgrows, hroom]
  unfold respond
  rw [h.runRetrieved_eq hother request.location hafter]

end Agree

/-- A request is refused exactly if there is no level left. -/
lemma maxDepth_le_depth_iff (session : Session) :
    (session.settings.maxDepth : Int) ≤ session.depth ↔ session.room = 0 := by
  unfold room
  omega

/-- With no level left, the recursion ends. -/
lemma respond_of_room_eq_zero {session : Session} (h : session.room = 0) (loader : Loader)
    (answer : Request → Session → Outcome (Option Node)) (request : Request) :
    respond loader answer request session =
      (session, .error (.problem (.tooDeep session.settings.maxDepth request.location))) := by
  rw [respond, if_pos (session.maxDepth_le_depth_iff.2 h)]

/-- Requests are answered by the recursion, in which no number of levels occurs. -/
lemma serve_eq_respond (loader : Loader) (request : Request) (session : Session) :
    serve loader request session = respond loader (serve loader) request session := by
  rw [serve]
  cases hroom : session.room with
  | zero => rw [respond_of_room_eq_zero hroom, serveWithin]
  | succ room =>
    have hagree : AgreeWithin room (serveWithin loader room) (serve loader) := by
      rintro other inner rfl
      rfl
    have hdeep : ¬ (session.settings.maxDepth : Int) ≤ session.depth := by
      rw [maxDepth_le_depth_iff, hroom]
      exact Nat.succ_ne_zero room
    have hbefore : session.room - 1 = room := by rw [hroom, Nat.add_sub_cancel]
    rw [serveWithin_succ_eq,
      ← hagree.respond_eq (serve_extends loader) loader request hbefore, respond, if_neg hdeep]

/-- The recursion has exactly one solution. The induction is on the levels that are left: a
solution agrees with `serve` on the requests of a file once it does so one level deeper. -/
lemma eq_respond_iff (loader : Loader) (answer : Request → Session → Outcome (Option Node)) :
    (∀ request session, answer request session = respond loader answer request session) ↔
      answer = serve loader := by
  constructor
  · intro h
    have hagree (room : Nat) : AgreeWithin room answer (serve loader) := by
      induction room with
      | zero =>
        intro request session hroom
        rw [h, serve_eq_respond, respond_of_room_eq_zero hroom, respond_of_room_eq_zero hroom]
      | succ room ih =>
        intro request session hroom
        have hbefore : session.room - 1 = room := by rw [hroom, Nat.add_sub_cancel]
        rw [h, serve_eq_respond]
        exact ih.respond_eq (serve_extends loader) loader request hbefore
    funext request session
    exact hagree session.room request session rfl
  · rintro rfl
    exact serve_eq_respond loader

/-- A source is run with this recursion. -/
lemma runSource_eq_runFile (loader : Loader) (source : Text) (name path : String)
    (location : Position) (session : Session) :
    session.runSource loader source name path location =
      runFile (serve loader) source name path location session := by
  have hagree : AgreeWithin (session.room - 1) (serveWithin loader (session.room - 1))
      (serve loader) := by
    rintro request inner hroom
    rw [serve, hroom]
  exact hagree.runFile_eq (serve_extends loader) rfl source name path location

end Session

/-! ### Moments -/

namespace Moment

/-- A moment that comes one step after another at which the run was not over. -/
def Follows (loader : Loader) (later moment : Moment) : Prop :=
  moment.tasks ≠ [] ∧ later = moment.next loader

/-- From every moment, steps lead to one at which the run is over. The induction is on the files
that are being run: the innermost one is run to its end or to a fault, and left. -/
lemma exists_over (loader : Loader) (moment : Moment) :
    ∃ n, ((next loader)^[n] moment).tasks = [] := by
  obtain ⟨session, tasks, result⟩ := moment
  induction tasks generalizing session result with
  | nil => exact ⟨0, rfl⟩
  | cons task tasks ih =>
    have hleft (after : Session) (last : Except Fault Unit) :
        (left after task.name tasks last).tasks = tasks := rfl
    have hlater {moment : Moment} (htasks : moment.tasks = tasks) :
        ∃ n, ((next loader)^[n] moment).tasks = [] := by
      obtain ⟨after, others, last⟩ := moment
      obtain rfl : others = tasks := htasks
      exact ih after last
    cases result with
    | error fault =>
      obtain ⟨n, hn⟩ := hlater (hleft session (.error fault))
      exact ⟨n + 1, hn⟩
    | ok last =>
      obtain ⟨items, outcome, ⟨k, hk⟩, -, hitems⟩ :=
        performs_perform (serves loader session.room) task.items session task.name tasks last rfl
      have hnext := @next_eq_left loader
        (Session.perform (Session.serveWithin loader session.room) task.items session).1 task.name
        items tasks outcome hitems
      obtain ⟨n, hn⟩ := hlater (hleft
        (Session.perform (Session.serveWithin loader session.room) task.items session).1
        (outcome.map fun _ => ()))
      refine ⟨n + 1 + k, ?_⟩
      rw [Function.iterate_add_apply, hk, Function.iterate_succ_apply, hnext]
      exact hn

/-- The steps of runs are well-founded, whatever the loader is. The induction is on the number of
steps that are left. -/
lemma wellFounded_follows (loader : Loader) : WellFounded (Follows loader) := by
  refine ⟨fun moment => ?_⟩
  obtain ⟨n, hn⟩ := exists_over loader moment
  induction n generalizing moment with
  | zero =>
    refine Acc.intro moment ?_
    rintro later ⟨hrunning, -⟩
    exact absurd hn hrunning
  | succ n ih =>
    refine Acc.intro moment ?_
    rintro later ⟨-, rfl⟩
    exact ih (moment.next loader) hn

end Moment

/-- A run is over at some moment, with a tree or with a fault, which is its outcome. -/
lemma Run.exists_over (run : Run) :
    ∃ n, (run.moment n).tasks = [] ∧
      ((∃ root, run.outcome.2 = .ok root ∧ (run.moment n).result = .ok (some root)) ∨
        ∃ fault, run.outcome.2 = .error fault ∧ (run.moment n).result = .error fault) := by
  obtain ⟨n, hn⟩ := run.exists_last
  refine ⟨n, ?_⟩
  rw [hn]
  refine ⟨rfl, ?_⟩
  cases run.outcome.2 with
  | ok root => exact Or.inl ⟨root, rfl, rfl⟩
  | error fault => exact Or.inr ⟨fault, rfl, rfl⟩

/-- **Scans and runs come to an end.** For every trigger and all comment styles, a scanner that goes
over a source mode by mode comes to the tokens of the source, in a number of steps that its length
bounds. For every loader, the steps of a run are well-founded; and every run is over at some moment,
with a tree or with a fault as its outcome. The recursion by which requests are answered, in which
the depth alone decides whether a file is entered, has exactly one solution, and sources are run
with it. -/
theorem scans_and_runs_end :
    (∀ (dialect : Dialect) (source : Text), ∃ n ≤ 3 * source.length + 3,
      ((Scanner.next dialect)^[n] (.start source)).mode = .done ∧
        ((Scanner.next dialect)^[n] (.start source)).tokens = dialect.tokens source) ∧
    (∀ loader, WellFounded (Moment.Follows loader)) ∧
    (∀ run : Run, ∃ n, (run.moment n).tasks = [] ∧
      ((∃ root, run.outcome.2 = .ok root ∧ (run.moment n).result = .ok (some root)) ∨
        ∃ fault, run.outcome.2 = .error fault ∧ (run.moment n).result = .error fault)) ∧
    (∀ loader answer,
      (∀ request session, answer request session = Session.respond loader answer request session) ↔
        answer = Session.serve loader) ∧
    ∀ (loader : Loader) (source : Text) (name path : String) (location : Position)
      (session : Session), session.runSource loader source name path location =
        Session.runFile (Session.serve loader) source name path location session := by
  refine ⟨Scanner.exists_done_start, Moment.wellFounded_follows, Run.exists_over,
    Session.eq_respond_iff, ?_⟩
  intro loader source name path location session
  exact session.runSource_eq_runFile loader source name path location

/-- With a loader that has a file for every path, each of which asks for another one, a run is over
when no level is left. -/
example :
    (Run.mk .initial (some (Context.initial.active.withMaxDepth 3 (by decide)))
      ⟨fun path => .ok ("#include \"" ++ path ++ "x\"\n").toList, .ok, fun _ => []⟩
      (.file "m")).outcome.2 = .error (.problem (.tooDeep 3 ⟨"mxx", 1, 1⟩)) := by
  decide +kernel

end Splice

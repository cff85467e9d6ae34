import Splice.Proofs.Session.Invariant

/-!
# What a run depends on

A run learns about files only by asking its loader. A step that asks for something depends on the
answers to just these questions (`Session.retrieve_congr`, `Moment.next_congr`), and the questions
of a step are among those of the whole run (`Run.calls_prefix_outcome`). So two loaders that give
the same answers to all questions of a run lead through the same moments, to the same outcome
(`Run.outcome_congr`), whatever they would answer to other questions. Two catalogues give the same
identities to all paths, so that it is enough for them to have the same content wherever the run
reads.
-/

namespace Splice

/-- Two loaders answer a question in the same way. -/
def Call.SameAnswer (loader other : Loader) : Call → Prop
  | .canonical path =>
    other.canonical path = loader.canonical path ∧ other.warnings path = loader.warnings path
  | .read path => other.read path = loader.read path

/-- Two loaders answer all of the questions in the same way. -/
def Loader.AgreesOn (loader other : Loader) (calls : List Call) : Prop :=
  ∀ call ∈ calls, call.SameAnswer loader other

/-- Loaders that agree on questions agree on any of them. -/
lemma Loader.AgreesOn.of_prefix {loader other : Loader} {calls more : List Call}
    (h : loader.AgreesOn other more) (hcalls : calls <+: more) : loader.AgreesOn other calls :=
  fun call hcall => h call (hcalls.subset hcall)

/-! ### One request -/

/-- A file is asked for in the same way if its identity and the warnings about it are the same. -/
lemma Ledger.enroll_congr {loader other : Loader} {path : String}
    (hcanonical : other.canonical path = loader.canonical path)
    (hwarnings : other.warnings path = loader.warnings path) (ledger : Ledger) (once : Bool) :
    ledger.enroll other once path = ledger.enroll loader once path := by
  unfold enroll identify
  rw [hcanonical, hwarnings]

namespace Session

variable {loader other : Loader} {request : Request} {session : Session}

/-- A path is found in the same way if the loaders agree on the questions for it. -/
lemma plan_find_congr {path : String} (h : loader.AgreesOn other (loader.questions path))
    (session : Session) (location : Position) :
    (session.plan other).find path location = (session.plan loader).find path location := by
  obtain ⟨hcanonical, -⟩ := h _ (loader.canonical_mem_questions path)
  rw [Plan.find, Plan.find, plan_loader, plan_loader, hcanonical]
  cases hidentity : loader.canonical path with
  | error text => rfl
  | ok identity =>
    have hasked : .read path ∈ loader.questions path := by
      rw [Loader.questions_of_ok hidentity]
      simp
    have hread : other.read path = loader.read path := h _ hasked
    rw [Plan.read, Plan.read, plan_loader, plan_loader, hread]

/-- The file of a request is retrieved in the same way if the loaders agree on what is asked. -/
lemma retrieve_congr (h : loader.AgreesOn other (session.retrieve loader request).1.calls) :
    session.retrieve other request = session.retrieve loader request := by
  by_cases hmet : session.HasMet loader request
  · rw [retrieve_of_hasMet hmet] at h
    obtain ⟨hcanonical, hwarnings⟩ := h (.canonical (session.resolve request.target)) (by
      simp [skip])
    have hother : session.HasMet other request := by
      rw [HasMet, identityOf, hcanonical]
      exact hmet
    rw [retrieve_of_hasMet hmet, retrieve_of_hasMet hother, skip, skip, hwarnings]
  · rw [retrieve_of_not_hasMet hmet, enroll_calls] at h
    have hquestions : loader.AgreesOn other
        (loader.questions (session.resolve request.target)) :=
      fun call hcall => h call (List.mem_append_right _ hcall)
    obtain ⟨hcanonical, hwarnings⟩ := hquestions _ (loader.canonical_mem_questions _)
    have hnew : ¬ session.HasMet other request := by
      rw [HasMet, identityOf, hcanonical]
      exact hmet
    rw [retrieve_of_not_hasMet hmet, retrieve_of_not_hasMet hnew, enroll, enroll,
      Ledger.enroll_congr hcanonical hwarnings, plan_find_congr hquestions]

end Session

/-! ### One step -/

namespace Moment

variable {loader other : Loader}

/-- Entering a file that was retrieved asks for nothing more. -/
lemma retrieved_calls (location : Position) (tasks : List Task)
    (outcome : Outcome (Option Retrieval)) :
    (retrieved location tasks outcome).session.calls = outcome.1.calls := by
  obtain ⟨session, fault | _ | file⟩ := outcome <;> rfl

/-- A step is the same if the loaders agree on what was asked up to the next moment. Only a request
that is not refused asks for anything. -/
lemma next_congr {moment : Moment}
    (h : loader.AgreesOn other (moment.next loader).session.calls) :
    moment.next other = moment.next loader := by
  obtain ⟨session, tasks, result⟩ := moment
  rcases tasks with _ | ⟨⟨name, items⟩, tasks⟩
  · rfl
  · rcases result with fault | last
    · rfl
    · rcases items with _ | ⟨item, items⟩
      · rfl
      · cases item with
        | text location content => rfl
        | comment location content => rfl
        | request request =>
          by_cases hdeep : (session.settings.maxDepth : Int) ≤ session.depth
          · rw [next_of_deep hdeep, next_of_deep hdeep]
          · rw [next, carried, if_neg hdeep, retrieved_calls] at h
            rw [next, next, carried, carried, if_neg hdeep, if_neg hdeep,
              Session.retrieve_congr h]
        | failure diagnostic => rfl

/-- A step only adds questions. -/
lemma calls_prefix_next (loader : Loader) (moment : Moment) :
    moment.session.calls <+: (moment.next loader).session.calls := by
  have hways := advances_next loader moment
  generalize moment.next loader = after at hways
  cases hways with
  | ended session result => exact List.prefix_rfl
  | abandon session task tasks fault =>
    have hsame := (leaves_left session task.name tasks (.error fault)).calls_eq
    exact ⟨[], (List.append_nil _).trans hsame.symm⟩
  | finish session name tasks last =>
    have hsame := (leaves_left session name tasks (.ok ())).calls_eq
    exact ⟨[], (List.append_nil _).trans hsame.symm⟩
  | keep session name item items tasks last node hopen => exact List.prefix_rfl
  | fail session name item items tasks last fault hfault => exact List.prefix_rfl
  | refuse session name request items tasks last hdeep => exact List.prefix_rfl
  | skip session name request items tasks last hshallow hmet => exact List.prefix_append _ _
  | missing session name request items tasks last fault hshallow hnew hfind =>
    exact ⟨_, (session.enroll_calls loader request).symm⟩
  | enter session name request items tasks last identity source hshallow hnew hidentity hread =>
    exact ⟨_, (session.enroll_calls loader request).symm⟩

end Moment

/-! ### Whole runs -/

namespace Run

variable {run : Run} {other : Loader}

/-- Each question of a run stays among its questions. -/
lemma calls_prefix_moment (run : Run) (n k : Nat) :
    (run.moment n).session.calls <+: (run.moment (n + k)).session.calls := by
  induction k with
  | zero => exact List.prefix_rfl
  | succ k ih =>
    rw [← Nat.add_assoc, moment_succ]
    exact ih.trans ((run.moment (n + k)).calls_prefix_next run.loader)

/-- What was asked up to a moment of a run is the first part of what the whole run asks. -/
lemma calls_prefix_outcome (run : Run) (n : Nat) :
    (run.moment n).session.calls <+: run.outcome.1.calls := by
  obtain ⟨last, hlast⟩ := run.exists_last
  have hover : (run.moment last).tasks = [] := by rw [hlast]
  have hcalls := run.calls_prefix_moment n last
  rw [Nat.add_comm, moment_of_over hover n, hlast] at hcalls
  exact hcalls

/-- The run with another loader. -/
def withLoader (run : Run) (other : Loader) : Run :=
  { run with loader := other }

/-- At the start, a run of a file asks the questions for it. -/
lemma first_calls {path : String} (hinput : run.input = .file path) :
    run.first.session.calls = run.loader.questions path := by
  have hcalls : (run.session.enrollRoot run.loader path).calls = run.loader.questions path :=
    run.session.enrollRoot_calls run.loader path
  have hstarts := run.starts_first
  generalize run.first = first at hstarts
  cases hstarts with
  | text name content hother =>
    rw [hinput] at hother
    cases hother
  | missing asked fault hother hfind =>
    rw [hinput] at hother
    cases hother
    exact hcalls
  | read asked identity source hother hidentity hread =>
    rw [hinput] at hother
    cases hother
    exact hcalls

/-- The run starts in the same way with a loader that agrees on what is asked at the start. -/
lemma first_congr (h : run.loader.AgreesOn other run.first.session.calls) :
    (run.withLoader other).first = run.first := by
  cases hinput : run.input with
  | text name content =>
    have hother : (run.withLoader other).input = .text name content := hinput
    rw [first, first, hinput, hother]
    rfl
  | file path =>
    rw [first_calls hinput] at h
    obtain ⟨hcanonical, hwarnings⟩ := h _ (run.loader.canonical_mem_questions path)
    have hretrieve : run.session.retrieveRoot other path =
        run.session.retrieveRoot run.loader path := by
      rw [Session.retrieveRoot_eq, Session.retrieveRoot_eq, Session.enrollRoot,
        Session.enrollRoot, Ledger.enroll_congr hcanonical hwarnings, Session.plan_find_congr h]
    have hother : (run.withLoader other).input = .file path := hinput
    have hsession : (run.withLoader other).session = run.session := rfl
    have hloader : (run.withLoader other).loader = other := rfl
    rw [first, first, hinput, hother, hsession, hloader]
    simp only [hretrieve]

/-- With a loader that agrees on everything that a run asks, the run goes through the same
moments. -/
lemma moment_congr (h : run.loader.AgreesOn other run.outcome.1.calls) (n : Nat) :
    (run.withLoader other).moment n = run.moment n := by
  induction n with
  | zero => exact first_congr (h.of_prefix (run.calls_prefix_outcome 0))
  | succ n ih =>
    have hnext := h.of_prefix (run.calls_prefix_outcome (n + 1))
    rw [moment_succ] at hnext
    rw [moment_succ, moment_succ, ih]
    exact Moment.next_congr hnext

/-- With a loader that agrees on everything that a run asks, the run has the same outcome. -/
lemma outcome_congr (h : run.loader.AgreesOn other run.outcome.1.calls) :
    (run.withLoader other).outcome = run.outcome := by
  obtain ⟨last, hlast⟩ := run.exists_last
  have hmoment := moment_congr h last
  rw [hlast] at hmoment
  have hover : ((run.withLoader other).moment last).tasks = [] := by rw [hmoment]
  rw [moment_eq_outcome hover] at hmoment
  have hsession : (run.withLoader other).outcome.1 = run.outcome.1 :=
    congrArg Moment.session hmoment
  have hresult : (run.withLoader other).outcome.2.map some = run.outcome.2.map some :=
    congrArg Moment.result hmoment
  exact Prod.ext hsession (map_some_inj hresult)

end Run

/-! ### Catalogues -/

/-- Two catalogues agree on questions if they have the same content, or none, at every path that is
read. -/
lemma Catalogue.agreesOn {catalogue other : Catalogue} {calls : List Call}
    (h : ∀ path, .read path ∈ calls → other.get? path = catalogue.get? path) :
    catalogue.loader.AgreesOn other.loader calls := by
  intro call hcall
  cases call with
  | canonical path => exact ⟨rfl, rfl⟩
  | read path =>
    have hget := h path hcall
    unfold Call.SameAnswer loader
    simp only [hget]

namespace Run

/-- **The outcome depends only on the files that are read.** Take a run with the files of a
catalogue, and another catalogue that has the same content, or none, at every path that the run
reads; paths are looked up by their normal forms. Then the run with the other catalogue has the same
tree or the same fault, asks its loader the same in the same order, and has the same log; its
session is the same in all respects. -/
theorem outcome_of_same_files (catalogue other : Catalogue) (context : Context)
    (settings : Option Settings) (input : Input)
    (h : ∀ path, .read path ∈ (Run.mk context settings catalogue.loader input).outcome.1.calls →
      other.get? path = catalogue.get? path) :
    (Run.mk context settings other.loader input).outcome.2 =
        (Run.mk context settings catalogue.loader input).outcome.2 ∧
      (Run.mk context settings other.loader input).outcome.1.calls =
        (Run.mk context settings catalogue.loader input).outcome.1.calls ∧
      (Run.mk context settings other.loader input).outcome.1.log =
        (Run.mk context settings catalogue.loader input).outcome.1.log ∧
      (Run.mk context settings other.loader input).outcome.1 =
        (Run.mk context settings catalogue.loader input).outcome.1 := by
  have hagrees := Catalogue.agreesOn h
  have houtcome : (Run.mk context settings other.loader input).outcome =
      (Run.mk context settings catalogue.loader input).outcome :=
    @outcome_congr (Run.mk context settings catalogue.loader input) other.loader hagrees
  rw [houtcome]
  exact ⟨rfl, rfl, rfl, rfl⟩

end Run

/-- A catalogue with a file that asks for another one by two spellings of its path, and then for one
that there is not. -/
def Catalogue.dangling : Catalogue :=
  ⟨[("m", "#require \"x\"\n#include \"d/../x\"\n#include \"gone\"\n".toList),
    ("x", "p\n".toList), ("y", "q\n".toList)]⟩

/-- A catalogue with the same two files, the second under another spelling of its path, and with
other files besides. -/
def Catalogue.danglingAmongOthers : Catalogue :=
  ⟨[("z", "#error \"z\"\n".toList), ("./x", "p\n".toList),
    ("m", "#require \"x\"\n#include \"d/../x\"\n#include \"gone\"\n".toList),
    ("y", "r\n".toList)]⟩

namespace Run

/-- A run of the first file fails at the file that there is not, with both catalogues in the same
way. -/
theorem outcome_of_same_files_missing :
    (∀ path, .read path ∈
        (Run.mk .initial none Catalogue.dangling.loader (.file "m")).outcome.1.calls →
      Catalogue.danglingAmongOthers.get? path = Catalogue.dangling.get? path) ∧
    (Run.mk .initial none Catalogue.danglingAmongOthers.loader (.file "m")).outcome.2 =
      .error (.problem ⟨.load, "cannot read gone: no such file", some ⟨"m", 3, 1⟩, some "gone"⟩) ∧
    (Run.mk .initial none Catalogue.danglingAmongOthers.loader (.file "m")).outcome.1.calls =
      [.canonical "m", .read "m", .canonical "x", .read "x", .canonical "d/../x", .read "d/../x",
        .canonical "gone", .read "gone"] := by
  have hcalls : (Run.mk .initial none Catalogue.dangling.loader (.file "m")).outcome.1.calls =
      [.canonical "m", .read "m", .canonical "x", .read "x", .canonical "d/../x", .read "d/../x",
        .canonical "gone", .read "gone"] := by
    decide +kernel
  have hfault : (Run.mk .initial none Catalogue.dangling.loader (.file "m")).outcome.2 =
      .error (.problem ⟨.load, "cannot read gone: no such file", some ⟨"m", 3, 1⟩,
        some "gone"⟩) := by
    decide +kernel
  have hsame : ∀ path, .read path ∈
        (Run.mk .initial none Catalogue.dangling.loader (.file "m")).outcome.1.calls →
      Catalogue.danglingAmongOthers.get? path = Catalogue.dangling.get? path := by
    intro path hpath
    rw [hcalls] at hpath
    simp only [List.mem_cons, List.not_mem_nil, or_false, false_or, reduceCtorEq,
      Call.read.injEq] at hpath
    rcases hpath with rfl | rfl | rfl | rfl <;> decide +kernel
  obtain ⟨hresult, hasked, -, -⟩ := outcome_of_same_files _ _ .initial none (.file "m") hsame
  exact ⟨hsame, hresult.trans hfault, hasked.trans hcalls⟩

end Run

end Splice

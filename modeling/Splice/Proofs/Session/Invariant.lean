import Splice.Proofs.Session.Moment

/-!
# What holds at every moment of a run

At each moment of a run, the depth of the session is the number of files that are being run, these
are the files under construction, and they are at most as many as the settings allow. The items that
are left of each file are the last ones of its source (`Run.Sound`). A fault stays the fault of the
run, and nothing is asked of the loader after it, so that it is the outcome
(`Run.outcome_of_error`).
-/

namespace Splice

namespace Run

/-- How the sources of a run are scanned. -/
def dialect (run : Run) : Dialect :=
  (run.context.plan run.settings run.loader).dialect

/-- The text of the file with the given name that is nested as deep as the level says; the level of
what the run is given is one. -/
def SourceAt (run : Run) (level : Nat) (name : String) (source : Text) : Prop :=
  match run.input with
  | .text root content =>
    if level = 1 then name = root ∧ source = content else run.loader.read name = .ok source
  | .file path => (level = 1 → name = path) ∧ run.loader.read name = .ok source

/-- The items that are left of the files that are being run, innermost first, are the last ones of
their sources. -/
inductive Traced (run : Run) : List Task → Prop where
  | nil : Traced run []
  | cons {task : Task} {tasks : List Task} (source : Text)
    (hsource : run.SourceAt (tasks.length + 1) task.name source)
    (hitems : task.items <:+ run.dialect.items task.name source) (htail : Traced run tasks) :
    Traced run (task :: tasks)

/-- One item less is left of the innermost file. -/
lemma Traced.tail_items {run : Run} {name : String} {item : Item} {items : List Item}
    {tasks : List Task} (h : run.Traced (⟨name, item :: items⟩ :: tasks)) :
    run.Traced (⟨name, items⟩ :: tasks) := by
  cases h with
  | cons source hsource hitems htail =>
    exact .cons source hsource ((List.suffix_cons item items).trans hitems) htail

/-- A file that is read in a file that is being run is nested deeper than what the run is given. -/
lemma sourceAt_of_read {run : Run} {level : Nat} {name : String} {source : Text}
    (hread : run.loader.read name = .ok source) (hlevel : level ≠ 1) :
    run.SourceAt level name source := by
  unfold SourceAt
  split
  · rw [if_neg hlevel]
    exact hread
  · refine ⟨?_, hread⟩
    intro hone
    exact absurd hone hlevel

/-- What holds at every moment of a run. -/
structure Sound (run : Run) (moment : Moment) : Prop where
  settings_eq : moment.session.settings = run.limits
  fallback_eq : moment.session.fallback = run.context.active.styles
  depth_eq : moment.session.depth = moment.tasks.length
  /-- The files that are being run are those under construction. -/
  names_eq : moment.session.frames.map Frame.name = moment.tasks.map Task.name
  length_le : moment.tasks.length ≤ run.limits.maxDepth
  traced : run.Traced moment.tasks

/-- While a file is being run, it is under construction. -/
lemma Sound.frames_ne_nil {run : Run} {moment : Moment} (h : run.Sound moment)
    (htasks : moment.tasks ≠ []) : moment.session.frames ≠ [] := by
  intro hframes
  have hnames := h.names_eq
  rw [hframes] at hnames
  exact htasks (List.map_eq_nil_iff.1 hnames.symm)

/-- A session with the settings of a run scans sources as the run does. -/
lemma dialect_eq {run : Run} {session : Session} (hsettings : session.settings = run.limits)
    (hfallback : session.fallback = run.context.active.styles) :
    session.dialect = run.dialect := by
  unfold Session.dialect Session.scanStyles
  rw [hsettings, hfallback]
  rfl

/-- Entering a file, below the greatest depth, leads from one sound moment to another. -/
lemma sound_entered {run : Run} {session : Session} {tasks : List Task}
    (hsettings : session.settings = run.limits)
    (hfallback : session.fallback = run.context.active.styles)
    (hdepth : session.depth = tasks.length)
    (hnames : session.frames.map Frame.name = tasks.map Task.name)
    (hshallow : tasks.length < run.limits.maxDepth) (htraced : run.Traced tasks)
    {source : Text} {name : String} (hsource : run.SourceAt (tasks.length + 1) name source)
    (path : String) (location : Position) :
    run.Sound (.entered session source name path location tasks) where
  settings_eq := hsettings
  fallback_eq := hfallback
  depth_eq := by
    have hpush : (Moment.entered session source name path location tasks).session.depth =
        session.depth + 1 := rfl
    have htasks : (Moment.entered session source name path location tasks).tasks.length =
        tasks.length + 1 := rfl
    rw [hpush, htasks, hdepth]
    rfl
  names_eq := congrArg (name :: ·) hnames
  length_le := hshallow
  traced := by
    refine .cons source hsource ?_ htraced
    rw [← dialect_eq hsettings hfallback]
    exact List.suffix_rfl

/-- The first moment of a run is sound. -/
lemma sound_first (run : Run) : run.Sound run.first := by
  have hpositive : ([] : List Task).length < run.limits.maxDepth := run.limits.maxDepth_pos
  have hstarts := run.starts_first
  generalize run.first = first at hstarts
  cases hstarts with
  | text name content hinput =>
    have hsource : run.SourceAt (([] : List Task).length + 1) name content := by
      rw [SourceAt, hinput]
      exact ⟨rfl, rfl⟩
    exact sound_entered rfl rfl rfl rfl hpositive .nil hsource _ _
  | missing path fault hinput hfind => exact ⟨rfl, rfl, rfl, rfl, Nat.zero_le _, .nil⟩
  | read path identity source hinput hidentity hread =>
    have hsource : run.SourceAt (([] : List Task).length + 1) path source := by
      rw [SourceAt, hinput]
      exact ⟨fun _ => rfl, hread⟩
    exact sound_entered rfl rfl rfl rfl hpositive .nil hsource _ _

/-- Leaving a file leads from one sound moment to another. -/
lemma Sound.left {run : Run} {session : Session} {task : Task} {tasks : List Task}
    {last : Except Fault (Option Node)} (h : run.Sound ⟨session, task :: tasks, last⟩)
    (result : Except Fault Unit) : run.Sound (.left session task.name tasks result) := by
  have hleaves := Moment.leaves_left session task.name tasks result
  have hdepth : session.depth = tasks.length + 1 := h.depth_eq
  have hnames : session.frames.map Frame.name = task.name :: tasks.map Task.name := h.names_eq
  have hlength : tasks.length + 1 ≤ run.limits.maxDepth := h.length_le
  refine ⟨hleaves.settings_eq.trans h.settings_eq, hleaves.fallback_eq.trans h.fallback_eq,
    ?_, ?_, ?_, ?_⟩
  · rw [hleaves.depth_eq, hdepth]
    exact Int.add_sub_cancel _ _
  · rw [hleaves.names_eq, hnames]
    rfl
  · exact Nat.le_of_succ_le hlength
  · cases h.traced with
    | cons source hsource hitems htail => exact htail

/-- A step after which the same files are being run, with one item less of the innermost one, leads
from one sound moment to another. -/
lemma Sound.of_same {run : Run} {session after : Session} {name : String} {item : Item}
    {items : List Item} {tasks : List Task} {last result : Except Fault (Option Node)}
    (h : run.Sound ⟨session, ⟨name, item :: items⟩ :: tasks, last⟩)
    (hsettings : after.settings = session.settings) (hfallback : after.fallback = session.fallback)
    (hdepth : after.depth = session.depth)
    (hnames : after.frames.map Frame.name = session.frames.map Frame.name) :
    run.Sound ⟨after, ⟨name, items⟩ :: tasks, result⟩ where
  settings_eq := hsettings.trans h.settings_eq
  fallback_eq := hfallback.trans h.fallback_eq
  depth_eq := hdepth.trans h.depth_eq
  names_eq := hnames.trans h.names_eq
  length_le := h.length_le
  traced := h.traced.tail_items

/-- Each step of a run leads from one sound moment to another. -/
lemma Sound.next {run : Run} {moment : Moment} (h : run.Sound moment) :
    run.Sound (moment.next run.loader) := by
  have hways := Moment.advances_next run.loader moment
  generalize moment.next run.loader = after at hways
  cases hways with
  | ended session result => exact h
  | abandon session task tasks fault => exact h.left (.error fault)
  | finish session name tasks last => exact h.left (.ok ())
  | keep session name item items tasks last node hopen =>
    refine h.of_same rfl rfl rfl ?_
    obtain ⟨settings, fallback, depth, visited, frames, calls, log⟩ := session
    cases frames <;> rfl
  | fail session name item items tasks last fault hfault => exact h.of_same rfl rfl rfl rfl
  | refuse session name request items tasks last hdeep => exact h.of_same rfl rfl rfl rfl
  | skip session name request items tasks last hshallow hmet => exact h.of_same rfl rfl rfl rfl
  | missing session name request items tasks last fault hshallow hnew hfind =>
    exact h.of_same rfl rfl rfl (by rw [Session.enroll_frames])
  | enter session name request items tasks last identity source hshallow hnew hidentity hread =>
    have hsettings : session.settings = run.limits := h.settings_eq
    have hdepth : session.depth = ((⟨name, items⟩ :: tasks : List Task).length : Int) := h.depth_eq
    have hnames : (session.enroll run.loader request).frames.map Frame.name =
        (⟨name, items⟩ :: tasks : List Task).map Task.name := by
      rw [Session.enroll_frames]
      exact h.names_eq
    have hroom : (⟨name, items⟩ :: tasks : List Task).length < run.limits.maxDepth := by
      rw [hdepth, hsettings] at hshallow
      exact Int.ofNat_lt.1 hshallow
    have hlevel : (⟨name, items⟩ :: tasks : List Task).length + 1 ≠ 1 := by simp
    refine sound_entered ?_ ?_ ?_ hnames hroom h.traced.tail_items
      (sourceAt_of_read hread hlevel) _ _
    · exact hsettings
    · exact h.fallback_eq
    · exact hdepth

/-- Every moment of a run is sound. -/
lemma sound (run : Run) (n : Nat) : run.Sound (run.moment n) :=
  moment_induction run.sound_first (fun _ h => h.next) n

/-- What holds at the first moment of a run, and at the next moment after each sound one at which it
holds, holds at all moments. -/
lemma sound_induction {run : Run} {P : Moment → Prop} (hfirst : P run.first)
    (hnext : ∀ moment, run.Sound moment → P moment → P (moment.next run.loader)) (n : Nat) :
    P (run.moment n) := by
  have hboth : run.Sound (run.moment n) ∧ P (run.moment n) := by
    refine @moment_induction run (fun moment => run.Sound moment ∧ P moment) ?_ ?_ n
    · exact ⟨run.sound_first, hfirst⟩
    · rintro moment ⟨hsound, hmoment⟩
      exact ⟨hsound.next, hnext moment hsound hmoment⟩
  exact hboth.2

/-! ### Faults stay -/

/-- A fault stays, and nothing more is asked of the loader. -/
lemma error_moment_add {run : Run} {n : Nat} {fault : Fault}
    (h : (run.moment n).result = .error fault) (k : Nat) :
    (run.moment (n + k)).result = .error fault ∧
      (run.moment (n + k)).session.calls = (run.moment n).session.calls := by
  induction k with
  | zero => exact ⟨h, rfl⟩
  | succ k ih =>
    have hsound := run.sound (n + k)
    rw [← Nat.add_assoc, moment_succ]
    rw [← ih.2]
    have hresult := ih.1
    generalize run.moment (n + k) = moment at hsound hresult
    obtain ⟨session, tasks, result⟩ := moment
    obtain rfl : result = .error fault := hresult
    cases tasks with
    | nil => exact ⟨rfl, rfl⟩
    | cons task tasks =>
      have hopen := hsound.frames_ne_nil (List.cons_ne_nil task tasks)
      refine ⟨Moment.left_result_error hopen task.name tasks fault, ?_⟩
      exact (Moment.leaves_left session task.name tasks (.error fault)).calls_eq

/-- The result of a moment at which a file was just left tells that of the file. -/
lemma map_some_inj {result other : Except Fault Node} (h : result.map some = other.map some) :
    result = other := by
  cases result with
  | error fault => cases other with
    | error _ =>
      cases h
      rfl
    | ok _ => cases h
  | ok node => cases other with
    | error _ => cases h
    | ok _ =>
      cases h
      rfl

/-- A moment at which a run is over has the outcome of the run. -/
lemma moment_eq_outcome {run : Run} {n : Nat} (h : (run.moment n).tasks = []) :
    run.moment n = ⟨run.outcome.1, [], run.outcome.2.map some⟩ := by
  obtain ⟨last, hlast⟩ := run.exists_last
  have hover : (run.moment last).tasks = [] := by rw [hlast]
  rw [← moment_of_over h last, ← hlast, ← moment_of_over hover n, Nat.add_comm]

/-- A fault at some moment of a run is the outcome of the run. -/
lemma outcome_of_error {run : Run} {n : Nat} {fault : Fault}
    (h : (run.moment n).result = .error fault) :
    run.outcome.2 = .error fault ∧ run.outcome.1.calls = (run.moment n).session.calls := by
  obtain ⟨last, hlast⟩ := run.exists_last
  have hover : (run.moment last).tasks = [] := by rw [hlast]
  have hlater := error_moment_add h last
  rw [Nat.add_comm, moment_of_over hover n, hlast] at hlater
  have hresult : run.outcome.2.map some = (Except.error fault : Except Fault Node).map some :=
    hlater.1
  exact ⟨map_some_inj hresult, hlater.2⟩

/-- The fault that a run fails with is there at some moment of it. -/
lemma exists_error_of_outcome {run : Run} {fault : Fault} (h : run.outcome.2 = .error fault) :
    ∃ n, (run.moment n).result = .error fault := by
  obtain ⟨last, hlast⟩ := run.exists_last
  refine ⟨last, ?_⟩
  rw [hlast, h]
  rfl

end Run

end Splice

import Splice.Proofs.Session.Depth

/-!
# Raising the greatest depth

Two runs that differ in the greatest depth only go side by side: their moments are the same but for
the greatest depth itself, as long as no request is refused in the run with the smaller one
(`Moment.next_withMaxDepth`). A run in which a request is refused fails because files are nested too
deep. So a run that ends in another way ends in the same way with any larger greatest depth.
-/

namespace Splice

namespace Session

variable (maxDepth : Nat) (hpos : 1 ≤ maxDepth)

/-- The session with another greatest depth. -/
def withMaxDepth (session : Session) : Session :=
  { session with settings := session.settings.withMaxDepth maxDepth hpos }

/-- A node is added to the innermost file in the same way. -/
lemma append_withMaxDepth (session : Session) (node : Node) :
    (session.withMaxDepth maxDepth hpos).append node =
      ((session.append node).1.withMaxDepth maxDepth hpos, (session.append node).2) := by
  obtain ⟨settings, fallback, depth, visited, frames, calls, log⟩ := session
  cases frames <;> rfl

/-- Text is kept in the same way, since the comment styles are the same. -/
lemma keepText_withMaxDepth (session : Session) (location : Position) (content : Text) :
    (session.withMaxDepth maxDepth hpos).keepText location content =
      ((session.keepText location content).1.withMaxDepth maxDepth hpos,
        (session.keepText location content).2) := by
  have hstyles : (session.withMaxDepth maxDepth hpos).scanStyles = session.scanStyles := rfl
  rw [keepText, keepText, hstyles]
  cases session.scanStyles with
  | none => rfl
  | some styles => exact append_withMaxDepth maxDepth hpos session _

/-- Comments are kept in the same way. -/
lemma keepComment_withMaxDepth (session : Session) (location : Position) (content : Text) :
    (session.withMaxDepth maxDepth hpos).keepComment location content =
      ((session.keepComment location content).1.withMaxDepth maxDepth hpos,
        (session.keepComment location content).2) := by
  have hstyles : (session.withMaxDepth maxDepth hpos).settings.styles = session.settings.styles :=
    rfl
  rw [keepComment, keepComment, hstyles]
  cases session.settings.styles with
  | none => rfl
  | some styles => exact append_withMaxDepth maxDepth hpos session _

/-- The file of a request is found and read in the same way. -/
lemma retrieve_withMaxDepth (session : Session) (loader : Loader) (request : Request) :
    (session.withMaxDepth maxDepth hpos).retrieve loader request =
      ((session.retrieve loader request).1.withMaxDepth maxDepth hpos,
        (session.retrieve loader request).2) := by
  by_cases hmet : session.HasMet loader request
  · have hmet' : (session.withMaxDepth maxDepth hpos).HasMet loader request := hmet
    rw [retrieve_of_hasMet hmet, retrieve_of_hasMet hmet']
    rfl
  · have hnew : ¬ (session.withMaxDepth maxDepth hpos).HasMet loader request := hmet
    rw [retrieve_of_not_hasMet hmet, retrieve_of_not_hasMet hnew]
    rfl

end Session

namespace Moment

variable (maxDepth : Nat) (hpos : 1 ≤ maxDepth)

/-- The moment with another greatest depth. -/
def withMaxDepth (moment : Moment) : Moment :=
  { moment with session := moment.session.withMaxDepth maxDepth hpos }

/-- A file is left in the same way. -/
lemma left_withMaxDepth (session : Session) (name : String) (tasks : List Task)
    (result : Except Fault Unit) :
    left (session.withMaxDepth maxDepth hpos) name tasks result =
      (left session name tasks result).withMaxDepth maxDepth hpos := by
  obtain ⟨settings, fallback, depth, visited, frames, calls, log⟩ := session
  rcases frames with _ | ⟨frame, _ | ⟨outer, frames⟩⟩
  · rfl
  · cases result <;> rfl
  · cases result <;> rfl

/-- An item is carried out in the same way with a larger greatest depth, if it is no request that is
refused with the smaller one. -/
lemma carried_withMaxDepth {loader : Loader} {session : Session} {item : Item}
    (hle : session.settings.maxDepth ≤ maxDepth)
    (hshallow : ∀ request, item = .request request →
      session.depth < session.settings.maxDepth) (tasks : List Task) :
    carried loader (session.withMaxDepth maxDepth hpos) tasks item =
      (carried loader session tasks item).withMaxDepth maxDepth hpos := by
  cases item with
  | text location content =>
    rw [carried, carried, Session.keepText_withMaxDepth]
    rfl
  | comment location content =>
    rw [carried, carried, Session.keepComment_withMaxDepth]
    rfl
  | request request =>
    have hless : session.depth < session.settings.maxDepth := hshallow request rfl
    have hsmall : ¬ (session.settings.maxDepth : Int) ≤ session.depth := by omega
    have hdepth : (session.withMaxDepth maxDepth hpos).depth = session.depth := rfl
    have hmax : (session.withMaxDepth maxDepth hpos).settings.maxDepth = maxDepth := rfl
    have hlarge : ¬ ((session.withMaxDepth maxDepth hpos).settings.maxDepth : Int) ≤
        (session.withMaxDepth maxDepth hpos).depth := by
      rw [hdepth, hmax]
      omega
    rw [carried, carried, if_neg hsmall, if_neg hlarge, Session.retrieve_withMaxDepth]
    rcases session.retrieve loader request with ⟨after, fault | _ | file⟩ <;> rfl
  | failure diagnostic => rfl

/-- One step is the same with a larger greatest depth if it does not refuse a request. -/
lemma next_withMaxDepth {loader : Loader} {moment : Moment}
    (hle : moment.session.settings.maxDepth ≤ maxDepth)
    (hshallow : ∀ request, moment.request? = some request →
      moment.session.depth < moment.session.settings.maxDepth) :
    (moment.withMaxDepth maxDepth hpos).next loader =
      (moment.next loader).withMaxDepth maxDepth hpos := by
  obtain ⟨session, tasks, result⟩ := moment
  rcases tasks with _ | ⟨⟨name, items⟩, tasks⟩
  · rfl
  · rcases result with fault | last
    · exact left_withMaxDepth maxDepth hpos session name tasks (.error fault)
    · rcases items with _ | ⟨item, items⟩
      · exact left_withMaxDepth maxDepth hpos session name tasks (.ok ())
      · refine carried_withMaxDepth maxDepth hpos hle ?_ (⟨name, items⟩ :: tasks)
        rintro request rfl
        exact hshallow request rfl

end Moment

namespace Run

/-- Two runs that are the same but for the greatest depth, which is not smaller in the second. -/
structure DeepensTo (run deeper : Run) : Prop where
  loader_eq : deeper.loader = run.loader
  input_eq : deeper.input = run.input
  trigger_eq : deeper.limits.trigger = run.limits.trigger
  styles_eq : deeper.limits.styles = run.limits.styles
  /-- The comment styles in force are the same as well. -/
  fallback_eq : deeper.context.active.styles = run.context.active.styles
  maxDepth_le : run.limits.maxDepth ≤ deeper.limits.maxDepth

/-- The session of the second run is that of the first, with the greatest depth of the second. -/
lemma DeepensTo.session_eq {run deeper : Run} (h : run.DeepensTo deeper) :
    deeper.session =
      run.session.withMaxDepth deeper.limits.maxDepth deeper.limits.maxDepth_pos := by
  have hlimits : deeper.limits =
      run.limits.withMaxDepth deeper.limits.maxDepth deeper.limits.maxDepth_pos := by
    have htrigger := h.trigger_eq
    have hstyles := h.styles_eq
    generalize deeper.limits = limits at htrigger hstyles
    obtain ⟨trigger, maxDepth, styles, hne, hspace, hpos⟩ := limits
    cases htrigger
    cases hstyles
    rfl
  have hdeeper : deeper.session = .start deeper.limits deeper.context.active.styles := rfl
  have hrun : run.session = .start run.limits run.context.active.styles := rfl
  rw [hdeeper, hrun, h.fallback_eq, hlimits]
  rfl

/-- The two runs start in the same way. -/
lemma DeepensTo.first_eq {run deeper : Run} (h : run.DeepensTo deeper) :
    deeper.first =
      run.first.withMaxDepth deeper.limits.maxDepth deeper.limits.maxDepth_pos := by
  rw [first, first, h.input_eq, h.loader_eq, h.session_eq]
  cases run.input with
  | text name content => rfl
  | file path =>
    have hfind : (Session.plan (run.session.withMaxDepth _ deeper.limits.maxDepth_pos)
        run.loader).find path (.start path) =
          (run.session.plan run.loader).find path (.start path) := rfl
    simp only [Session.retrieveRoot_eq, hfind]
    rcases (run.session.plan run.loader).find path (.start path) with
      fault | ⟨identity, source⟩ <;>
      rfl

/-- In a run that does not fail because files are nested too deep, no request is refused. -/
lemma depth_lt_of_request {run : Run}
    (hfine : ∀ fault, run.outcome.2 = .error fault → fault.isTooDeep = false) {n : Nat}
    {request : Request} (hrequest : (run.moment n).request? = some request) :
    (run.moment n).session.depth < (run.moment n).session.settings.maxDepth := by
  have hsound := run.sound n
  have hlength := hsound.length_le
  have hlevel : (run.moment n).tasks.length ≠ run.limits.maxDepth := by
    intro hlevel
    obtain ⟨hresult, -⟩ := refused_of_meetsAt ⟨hrequest, hlevel⟩
    have hfault := hfine _ (outcome_of_error hresult).1
    cases hfault
  rw [hsound.depth_eq, hsound.settings_eq]
  omega

/-- The two runs are the same at every moment but for the greatest depth. -/
lemma DeepensTo.moment_eq {run deeper : Run} (h : run.DeepensTo deeper)
    (hfine : ∀ fault, run.outcome.2 = .error fault → fault.isTooDeep = false) (n : Nat) :
    deeper.moment n =
      (run.moment n).withMaxDepth deeper.limits.maxDepth deeper.limits.maxDepth_pos := by
  induction n with
  | zero => exact h.first_eq
  | succ n ih =>
    have hle : (run.moment n).session.settings.maxDepth ≤ deeper.limits.maxDepth := by
      rw [(run.sound n).settings_eq]
      exact h.maxDepth_le
    rw [moment_succ, moment_succ, ih, h.loader_eq]
    refine Moment.next_withMaxDepth _ _ hle ?_
    intro request hrequest
    exact depth_lt_of_request hfine hrequest

/-- **Raising the greatest depth changes nothing that works.** A run that does not fail because
files are nested too deep has the same outcome with any larger greatest depth: the same tree or the
same fault, and the session is the same at the end but for the greatest depth itself, so that the
loader was asked the same and the log is the same. -/
theorem outcome_of_deepensTo {run deeper : Run} (h : run.DeepensTo deeper)
    (hfine : ∀ fault, run.outcome.2 = .error fault → fault.isTooDeep = false) :
    deeper.outcome.2 = run.outcome.2 ∧
      deeper.outcome.1.calls = run.outcome.1.calls ∧
      deeper.outcome.1.log = run.outcome.1.log ∧
      deeper.outcome.1 =
        run.outcome.1.withMaxDepth deeper.limits.maxDepth deeper.limits.maxDepth_pos := by
  obtain ⟨last, hlast⟩ := run.exists_last
  have hmoment := h.moment_eq hfine last
  rw [hlast] at hmoment
  have hover : (deeper.moment last).tasks = [] := by
    rw [hmoment]
    rfl
  rw [moment_eq_outcome hover] at hmoment
  have hsession : deeper.outcome.1 =
      run.outcome.1.withMaxDepth deeper.limits.maxDepth deeper.limits.maxDepth_pos :=
    congrArg Moment.session hmoment
  have hresult : deeper.outcome.2.map some = run.outcome.2.map some :=
    congrArg Moment.result hmoment
  refine ⟨map_some_inj hresult, ?_, ?_, hsession⟩
  · rw [hsession]
    rfl
  · rw [hsession]
    rfl

/-- A run of a text that asks for a file, which asks for another one that there is not, with the
given greatest depth. -/
def dangling (maxDepth : Nat) (hpos : 1 ≤ maxDepth) : Run :=
  { chain maxDepth hpos with
    loader := Catalogue.loader ⟨[("x", "p\n#include \"y\"\n".toList)]⟩ }

/-- With three levels such a run fails since the second file cannot be read, and so it does with
five. -/
theorem outcome_of_deepensTo_dangling :
    (dangling 3 (by decide)).DeepensTo (dangling 5 (by decide)) ∧
      (dangling 5 (by decide)).outcome.2 =
        .error (.problem ⟨.load, "cannot read y: no such file", some ⟨"x", 2, 1⟩, some "y"⟩) ∧
      (dangling 5 (by decide)).outcome.1.calls =
        [.canonical "x", .read "x", .canonical "y", .read "y"] ∧
      (dangling 5 (by decide)).outcome.1.log = (dangling 3 (by decide)).outcome.1.log := by
  have hdeepens : (dangling 3 (by decide)).DeepensTo (dangling 5 (by decide)) :=
    ⟨rfl, rfl, rfl, rfl, rfl, by decide⟩
  have houtcome : (dangling 3 (by decide)).outcome.2 =
      .error (.problem ⟨.load, "cannot read y: no such file", some ⟨"x", 2, 1⟩, some "y"⟩) := by
    decide +kernel
  have hcalls : (dangling 3 (by decide)).outcome.1.calls =
      [.canonical "x", .read "x", .canonical "y", .read "y"] := by
    decide +kernel
  have hfine : ∀ fault, (dangling 3 (by decide)).outcome.2 = .error fault →
      fault.isTooDeep = false := by
    intro fault hfault
    rw [houtcome] at hfault
    cases hfault
    rfl
  obtain ⟨hresult, hasked, hlog, -⟩ := outcome_of_deepensTo hdeepens hfine
  exact ⟨hdeepens, hresult.trans houtcome, hasked.trans hcalls, hlog⟩

end Run

end Splice

import Splice.Loader.Disk
import Splice.Proofs.Catalogue
import Splice.Proofs.Placement
import Splice.Proofs.Session.Locality

/-!
# Where a run finds its fault

A run fails in one step: at some moment an item of the innermost file is carried out, there was no
fault so far, and then there is one (`Run.FailsAt`). The files around it only hand the fault on. So
the fault is what the item causes (`Item.Causes`): the failure that it states, the refusal of a
request, or that the file of a request is not found. In each case it is located in the text of the
innermost file, and a fault that has to do with a whole directive line at the trigger of the line.

A loader that says itself where the problem lies is believed (`Run.outcome_of_located`). The one
fault without any location is that of a path which the loader has no use for.
-/

namespace Splice

/-! ### Faults of items -/

/-- A question that a loader answers by saying that there can be no such path. -/
def Call.Refused (loader : Loader) (text : String) : Call → Prop
  | .canonical path => loader.canonical path = .error text
  | .read path => loader.read path = .error (.unusable text)

/-- The faults that carrying out an item of a file can lead to, when there are comment styles and
the loader was asked what the calls say. -/
inductive Item.Causes (loader : Loader) (calls : List Call) : Item → Fault → Prop where
  /-- The failure of a directive line. -/
  | failure (diagnostic : Diagnostic) :
    Causes loader calls (.failure diagnostic) (.problem diagnostic)
  /-- A request in a file that is nested as deep as allowed. -/
  | refused (request : Request) (maxDepth : Nat) :
    Causes loader calls (.request request) (.problem (.tooDeep maxDepth request.location))
  /-- A request for a file that cannot be read, located by the loader or else at the request. -/
  | unread (request : Request) {path text : String} {place : Option Position}
    {failed : Option String} (hasked : .read path ∈ calls)
    (hread : loader.read path = .error (.unreadable text place failed)) :
    Causes loader calls (.request request)
      (.problem ⟨.load, text, some (place.getD request.location), failed⟩)
  /-- A request for a path that the loader has no use for. -/
  | unusable (request : Request) {call : Call} {text : String} (hasked : call ∈ calls)
    (hrefused : call.Refused loader text) :
    Causes loader calls (.request request) (.unusablePath text)

/-- The items that need comment styles which there are not: a comment needs those of the settings,
and text needs any at all. -/
inductive Item.LacksStyles (styles fallback : Option Styles) : Item → Prop where
  | text (location : Position) (content : Text) (hstyles : styles = none)
    (hfallback : fallback = none) : LacksStyles styles fallback (.text location content)
  | comment (location : Position) (content : Text) (hstyles : styles = none) :
    LacksStyles styles fallback (.comment location content)

/-- Only settings without comment styles lack them. -/
lemma Item.LacksStyles.styles_eq {styles fallback : Option Styles} {item : Item}
    (h : item.LacksStyles styles fallback) : styles = none := by
  cases h with
  | text location content hstyles hfallback => exact hstyles
  | comment location content hstyles => exact hstyles

/-- The cause of a fault stays one when more is asked of the loader. -/
lemma Item.Causes.mono {loader : Loader} {calls more : List Call} {item : Item} {fault : Fault}
    (h : item.Causes loader calls fault) (hcalls : calls <+: more) :
    item.Causes loader more fault := by
  cases h with
  | failure diagnostic => exact .failure diagnostic
  | refused request maxDepth => exact .refused request maxDepth
  | unread request hasked hread => exact .unread request (hcalls.subset hasked) hread
  | unusable request hasked hrefused => exact .unusable request (hcalls.subset hasked) hrefused

/-- A file that is not found cannot be read, or one of the questions for it is refused. -/
lemma Plan.cause_of_find {plan : Plan} {path : String} {location : Position} {fault : Fault}
    (h : plan.find path location = .error fault) :
    (∃ text place failed, .read path ∈ plan.loader.questions path ∧
        plan.loader.read path = .error (.unreadable text place failed) ∧
        fault = .problem ⟨.load, text, some (place.getD location), failed⟩) ∨
      ∃ call ∈ plan.loader.questions path, ∃ text, call.Refused plan.loader text ∧
        fault = .unusablePath text := by
  rcases find_eq_error h with ⟨text, hidentity, rfl⟩ | ⟨identity, hidentity, hread⟩
  · exact Or.inr ⟨_, plan.loader.canonical_mem_questions path, text, hidentity, rfl⟩
  · have hasked : .read path ∈ plan.loader.questions path := by
      rw [Loader.questions_of_ok hidentity]
      simp
    unfold Plan.read at hread
    split at hread
    · cases hread
    · rename_i text place failed hfailure
      cases hread
      exact Or.inl ⟨text, place, failed, hasked, hfailure, rfl⟩
    · rename_i text hfailure
      cases hread
      exact Or.inr ⟨_, hasked, text, hfailure, rfl⟩

/-- A node can be added to a file under construction. -/
lemma Session.append_result {session : Session} (hopen : session.frames ≠ []) (node : Node) :
    (session.append node).2 = .ok () := by
  rw [append_eq_extend hopen]

namespace Moment

variable {loader : Loader} {session : Session} {tasks : List Task} {fault : Fault}

/-- A step that fails in a file under construction fails with what its item causes, or because the
item needs comment styles that there are not. -/
lemma causes_of_carried (hopen : session.frames ≠ []) {item : Item}
    (h : (carried loader session tasks item).result = .error fault) :
    item.Causes loader (carried loader session tasks item).session.calls fault ∨
      fault = .noStyles ∧ item.LacksStyles session.settings.styles session.fallback := by
  cases item with
  | text location content =>
    rw [carried, Session.keepText] at h
    cases hscan : session.scanStyles with
    | none =>
      rw [hscan] at h
      cases h
      obtain ⟨hstyles, hfallback⟩ := Option.or_eq_none_iff.1 hscan
      exact Or.inr ⟨rfl, .text location content hstyles hfallback⟩
    | some styles =>
      rw [hscan] at h
      simp only [Session.append_result hopen] at h
      cases h
  | comment location content =>
    rw [carried, Session.keepComment] at h
    cases hstyles : session.settings.styles with
    | none =>
      rw [hstyles] at h
      cases h
      exact Or.inr ⟨rfl, .comment location content rfl⟩
    | some styles =>
      rw [hstyles] at h
      simp only [Session.append_result hopen] at h
      cases h
  | request request =>
    left
    rw [carried] at h ⊢
    split at h
    · cases h
      exact .refused request _
    · rename_i hshallow
      rw [if_neg hshallow]
      have hways := Session.retrieves_retrieve loader request session
      generalize session.retrieve loader request = outcome at hways h
      cases hways with
      | skipped hmet => cases h
      | missing other hnew hfind =>
        cases h
        have hasked : loader.questions (session.resolve request.target) ⊆
            (session.enroll loader request).calls := by
          rw [Session.enroll_calls]
          exact List.subset_append_right _ _
        rcases Plan.cause_of_find hfind with ⟨text, place, failed, hread, hfailure, rfl⟩ |
          ⟨call, hcall, text, hrefused, rfl⟩
        · exact .unread request (hasked hread) hfailure
        · exact .unusable request (hasked hcall) hrefused
      | read identity source hnew hidentity hread => cases h
  | failure diagnostic =>
    cases h
    exact Or.inl (.failure diagnostic)

end Moment

namespace Run

variable {run : Run} {fault : Fault}

/-- At the given moment, a run carries out an item of the innermost file, which has the given name
and text, and there was no fault so far; after this step there is the given one. -/
def FailsAt (run : Run) (n : Nat) (name : String) (source : Text) (item : Item) (fault : Fault) :
    Prop :=
  ∃ session items tasks last,
    run.moment n = ⟨session, ⟨name, item :: items⟩ :: tasks, .ok last⟩ ∧
      run.SourceAt (tasks.length + 1) name source ∧
      item :: items <:+ run.dialect.items name source ∧
      (run.moment (n + 1)).result = .error fault

/-- A run that fails has not found its file, or has failed in one step, by what the item of this
step causes or for lack of comment styles. The induction is on the moments: a fault
that is not new was found before. -/
lemma exists_failsAt_of_error {n : Nat} (h : (run.moment n).result = .error fault) :
    (∃ path, run.input = .file path ∧
        (run.session.plan run.loader).find path (.start path) = .error fault) ∨
      ∃ k name source item, run.FailsAt k name source item fault ∧
        (item.Causes run.loader run.outcome.1.calls fault ∨
          fault = .noStyles ∧
            item.LacksStyles run.limits.styles run.context.active.styles) := by
  induction n with
  | zero =>
    have hstarts := run.starts_first
    have hfirst : run.first.result = .error fault := h
    generalize run.first = first at hstarts hfirst
    cases hstarts with
    | text name content hinput => cases hfirst
    | missing path other hinput hfind =>
      cases hfirst
      exact Or.inl ⟨path, hinput, hfind⟩
    | read path identity source hinput hidentity hread => cases hfirst
  | succ n ih =>
    have hafter := h
    have hsound := run.sound n
    rw [moment_succ] at h
    rcases hmoment : run.moment n with ⟨session, _ | ⟨⟨name, items⟩, tasks⟩, other | last⟩
    · apply ih
      rw [hmoment] at h ⊢
      exact h
    · rw [hmoment] at h
      cases h
    all_goals
      rw [hmoment] at hsound
      have hopen := hsound.frames_ne_nil (List.cons_ne_nil _ _)
    · apply ih
      rw [hmoment] at h ⊢
      rw [Moment.next, Moment.left_result_error hopen] at h
      exact h
    · rw [hmoment] at h
      rcases items with _ | ⟨item, items⟩
      · obtain ⟨node, hleft⟩ := Moment.left_result_ok hopen name tasks
        rw [Moment.next, hleft] at h
        cases h
      · have hsettings : session.settings = run.limits := hsound.settings_eq
        have hfallback : session.fallback = run.context.active.styles := hsound.fallback_eq
        have hcalls := run.calls_prefix_outcome (n + 1)
        rw [moment_succ, hmoment] at hcalls
        have hcauses := Moment.causes_of_carried hopen h
        rw [hsettings, hfallback] at hcauses
        cases hsound.traced with
        | cons source hsource hitems htail =>
          exact Or.inr ⟨n, name, source, item,
            ⟨session, items, tasks, last, hmoment, hsource, hitems, hafter⟩,
            hcauses.imp_left (·.mono hcalls)⟩

/-- A run with comment styles that fails has not found its file, or has failed in one step, by what
the item of this step causes. -/
lemma exists_failsAt (hstyles : run.limits.styles ≠ none) {n : Nat}
    (h : (run.moment n).result = .error fault) :
    (∃ path, run.input = .file path ∧
        (run.session.plan run.loader).find path (.start path) = .error fault) ∨
      ∃ k name source item, run.FailsAt k name source item fault ∧
        item.Causes run.loader run.outcome.1.calls fault := by
  rcases exists_failsAt_of_error h with hroot | ⟨k, name, source, item, hfails, hcauses | hlacks⟩
  · exact Or.inl hroot
  · exact Or.inr ⟨k, name, source, item, hfails, hcauses⟩
  · exact absurd hlacks.2.styles_eq hstyles

/-! ### Locations of the loader -/

/-- At a moment of a run, every file that was asked for, and of which the loader says itself where
the problem lies, is the reason for the fault. -/
def Believes (run : Run) (moment : Moment) : Prop :=
  ∀ path text place failed, .read path ∈ moment.session.calls →
    run.loader.read path = .error (.unreadable text (some place) failed) →
    moment.result = .error (.problem ⟨.load, text, some place, failed⟩)

/-- Without a fault, there was no such file so far; so only a step that asks for one matters. -/
lemma Believes.of_ok {session after : Session} {tasks others : List Task} {last : Option Node}
    {result : Except Fault (Option Node)} (h : run.Believes ⟨session, tasks, .ok last⟩)
    {asked : List Call} (hcalls : after.calls = session.calls ++ asked)
    (hasked : ∀ path text place failed, .read path ∈ asked →
      run.loader.read path = .error (.unreadable text (some place) failed) →
      result = .error (.problem ⟨.load, text, some place, failed⟩)) :
    run.Believes ⟨after, others, result⟩ := by
  intro path text place failed hmem hread
  have hafter : .read path ∈ session.calls ++ asked := hcalls ▸ hmem
  rcases List.mem_append.1 hafter with hbefore | hnow
  · cases h path text place failed hbefore hread
  · exact hasked path text place failed hnow hread

/-- A step without a fault before it that asks for no file. -/
lemma Believes.of_same {session after : Session} {tasks others : List Task} {last : Option Node}
    {result : Except Fault (Option Node)} (h : run.Believes ⟨session, tasks, .ok last⟩)
    (hcalls : after.calls = session.calls) : run.Believes ⟨after, others, result⟩ := by
  refine h.of_ok (hcalls.trans (List.append_nil _).symm) ?_
  intro path text place failed hnone
  cases hnone

/-- At the first moment, at most the file of the run was asked for. -/
lemma believes_first (run : Run) : run.Believes run.first := by
  intro path text place failed hmem hread
  have hstarts := run.starts_first
  generalize hfirst : run.first = first at hstarts hmem
  cases hstarts with
  | text name content hinput => cases hmem
  | missing other fault hinput hfind =>
    have hcalls := first_calls hinput
    rw [hfirst] at hcalls
    rw [hcalls] at hmem
    obtain ⟨rfl, identity, hidentity⟩ := Loader.eq_of_read_mem_questions hmem
    rw [Plan.find, Session.plan_loader, hidentity, Plan.read, Session.plan_loader, hread] at hfind
    cases hfind
    rfl
  | read other identity source hinput hidentity hsource =>
    have hcalls := first_calls hinput
    rw [hfirst] at hcalls
    rw [hcalls] at hmem
    obtain ⟨rfl, -⟩ := Loader.eq_of_read_mem_questions hmem
    rw [hread] at hsource
    cases hsource

/-- One step: only a request that is not skipped asks for a file, and a fault is handed on. -/
lemma Believes.next {moment : Moment} (hsound : run.Sound moment) (h : run.Believes moment) :
    run.Believes (moment.next run.loader) := by
  have hways := Moment.advances_next run.loader moment
  generalize moment.next run.loader = after at hways
  cases hways with
  | ended session result => exact h
  | abandon session task tasks fault =>
    have hopen := hsound.frames_ne_nil (List.cons_ne_nil task tasks)
    have hcalls := (Moment.leaves_left session task.name tasks (.error fault)).calls_eq
    intro path text place failed hmem hread
    rw [Moment.left_result_error hopen]
    rw [hcalls] at hmem
    exact h path text place failed hmem hread
  | finish session name tasks last =>
    exact h.of_same (Moment.leaves_left session name tasks (.ok ())).calls_eq
  | keep session name item items tasks last node hopen =>
    exact h.of_same rfl
  | fail session name item items tasks last fault hfault =>
    exact h.of_same rfl
  | refuse session name request items tasks last hdeep =>
    exact h.of_same rfl
  | skip session name request items tasks last hshallow hmet =>
    refine h.of_ok rfl ?_
    intro path text place failed hnone
    simp at hnone
  | missing session name request items tasks last fault hshallow hnew hfind =>
    refine h.of_ok (session.enroll_calls run.loader request) ?_
    intro path text place failed hmem hread
    obtain ⟨rfl, identity, hidentity⟩ := Loader.eq_of_read_mem_questions hmem
    rw [Plan.find, Session.plan_loader, hidentity, Plan.read, Session.plan_loader, hread] at hfind
    cases hfind
    rfl
  | enter session name request items tasks last identity source hshallow hnew hidentity hsource =>
    refine h.of_ok (session.enroll_calls run.loader request) ?_
    intro path text place failed hmem hread
    obtain ⟨rfl, -⟩ := Loader.eq_of_read_mem_questions hmem
    rw [hread] at hsource
    cases hsource

/-- A file that is asked for in a run, and of which the loader says itself where the problem lies,
is the reason for the fault of the run. -/
lemma outcome_of_located {path text : String} {place : Position} {failed : Option String}
    (hasked : .read path ∈ run.outcome.1.calls)
    (hread : run.loader.read path = .error (.unreadable text (some place) failed)) :
    run.outcome.2 = .error (.problem ⟨.load, text, some place, failed⟩) := by
  obtain ⟨last, hlast⟩ := run.exists_last
  have hbelieves : run.Believes (run.moment last) :=
    sound_induction run.believes_first (fun _ hsound h => h.next hsound) last
  have hcalls : .read path ∈ (run.moment last).session.calls := by
    rw [hlast]
    exact hasked
  exact (outcome_of_error (hbelieves path text place failed hcalls hread)).1

/-! ### Faults and their locations -/

/-- The fault of a run is located where it is found: at the start of the file of the run, if this
cannot be read, or else at an offset of the text of the innermost file. A fault that has to do with
a whole directive line, which is that files are nested too deep, that a file cannot be read or that
an error is asked for, stands at the trigger of this line. -/
inductive Located (run : Run) (diagnostic : Diagnostic) : Prop where
  /-- The file of the run cannot be read. -/
  | root (path : String) (hinput : run.input = .file path)
    (hread : run.loader.read path = .error (.unreadable diagnostic.text none diagnostic.path))
    (hkind : diagnostic.kind = .load) (hlocation : diagnostic.location = some (.start path))
  /-- An item of the innermost file cannot be carried out. -/
  | inside (n : Nat) (name : String) (source : Text) (item : Item) (offset : Nat)
    (hfails : run.FailsAt n name source item (.problem diagnostic))
    (hoffset : offset ≤ source.length)
    (hlocation : diagnostic.location = some (source.positionAt name offset))
    (htrigger : diagnostic.kind = .depth ∨ diagnostic.kind = .requested ∨ diagnostic.kind = .load →
      run.dialect.TriggersAt name source offset item)

/-- The items that are left of the innermost file when a run fails. -/
lemma FailsAt.suffix {n : Nat} {name : String} {source : Text} {item : Item}
    (h : run.FailsAt n name source item fault) :
    ∃ items, item :: items <:+ run.dialect.items name source := by
  obtain ⟨session, items, tasks, last, -, -, hitems, -⟩ := h
  exact ⟨items, hitems⟩

/-- A problem that a directive line states is located where it is found. -/
lemma located_of_failure {n : Nat} {name : String} {source : Text} {diagnostic : Diagnostic}
    (h : run.FailsAt n name source (.failure diagnostic) (.problem diagnostic)) :
    run.Located diagnostic := by
  obtain ⟨items, hitems⟩ := h.suffix
  have hmem := hitems.subset List.mem_cons_self
  by_cases hkind : diagnostic.kind = .requested
  · obtain ⟨offset, hoffset, htrigger, hlocation⟩ :=
      Dialect.exists_trigger_of_requested hmem hkind
    exact .inside n name source _ offset h hoffset hlocation (fun _ => htrigger)
  · obtain ⟨offset, hoffset, hlocation⟩ := Dialect.exists_offset_of_failure hmem
    refine .inside n name source _ offset h hoffset hlocation ?_
    intro hkinds
    rcases Item.kind_of_failure_mem hmem with hother | hother | hother
    all_goals simp [hother] at hkinds hkind

/-- A problem with a request that is put at the request is located where it is found. -/
lemma located_of_request {n : Nat} {name : String} {source : Text} {request : Request}
    {diagnostic : Diagnostic}
    (h : run.FailsAt n name source (.request request) (.problem diagnostic))
    (hlocation : diagnostic.location = some request.location) : run.Located diagnostic := by
  obtain ⟨items, hitems⟩ := h.suffix
  obtain ⟨offset, hoffset, htrigger, hposition⟩ := Dialect.exists_trigger_of_request hitems
  rw [hposition] at hlocation
  exact .inside n name source _ offset h hoffset hlocation (fun _ => htrigger)

end Run

/-- The loader does not say itself where a problem with a file lies. -/
def Loader.IsUnlocated (loader : Loader) : Prop :=
  ∀ path text place failed, loader.read path = .error (.unreadable text place failed) →
    place = none

namespace Run

/-- **Every fault is located where it is found.** Take a run with comment styles and a loader that
does not say itself where a problem lies. If the run fails, then its fault has a location, as
`Run.Located` says; the only other fault is that the loader has no use for a path, as it answers
when it is asked for the identity or for the content of the path. Whatever the loader is, a problem
that it locates itself keeps this location, at whatever depth the file is asked for. -/
theorem located_of_fault (run : Run) :
    (run.limits.styles ≠ none → run.loader.IsUnlocated →
      ∀ fault, run.outcome.2 = .error fault →
        (∃ diagnostic, fault = .problem diagnostic ∧ run.Located diagnostic) ∨
        ∃ call ∈ run.outcome.1.calls, ∃ text, call.Refused run.loader text ∧
          fault = .unusablePath text) ∧
    ∀ path text place failed, .read path ∈ run.outcome.1.calls →
      run.loader.read path = .error (.unreadable text (some place) failed) →
      run.outcome.2 = .error (.problem ⟨.load, text, some place, failed⟩) := by
  refine ⟨?_, fun _ _ _ _ hasked hread => outcome_of_located hasked hread⟩
  intro hstyles hunlocated fault houtcome
  obtain ⟨last, hresult⟩ := exists_error_of_outcome houtcome
  rcases exists_failsAt hstyles hresult with ⟨path, hinput, hfault⟩ |
    ⟨n, name, source, item, hfails, hcauses⟩
  · rcases Plan.cause_of_find hfault with ⟨text, place, failed, -, hread, rfl⟩ |
      ⟨call, hcall, text, hrefused, rfl⟩
    · obtain rfl : place = none := hunlocated path text place failed hread
      exact Or.inl ⟨_, rfl, .root path hinput hread rfl rfl⟩
    · have hcalls := run.calls_prefix_outcome 0
      have hfirst : (run.moment 0).session.calls = _ := first_calls hinput
      rw [hfirst] at hcalls
      exact Or.inr ⟨call, hcalls.subset hcall, text, hrefused, rfl⟩
  · cases hcauses with
    | failure diagnostic => exact Or.inl ⟨diagnostic, rfl, located_of_failure hfails⟩
    | refused request maxDepth => exact Or.inl ⟨_, rfl, located_of_request hfails rfl⟩
    | @unread request path text place failed hasked hread =>
      obtain rfl : place = none := hunlocated path text place failed hread
      exact Or.inl ⟨_, rfl, located_of_request hfails rfl⟩
    | @unusable request call text hasked hrefused =>
      exact Or.inr ⟨call, hasked, text, hrefused, rfl⟩

end Run

/-- The loader of a catalogue does not say where a problem lies. -/
lemma Catalogue.isUnlocated_loader (catalogue : Catalogue) : catalogue.loader.IsUnlocated := by
  intro path text place failed hread
  cases (read_eq_error_iff.1 hread).2
  rfl

/-- Neither does the loader of a disk. -/
lemma Disk.isUnlocated_loader (disk : Disk) (encoding : Encoding) (note : Trouble → String) :
    (disk.loader encoding note).IsUnlocated := by
  intro path text place failed hread
  have hdisk : disk.read encoding path = .error (.unreadable text place failed) := hread
  unfold Disk.read at hdisk
  split at hdisk
  · cases hdisk
  · split at hdisk
    · cases hdisk
      rfl
    · split at hdisk
      · cases hdisk
        rfl
      · cases hdisk

/-- A disk has no identity for a path that starts with a part with a null character. -/
lemma Disk.canonical_of_null (disk : Disk) (encoding : Encoding) (note : Trouble → String)
    {path : String} {part : Text} {rest : List Text}
    (hpieces : Path.pieces path.toList = part :: rest) (hnull : hasNull part = true) :
    (disk.loader encoding note).canonical path = .error Trouble.nullCharacter.message ∧
      (disk.loader encoding note).warnings path = [] := by
  have hstay : ¬ isStay part = true := by
    rw [isStay]
    rintro hstay
    rcases Bool.or_eq_true_iff.1 hstay with hpart | hpart
    all_goals
      rw [eq_of_beq hpart] at hnull
      cases hnull
  have hup : part ≠ Path.up := by
    rintro rfl
    cases hnull
  have hresolve : disk.resolve path = .error .nullCharacter := by
    rw [resolve, hpieces, resolveFrom, if_neg hstay, if_neg hup, if_pos hnull]
    rfl
  have hidentify : disk.identify note path = .error .nullCharacter := by
    rw [identify, hresolve]
  simp only [loader, hidentify, and_self]

/-- A file that asks, after blanks, for a file that asks, after blanks, for one that is not
there. -/
def Catalogue.broken : Catalogue :=
  ⟨[("m", "a\n #include \"x\"\n".toList), ("x", "b\n  #include \"gone\"\n".toList)]⟩

/-- A run of the first file of this catalogue, with a loader made of it. -/
def Run.ofBroken (loader : Loader → Loader) : Run :=
  ⟨.initial, none, loader Catalogue.broken.loader, .file "m"⟩

namespace Run

/-- The fault is located at the trigger of the inner directive line. A loader that says itself where
the problem lies is believed. -/
theorem located_of_fault_broken :
    (ofBroken id).limits.styles ≠ none ∧ (ofBroken id).loader.IsUnlocated ∧
    (ofBroken id).outcome.2 =
      .error (.problem ⟨.load, "cannot read gone: no such file", some ⟨"x", 2, 3⟩, some "gone"⟩) ∧
    (ofBroken id).Located
      ⟨.load, "cannot read gone: no such file", some ⟨"x", 2, 3⟩, some "gone"⟩ ∧
    (ofBroken (Loader.withFailures · [("gone", .unreadable "locked" (some ⟨"disk", 7, 8⟩)
        none)])).outcome.2 =
      .error (.problem ⟨.load, "locked", some ⟨"disk", 7, 8⟩, none⟩) := by
  have hstyles : (ofBroken id).limits.styles ≠ none := by decide
  have hunlocated : (ofBroken id).loader.IsUnlocated := Catalogue.broken.isUnlocated_loader
  have houtcome : (ofBroken id).outcome.2 =
      .error (.problem ⟨.load, "cannot read gone: no such file", some ⟨"x", 2, 3⟩,
        some "gone"⟩) := by
    decide +kernel
  refine ⟨hstyles, hunlocated, houtcome, ?_, ?_⟩
  · rcases (located_of_fault (ofBroken id)).1 hstyles hunlocated _ houtcome with
      ⟨diagnostic, hfault, hlocated⟩ | ⟨call, -, text, -, hfault⟩
    · cases hfault
      exact hlocated
    · cases hfault
  · exact (located_of_fault (ofBroken _)).2 "gone" "locked" ⟨"disk", 7, 8⟩ none
      (by decide +kernel) rfl

/-- A run of a text that asks for a path with a null character, with the given loader. -/
def ofNull (loader : Loader) : Run :=
  ⟨.initial, none, loader, .text "m" "#include \"a\x00b\"\n".toList⟩

/-- Such a run of a disk fails without a location, when it asks for the identity of the path. -/
theorem unlocated_of_null :
    ∃ run : Run, run.limits.styles ≠ none ∧ run.loader.IsUnlocated ∧
      run.input = .text "m" "#include \"a\x00b\"\n".toList ∧
      run.outcome.1.calls = [.canonical "a\x00b"] ∧
      run.outcome.2 = .error (.unusablePath "embedded null byte") := by
  set refusing : Loader := ⟨fun _ => .ok [], fun _ => .error "embedded null byte", fun _ => []⟩
    with hrefusing
  set disk := Disk.loader ⟨[], []⟩ .utf8 Disk.Trouble.message with hdisk
  have hcalls : (ofNull refusing).outcome.1.calls = [.canonical "a\x00b"] := by decide +kernel
  have hagrees : refusing.AgreesOn disk (ofNull refusing).outcome.1.calls := by
    rw [hcalls]
    intro call hcall
    obtain rfl := List.mem_singleton.1 hcall
    exact Disk.canonical_of_null ⟨[], []⟩ .utf8 Disk.Trouble.message
      (by decide : Path.pieces "a\x00b".toList = ["a\x00b".toList]) (by decide)
  have houtcome : (ofNull disk).outcome = (ofNull refusing).outcome := outcome_congr hagrees
  refine ⟨ofNull disk, by decide, Disk.isUnlocated_loader _ _ _, rfl, ?_, ?_⟩
  · rw [houtcome, hcalls]
  · rw [houtcome]
    decide +kernel

end Run

end Splice

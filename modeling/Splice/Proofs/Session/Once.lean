import Splice.Proofs.Session.Moment

/-!
# Requests for one time only

The identities that were met are one list for all files of a run. A request for one time only gets
past the check of this list at most once for each identity (`Run.AdmitsAt`), because it enters the
identity before the file is read, and nothing is ever taken off the list. A later request for the
same identity asks the loader for the identity and does nothing else. Other requests do not look at
the list, and do not change it.
-/

namespace Splice

namespace Session

/-- The session with other identities that were met. -/
def withVisited (session : Session) (visited : List String) : Session :=
  { session with visited := visited }

/-- A request for one time only is answered by no node if the identity of its file was met. -/
lemma serve_of_hasMet {session : Session} {loader : Loader} {request : Request}
    (hshallow : session.depth < session.settings.maxDepth)
    (hmet : session.HasMet loader request) :
    session.serve loader request = (session.skip loader request, .ok none) := by
  obtain ⟨room, hroom⟩ : ∃ room, session.room = room + 1 := by
    refine ⟨session.room - 1, ?_⟩
    unfold room
    omega
  rw [serve, hroom, serveWithin_succ_eq, retrieve_of_hasMet hmet]
  rfl

/-- A request that is not for one time only has its file retrieved in the same way, whatever
identities were met. -/
lemma retrieve_withVisited {request : Request} (hplain : request.once = false)
    (session : Session) (loader : Loader) (visited : List String) :
    (session.withVisited visited).retrieve loader request =
      ((session.retrieve loader request).1.withVisited visited,
        (session.retrieve loader request).2) := by
  have hnew : ¬ session.HasMet loader request := by simp [HasMet, hplain]
  have hnew' : ¬ (session.withVisited visited).HasMet loader request := by simp [HasMet, hplain]
  have hresolve : (session.withVisited visited).resolve request.target =
      session.resolve request.target := rfl
  have henroll : (session.withVisited visited).enroll loader request =
      (session.enroll loader request).withVisited visited := by
    rw [enroll, enroll, hresolve, hplain, Ledger.enroll, Ledger.enroll]
    cases loader.canonical (session.resolve request.target) <;> rfl
  rw [retrieve_of_not_hasMet hnew, retrieve_of_not_hasMet hnew', henroll]
  rfl

end Session

namespace Moment

/-- The moment with other identities that were met. -/
def withVisited (moment : Moment) (visited : List String) : Moment :=
  { moment with session := moment.session.withVisited visited }

/-- One step only adds identities. -/
lemma visited_prefix_next (loader : Loader) (moment : Moment) :
    moment.session.visited <+: (moment.next loader).session.visited := by
  have hways := advances_next loader moment
  generalize moment.next loader = after at hways
  cases hways with
  | ended session result => exact List.prefix_rfl
  | abandon session task tasks fault =>
    have hsame := (leaves_left session task.name tasks (.error fault)).visited_eq
    exact ⟨[], (List.append_nil _).trans hsame.symm⟩
  | finish session name tasks last =>
    have hsame := (leaves_left session name tasks (.ok ())).visited_eq
    exact ⟨[], (List.append_nil _).trans hsame.symm⟩
  | keep session name item items tasks last node hopen => exact List.prefix_rfl
  | fail session name item items tasks last fault hfault => exact List.prefix_rfl
  | refuse session name request items tasks last hdeep => exact List.prefix_rfl
  | skip session name request items tasks last hshallow hmet => exact List.prefix_rfl
  | missing session name request items tasks last fault hshallow hnew hfind =>
    exact session.visited_prefix_enroll loader request
  | enter session name request items tasks last identity source hshallow hnew hidentity hread =>
    exact session.visited_prefix_enroll loader request

/-- A request for one time only gets past the check: it is carried out above the greatest depth, its
file has an identity, and this was not met. -/
def Admits (loader : Loader) (moment : Moment) (identity : String) : Prop :=
  ∃ request, moment.request? = some request ∧ request.once = true ∧
    moment.session.depth < moment.session.settings.maxDepth ∧
    moment.session.identityOf loader request = .ok identity ∧ identity ∉ moment.session.visited

/-- The step reads a file. -/
def Reads (loader : Loader) (moment : Moment) : Prop :=
  ∃ asked path, (moment.next loader).session.calls = moment.session.calls ++ asked ∧
    .read path ∈ asked

/-- A request for one time only that gets past the check enters the identity of its file. -/
lemma Admits.mem_visited_next {loader : Loader} {moment : Moment} {identity : String}
    (h : moment.Admits loader identity) : identity ∈ (moment.next loader).session.visited := by
  obtain ⟨request, hrequest, honce, hshallow, hidentity, hfresh⟩ := h
  obtain ⟨session, name, items, tasks, last, rfl⟩ := request?_eq_some hrequest
  have hnew : ¬ session.HasMet loader request := Session.not_hasMet_of_fresh hidentity hfresh
  rw [(session_next_of_not_hasMet hshallow hnew).2, Session.enroll_visited _ _ _ hidentity hnew,
    if_pos honce]
  exact List.mem_append_right _ List.mem_cons_self

/-- A request for one time only has a file read exactly if it gets past the check, for the identity
of its file. -/
lemma reads_iff_admits {loader : Loader} {moment : Moment} {request : Request}
    (hrequest : moment.request? = some request) (honce : request.once = true) :
    moment.Reads loader ↔ ∃ identity, moment.session.identityOf loader request = .ok identity ∧
      moment.Admits loader identity := by
  obtain ⟨session, name, items, tasks, last, rfl⟩ := request?_eq_some hrequest
  constructor
  · rintro ⟨asked, path, hcalls, hpath⟩
    by_cases hdeep : (session.settings.maxDepth : Int) ≤ session.depth
    · rw [next_of_deep hdeep] at hcalls
      have hnone : asked = [] := List.append_right_eq_self.1 hcalls.symm
      rw [hnone] at hpath
      cases hpath
    · by_cases hmet : session.HasMet loader request
      · rw [next_of_hasMet (by omega) hmet] at hcalls
        have hone : asked = [.canonical (session.resolve request.target)] :=
          (List.append_cancel_left hcalls).symm
        rw [hone] at hpath
        simp at hpath
      · rw [(session_next_of_not_hasMet (by omega) hmet).1, Session.enroll_calls] at hcalls
        obtain rfl := List.append_cancel_left hcalls
        obtain ⟨-, identity, hidentity⟩ := Loader.eq_of_read_mem_questions hpath
        exact ⟨identity, hidentity, request, hrequest, honce, by simpa using hdeep, hidentity,
          fun hmem => hmet ⟨honce, identity, hmem, hidentity⟩⟩
  · rintro ⟨identity, hidentity, other, hother, -, hshallow, -, hfresh⟩
    have hnew : ¬ session.HasMet loader request := Session.not_hasMet_of_fresh hidentity hfresh
    refine ⟨loader.questions (session.resolve request.target),
      session.resolve request.target, ?_, ?_⟩
    · rw [(session_next_of_not_hasMet hshallow hnew).1, Session.enroll_calls]
    · rw [Loader.questions_of_ok hidentity]
      simp

/-- A request that is not for one time only is carried out in the same way whatever identities were
met, and leaves them as they are. -/
lemma next_withVisited {loader : Loader} {moment : Moment} {request : Request}
    (hrequest : moment.request? = some request) (hplain : request.once = false)
    (visited : List String) :
    (moment.withVisited visited).next loader = (moment.next loader).withVisited visited := by
  obtain ⟨session, name, items, tasks, last, rfl⟩ := request?_eq_some hrequest
  have hretrieve := session.retrieve_withVisited hplain loader visited
  have hmoment : withVisited ⟨session, ⟨name, .request request :: items⟩ :: tasks, .ok last⟩
      visited = ⟨session.withVisited visited, ⟨name, .request request :: items⟩ :: tasks,
        .ok last⟩ := rfl
  rw [hmoment]
  by_cases hdeep : (session.settings.maxDepth : Int) ≤ session.depth
  · have hdeep' : ((session.withVisited visited).settings.maxDepth : Int) ≤
        (session.withVisited visited).depth := hdeep
    rw [next_of_deep hdeep, next_of_deep hdeep']
    rfl
  · have hdeep' : ¬ ((session.withVisited visited).settings.maxDepth : Int) ≤
        (session.withVisited visited).depth := hdeep
    rw [next, next, carried, carried, if_neg hdeep, if_neg hdeep', hretrieve]
    rcases session.retrieve loader request with ⟨after, fault | _ | file⟩ <;> rfl

end Moment

namespace Run

/-- At the given moment of a run, a request for one time only gets past the check for the given
identity. -/
def AdmitsAt (run : Run) (n : Nat) (identity : String) : Prop :=
  (run.moment n).Admits run.loader identity

/-- Identities that were met stay met. -/
lemma visited_subset (run : Run) {i j : Nat} (h : i ≤ j) :
    (run.moment i).session.visited ⊆ (run.moment j).session.visited := by
  induction h with
  | refl => exact List.Subset.refl _
  | @step j _ ih =>
    rw [moment_succ]
    exact List.Subset.trans ih ((run.moment j).visited_prefix_next run.loader).subset

/-- No request for one time only gets past the check for an identity that was met. -/
lemma not_admitsAt_of_mem {run : Run} {i j : Nat} {identity : String}
    (hmem : identity ∈ (run.moment i).session.visited) (h : i ≤ j) :
    ¬ run.AdmitsAt j identity := by
  rintro ⟨request, -, -, -, -, hfresh⟩
  exact hfresh (run.visited_subset h hmem)

/-- After a request for one time only got past the check, no later one does for the same
identity. -/
lemma not_admitsAt_of_lt {run : Run} {i j : Nat} {identity : String}
    (hadmits : run.AdmitsAt i identity) (h : i < j) : ¬ run.AdmitsAt j identity := by
  have hmem := Moment.Admits.mem_visited_next hadmits
  rw [← moment_succ] at hmem
  exact not_admitsAt_of_mem hmem h

/-- The file of a run counts as met from the start. -/
lemma mem_visited_first {run : Run} {path identity : String} (hinput : run.input = .file path)
    (hidentity : run.loader.canonical path = .ok identity) :
    identity ∈ run.first.session.visited := by
  have hmem := Session.canonical_mem_enrollRoot hidentity run.session
  have hstarts := run.starts_first
  generalize run.first = first at hstarts
  cases hstarts with
  | text name content hother =>
    rw [hinput] at hother
    cases hother
  | missing other fault hother hfind =>
    rw [hinput] at hother
    cases hother
    exact hmem
  | read other found source hother hfound hread =>
    rw [hinput] at hother
    cases hother
    exact hmem

/-- **Files are spliced in at most once by requests for one time only.** The moments of a run end
with its outcome, and throughout them, whether the run succeeds or fails:

* no two requests for one time only get past the check for the same identity, and none does for the
  identity of the file that is run itself; and only such a request has its file read;
* a request for one time only that is carried out above the greatest depth, for an identity that was
  met, is skipped without a node, here and in every session that is given such a request;
* any other request is carried out in the same way whatever identities were met, and leaves them as
  they are. -/
theorem spliced_at_most_once (run : Run) :
    (∃ n, run.moment n = ⟨run.outcome.1, [], run.outcome.2.map some⟩) ∧
    (∀ identity i j, run.AdmitsAt i identity → run.AdmitsAt j identity → i = j) ∧
    (∀ path identity, run.input = .file path → run.loader.canonical path = .ok identity →
      ∀ n, ¬ run.AdmitsAt n identity) ∧
    (∀ n request, (run.moment n).request? = some request → request.once = true →
      ((run.moment n).Reads run.loader ↔
        ∃ identity, (run.moment n).session.identityOf run.loader request = .ok identity ∧
          run.AdmitsAt n identity)) ∧
    (∀ n request, (run.moment n).request? = some request →
      (run.moment n).session.HasMet run.loader request →
      (run.moment n).session.depth < (run.moment n).session.settings.maxDepth →
      (run.moment (n + 1)).session = (run.moment n).session.skip run.loader request ∧
        (run.moment (n + 1)).result = .ok none) ∧
    (∀ (session : Session) request, session.HasMet run.loader request →
      session.depth < session.settings.maxDepth →
      session.serve run.loader request = (session.skip run.loader request, .ok none)) ∧
    (∀ n request, (run.moment n).request? = some request → request.once = false →
      ∀ visited, ((run.moment n).withVisited visited).next run.loader =
        (run.moment (n + 1)).withVisited visited) := by
  refine ⟨run.exists_last, ?_, ?_, ?_, ?_, ?_, ?_⟩
  · intro identity i j hi hj
    rcases Nat.lt_trichotomy i j with hlt | heq | hgt
    · exact absurd hj (not_admitsAt_of_lt hi hlt)
    · exact heq
    · exact absurd hi (not_admitsAt_of_lt hj hgt)
  · intro path identity hinput hidentity n
    have hmem : identity ∈ (run.moment 0).session.visited := mem_visited_first hinput hidentity
    exact not_admitsAt_of_mem hmem (Nat.zero_le n)
  · intro n request hrequest honce
    exact Moment.reads_iff_admits hrequest honce
  · intro n request hrequest hmet hshallow
    obtain ⟨session, name, items, tasks, last, hmoment⟩ := Moment.request?_eq_some hrequest
    rw [hmoment] at hmet hshallow
    rw [moment_succ, hmoment, Moment.next_of_hasMet hshallow hmet]
    exact ⟨rfl, rfl⟩
  · intro session request hmet hshallow
    exact Session.serve_of_hasMet hshallow hmet
  · intro n request hrequest hplain visited
    rw [moment_succ]
    exact Moment.next_withVisited hrequest hplain visited

/-- A run of a file that asks for another one three times, the second time with no condition and the
third time under another spelling, and then for itself. -/
def repeating : Run where
  context := .initial
  settings := none
  loader := Catalogue.loader
    ⟨[("m", "#require \"x\"\n#include \"x\"\n#require \"./x\"\n#require \"m\"\n".toList),
      ("x", "p\n".toList)]⟩
  input := .file "m"

/-- Of the requests of such a file, the first gets past the check and no other one for one time only
does; the third one is skipped. -/
theorem spliced_at_most_once_repeating :
    repeating.AdmitsAt 0 "x" ∧ (∀ n, repeating.AdmitsAt n "x" → n = 0) ∧
      (∀ n, ¬ repeating.AdmitsAt n "m") ∧
      (repeating.moment 6).request? = some ⟨"./x", ⟨"m", 3, 1⟩, true⟩ ∧
      (repeating.moment 7).session.calls =
        (repeating.moment 6).session.calls ++ [.canonical "x"] ∧
      repeating.outcome.2.toOption.map Node.render = some "p\np\n".toList := by
  obtain ⟨-, hunique, hroot, -, hskip, -, -⟩ := spliced_at_most_once repeating
  have hadmits : repeating.AdmitsAt 0 "x" :=
    ⟨⟨"x", ⟨"m", 1, 1⟩, true⟩, by decide +kernel, rfl, by decide +kernel, by decide +kernel,
      by decide +kernel⟩
  have hrequest : (repeating.moment 6).request? = some ⟨"./x", ⟨"m", 3, 1⟩, true⟩ := by
    decide +kernel
  have hmet : (repeating.moment 6).session.HasMet repeating.loader ⟨"./x", ⟨"m", 3, 1⟩, true⟩ :=
    ⟨rfl, by decide +kernel⟩
  have hcanonical : repeating.loader.canonical "m" = .ok "m" := by decide +kernel
  have hname : (repeating.moment 6).session.resolve "./x" = "x" := by decide +kernel
  have hskipped := (hskip 6 _ hrequest hmet (by decide +kernel)).1
  refine ⟨hadmits, ?_, ?_, hrequest, ?_, by decide +kernel⟩
  · intro n hn
    exact hunique "x" n 0 hn hadmits
  · intro n hn
    exact hroot "m" "m" rfl hcanonical n hn
  · rw [hskipped, Session.skip, hname]

end Run

end Splice

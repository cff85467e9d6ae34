import Splice.Proofs.Session.Invariant

/-!
# The nesting of files is bounded

No more files are being run at once than the settings allow, so that no output tree has more files
nested in one another (`Plan.height_of_expand`). A run fails because files are nested too deep
exactly if it comes to a request in a file that is nested as deep as allowed: the request is refused
before anything is asked of the loader, whatever it asks for, and all other faults are of other
kinds (`Run.exists_refused`).
-/

namespace Splice

namespace Node

mutual

/-- How many files are nested in one another, the node included if it is a file. -/
def height : Node → Nat
  | text .. => 0
  | comment .. => 0
  | file _ _ _ children => heightAll children + 1

/-- How many files are nested in one another in nodes in a row. -/
def heightAll : List Node → Nat
  | [] => 0
  | node :: nodes => max node.height (heightAll nodes)

end

/-- Nodes in a row are as high as the highest of them. -/
lemma heightAll_le {nodes : List Node} {bound : Nat} (h : ∀ node ∈ nodes, node.height ≤ bound) :
    heightAll nodes ≤ bound := by
  induction nodes with
  | nil => exact Nat.zero_le bound
  | cons node nodes ih =>
    have hnode := h node List.mem_cons_self
    have hnodes := ih fun other hother => h other (List.mem_cons_of_mem _ hother)
    exact Nat.max_le.2 ⟨hnode, hnodes⟩

end Node

namespace Plan

variable {plan : Plan}

/-- The children that are collected from the items of a file are at most as high as those that
requests are answered by. The induction is on the items. -/
lemma height_of_collect {answer : Request → Ledger → Expansion (Option Node)} {bound : Nat}
    (hanswer : ∀ request ledger after node, answer request ledger = (after, .ok (some node)) →
      node.height ≤ bound)
    {items : List Item} {ledger after : Ledger} {nodes : List Node}
    (h : plan.collect answer items ledger = (after, .ok nodes)) :
    ∀ node ∈ nodes, node.height ≤ bound := by
  induction items generalizing ledger nodes with
  | nil =>
    cases h
    simp
  | cons item items ih =>
    obtain ⟨between, first, rest, hstep, hrest, rfl⟩ := collect_cons_eq_ok h
    intro node hnode
    rcases List.mem_append.1 hnode with hnode | hnode
    · cases item with
      | text location content =>
        obtain ⟨-, rfl⟩ := step_text_eq_ok hstep
        rw [List.mem_singleton.1 hnode]
        exact Nat.zero_le bound
      | comment location content =>
        obtain ⟨-, styles, -, rfl⟩ := step_comment_eq_ok hstep
        rw [List.mem_singleton.1 hnode]
        exact Nat.zero_le bound
      | request request =>
        obtain ⟨node?, hnode?, rfl⟩ := step_request_eq_ok hstep
        obtain rfl := Option.mem_toList.1 hnode
        exact hanswer request ledger between node hnode?
      | failure diagnostic => cases hstep
    · exact ih hrest node hnode

/-- A file that was expanded is no higher than the levels from its own to the greatest. The
induction is on how many levels there may still be below the file. -/
lemma height_of_expand {depth : Int} {name path : String} {location : Position} {source : Text}
    {ledger after : Ledger} {root : Node}
    (h : plan.expand depth name path location source ledger = (after, .ok root)) :
    root.height ≤ (plan.settings.maxDepth - depth).toNat + 1 := by
  generalize hroom : (plan.settings.maxDepth - depth).toNat = room
  induction room using Nat.strong_induction_on
    generalizing depth name path location source ledger after root with
  | _ room ih =>
    obtain ⟨final, children, hcollect, -, rfl⟩ := expand_eq_ok h
    refine Nat.succ_le_succ (Node.heightAll_le (height_of_collect ?_ hcollect))
    intro request before between node hanswer
    obtain ⟨hdepth, ⟨-, -, -, hnone⟩ | ⟨identity, text, inner, -, -, -, hexpand, hsome⟩⟩ :=
      answer_eq_ok hanswer
    · cases hnone
    · cases hsome
      have hinner := ih _ (by omega) hexpand rfl
      omega

end Plan

/-! ### Faults about the nesting of files -/

/-- Whether a fault is that files are nested too deep. -/
def Fault.isTooDeep : Fault → Bool
  | .problem diagnostic => diagnostic.kind = .depth
  | _ => false

/-- That a file is not found is another fault. -/
lemma Plan.isTooDeep_of_find {plan : Plan} {path : String} {location : Position} {fault : Fault}
    (h : plan.find path location = .error fault) : fault.isTooDeep = false := by
  rcases find_eq_error h with ⟨text, -, rfl⟩ | ⟨identity, -, hread⟩
  · rfl
  · unfold Plan.read at hread
    split at hread
    · cases hread
    · cases hread
      rfl
    · cases hread
      rfl

/-- So is what is wrong with a directive line, or asked for by one. -/
lemma Dialect.isTooDeep_of_failure_mem {dialect : Dialect} {name : String} {source : Text}
    {diagnostic : Diagnostic} (h : .failure diagnostic ∈ dialect.items name source) :
    (Fault.problem diagnostic).isTooDeep = false := by
  rcases Item.kind_of_failure_mem h with hkind | hkind | hkind <;> simp [Fault.isTooDeep, hkind]

namespace Run

/-- At the given moment of a run, a request is carried out in a file that is nested as deep as the
level says. -/
def MeetsAt (run : Run) (n level : Nat) (request : Request) : Prop :=
  (run.moment n).request? = some request ∧ (run.moment n).tasks.length = level

/-- At the given moment, a run comes to a directive line with the given tokens: the innermost file,
nested as deep as the level says, was run up to this line, and there was no fault. -/
def ReachesLine (run : Run) (n level : Nat) (name : String) (tokens : List Token) : Prop :=
  ∃ source before place content after outer last,
    run.SourceAt level name source ∧
    (run.dialect.scan source).segments = before ++ .directive place content tokens :: after ∧
    (run.moment n).tasks =
      ⟨name, Item.ofSegments name (Item.ofTokens name (run.dialect.scan source).ending.tokens)
        (.directive place content tokens :: after)⟩ :: outer ∧
    outer.length + 1 = level ∧ (run.moment n).result = .ok last

/-- A request is carried out exactly if the run comes to a directive line that makes it. -/
lemma meetsAt_iff {run : Run} {n level : Nat} {request : Request} :
    run.MeetsAt n level request ↔ ∃ name tokens, run.ReachesLine n level name tokens ∧
      Request.ofLine? name tokens = some request := by
  constructor
  · rintro ⟨hrequest, rfl⟩
    have htraced := (run.sound n).traced
    obtain ⟨session, name, items, outer, last, hmoment⟩ := Moment.request?_eq_some hrequest
    rw [hmoment] at htraced
    cases htraced with
    | cons source hsource hitems htail =>
      have hnext : .request request :: items <:+ run.dialect.items name source := hitems
      obtain ⟨before, place, content, tokens, after, hsegments, hline, rfl⟩ :=
        Dialect.exists_line_of_suffix_items hnext
      refine ⟨name, tokens, ⟨source, before, place, content, after, outer, last, ?_, hsegments,
        ?_, ?_, ?_⟩, hline⟩
      · rw [hmoment]
        exact hsource
      · rw [hmoment, Item.ofSegments, hline]
      · rw [hmoment]
        rfl
      · rw [hmoment]
  · rintro ⟨name, tokens, ⟨source, before, place, content, after, outer, last, -, -, htasks, rfl,
      hresult⟩, hline⟩
    rw [Item.ofSegments, hline] at htasks
    unfold MeetsAt
    generalize run.moment n = moment at htasks hresult
    obtain ⟨session, tasks, result⟩ := moment
    obtain rfl := htasks
    obtain rfl := hresult
    exact ⟨rfl, rfl⟩

/-- A request in a file that is nested as deep as allowed is refused, and the loader is asked for
nothing. -/
lemma refused_of_meetsAt {run : Run} {n : Nat} {request : Request}
    (h : run.MeetsAt n run.limits.maxDepth request) :
    (run.moment (n + 1)).result =
        .error (.problem (.tooDeep run.limits.maxDepth request.location)) ∧
      (run.moment (n + 1)).session.calls = (run.moment n).session.calls := by
  obtain ⟨hrequest, hlevel⟩ := h
  have hsound := run.sound n
  obtain ⟨session, name, items, tasks, last, hmoment⟩ := Moment.request?_eq_some hrequest
  rw [moment_succ]
  rw [hmoment] at hsound hlevel ⊢
  have hsettings : session.settings = run.limits := hsound.settings_eq
  have hdepth : session.depth = session.settings.maxDepth := by
    rw [hsettings, hsound.depth_eq, hlevel]
  rw [Moment.next_of_deep (Int.le_of_eq hdepth.symm), hsettings]
  exact ⟨rfl, rfl⟩

/-- A fault that an item states is not about the nesting of files. -/
lemma isTooDeep_of_fail {run : Run} {session : Session} {name : String} {item : Item}
    {items : List Item} {tasks : List Task} {last : Except Fault (Option Node)} {fault : Fault}
    (h : run.Sound ⟨session, ⟨name, item :: items⟩ :: tasks, last⟩)
    (hfault : ∀ diagnostic, fault = .problem diagnostic → item = .failure diagnostic) :
    fault.isTooDeep = false := by
  cases fault with
  | problem diagnostic =>
    cases h.traced with
    | cons source hsource hitems htail =>
      obtain rfl := hfault diagnostic rfl
      have hmem : .failure diagnostic ∈ run.dialect.items name source :=
        hitems.subset List.mem_cons_self
      exact Dialect.isTooDeep_of_failure_mem hmem
  | _ => rfl

/-- The first moment of a run has no fault about the nesting of files. -/
lemma isTooDeep_of_first {run : Run} {fault : Fault} (h : run.first.result = .error fault) :
    fault.isTooDeep = false := by
  have hstarts := run.starts_first
  generalize run.first = first at h hstarts
  cases hstarts with
  | text name content hinput => cases h
  | missing path other hinput hfind =>
    cases h
    exact Plan.isTooDeep_of_find hfind
  | read path identity source hinput hidentity hread => cases h

/-- A fault about the nesting of files comes from a request that was refused. The induction is on
the moments: at each step the fault is there already, or it is another one, or a request is
refused. -/
lemma exists_refused {run : Run} {n : Nat} {fault : Fault}
    (h : (run.moment n).result = .error fault) (hdeep : fault.isTooDeep = true) :
    ∃ k request, run.MeetsAt k run.limits.maxDepth request := by
  induction n with
  | zero =>
    rw [isTooDeep_of_first h] at hdeep
    cases hdeep
  | succ n ih =>
    have hsound := run.sound n
    have hways := Moment.advances_next run.loader (run.moment n)
    rw [← moment_succ] at hways
    generalize hmoment : run.moment n = moment at hsound hways
    generalize run.moment (n + 1) = after at h hways
    cases hways with
    | ended session result =>
      refine ih ?_
      rw [hmoment]
      exact h
    | abandon session task tasks other =>
      have hopen := hsound.frames_ne_nil (List.cons_ne_nil task tasks)
      rw [Moment.left_result_error hopen] at h
      refine ih ?_
      rw [hmoment]
      exact h
    | finish session name tasks last =>
      have hopen := hsound.frames_ne_nil (List.cons_ne_nil _ tasks)
      obtain ⟨node, hnode⟩ := Moment.left_result_ok hopen name tasks
      rw [hnode] at h
      cases h
    | keep session name item items tasks last node hopen => cases h
    | fail session name item items tasks last other hfault =>
      cases h
      rw [isTooDeep_of_fail hsound hfault] at hdeep
      cases hdeep
    | refuse session name request items tasks last hmax =>
      refine ⟨n, request, ?_, ?_⟩
      · rw [hmoment]
        rfl
      · have hlength := hsound.length_le
        have hsettings : session.settings = run.limits := hsound.settings_eq
        have hdepth : session.depth = ((⟨name, .request request :: items⟩ :: tasks :
            List Task).length : Int) := hsound.depth_eq
        rw [hsettings, hdepth] at hmax
        rw [hmoment]
        exact Nat.le_antisymm hlength (Int.ofNat_le.1 hmax)
    | skip session name request items tasks last hshallow hmet => cases h
    | missing session name request items tasks last other hshallow hnew hfind =>
      cases h
      rw [Plan.isTooDeep_of_find hfind] at hdeep
      cases hdeep
    | enter session name request items tasks last identity source hshallow hnew hidentity hread =>
      cases h

/-- The tree of a run is the expansion of what the run is given. -/
lemma height_of_outcome {run : Run} {root : Node} (h : run.outcome.2 = .ok root) :
    root.height ≤ run.limits.maxDepth := by
  have hpositive : 1 ≤ run.limits.maxDepth := run.limits.maxDepth_pos
  have hbound : ((run.limits.maxDepth : Int) - 1).toNat + 1 = run.limits.maxDepth := by omega
  rw [← hbound]
  unfold outcome at h
  split at h
  · rw [runText_eq_expand] at h
    exact Plan.height_of_expand (Prod.ext rfl h)
  · rw [runFile_eq_expandRoot, Session.conclude, Plan.expandRoot] at h
    dsimp only at h
    split at h
    · cases h
    · exact Plan.height_of_expand (Prod.ext rfl h)

/-- **The nesting of files is bounded.** The moments of a run end with its outcome, and while files
are being run, the depth of the session is their number, at least one and at most the greatest depth
of the settings. The tree of a run has no more files nested in one another than that. A run fails
because files are nested too deep exactly if it comes to a directive line that makes a request, in a
file that is nested as deep as allowed; then the fault has the location of the trigger of this line,
and nothing more was asked of the loader. -/
theorem nesting_bounded (run : Run) :
    (∃ n, run.moment n = ⟨run.outcome.1, [], run.outcome.2.map some⟩) ∧
    (∀ n, (run.moment n).tasks ≠ [] →
      (run.moment n).session.depth = (run.moment n).tasks.length ∧
        1 ≤ (run.moment n).session.depth ∧
        (run.moment n).session.depth ≤ run.limits.maxDepth) ∧
    (∀ root, run.outcome.2 = .ok root → root.height ≤ run.limits.maxDepth) ∧
    ((∃ fault, run.outcome.2 = .error fault ∧ fault.isTooDeep = true) ↔
      ∃ n name tokens request, run.ReachesLine n run.limits.maxDepth name tokens ∧
        Request.ofLine? name tokens = some request) ∧
    (∀ n name tokens request, run.ReachesLine n run.limits.maxDepth name tokens →
      Request.ofLine? name tokens = some request →
      run.outcome.2 = .error (.problem (.tooDeep run.limits.maxDepth request.location)) ∧
        run.outcome.1.calls = (run.moment n).session.calls) := by
  have hrefused : ∀ n name tokens request, run.ReachesLine n run.limits.maxDepth name tokens →
      Request.ofLine? name tokens = some request →
      run.outcome.2 = .error (.problem (.tooDeep run.limits.maxDepth request.location)) ∧
        run.outcome.1.calls = (run.moment n).session.calls := by
    intro n name tokens request hreaches hline
    have hmeets := meetsAt_iff.2 ⟨name, tokens, hreaches, hline⟩
    obtain ⟨hresult, hcalls⟩ := refused_of_meetsAt hmeets
    obtain ⟨houtcome, hasked⟩ := outcome_of_error hresult
    exact ⟨houtcome, hasked.trans hcalls⟩
  refine ⟨run.exists_last, ?_, ?_, ?_, hrefused⟩
  · intro n htasks
    have hsound := run.sound n
    have hpositive : 0 < (run.moment n).tasks.length := List.length_pos_iff.2 htasks
    have hlength := hsound.length_le
    refine ⟨hsound.depth_eq, ?_, ?_⟩
    · rw [hsound.depth_eq]
      omega
    · rw [hsound.depth_eq]
      omega
  · intro root hroot
    exact height_of_outcome hroot
  · constructor
    · rintro ⟨fault, houtcome, hdeep⟩
      obtain ⟨last, hlast⟩ := run.exists_last
      have hresult : (run.moment last).result = .error fault := by
        rw [hlast, houtcome]
        rfl
      obtain ⟨n, request, hmeets⟩ := exists_refused hresult hdeep
      obtain ⟨name, tokens, hreaches, hline⟩ := meetsAt_iff.1 hmeets
      exact ⟨n, name, tokens, request, hreaches, hline⟩
    · rintro ⟨n, name, tokens, request, hreaches, hline⟩
      exact ⟨_, (hrefused n name tokens request hreaches hline).1, rfl⟩

end Run

/-- The settings with another greatest depth. -/
def Settings.withMaxDepth (settings : Settings) (maxDepth : Nat) (h : 1 ≤ maxDepth) : Settings where
  trigger := settings.trigger
  maxDepth := maxDepth
  styles := settings.styles
  trigger_ne_nil := settings.trigger_ne_nil
  trigger_no_space := settings.trigger_no_space
  maxDepth_pos := h

namespace Run

/-- A run of a text that asks for a file, which asks for another one, with the given greatest
depth. -/
def chain (maxDepth : Nat) (h : 1 ≤ maxDepth) : Run where
  context := .initial
  settings := some (Settings.default.withMaxDepth maxDepth h)
  loader := Catalogue.loader ⟨[("x", "p\n#include \"y\"\n".toList), ("y", "q\n".toList)]⟩
  input := .text "m" "#include \"x\"\n".toList

/-- With two levels the second request of such a run is refused, and with three the run succeeds. -/
theorem nesting_bounded_chain :
    ((∃ name tokens, (chain 2 (by decide)).ReachesLine 2 2 name tokens ∧
        Request.ofLine? name tokens = some ⟨"y", ⟨"x", 2, 1⟩, false⟩) ∧
      (chain 2 (by decide)).outcome.2 = .error (.problem (.tooDeep 2 ⟨"x", 2, 1⟩)) ∧
      (chain 2 (by decide)).outcome.1.calls = [.canonical "x", .read "x"] ∧
      ((chain 2 (by decide)).moment 2).session.depth ≤ 2) ∧
    ∃ root, (chain 3 (by decide)).outcome.2 = .ok root ∧ root.height ≤ 3 := by
  have hmeets : (chain 2 (by decide)).MeetsAt 2 2 ⟨"y", ⟨"x", 2, 1⟩, false⟩ :=
    ⟨by decide +kernel, by decide +kernel⟩
  obtain ⟨name, tokens, hreaches, hline⟩ := meetsAt_iff.1 hmeets
  have htasks : ((chain 2 (by decide)).moment 2).tasks ≠ [] :=
    List.ne_nil_of_length_pos (by decide +kernel)
  have hcalls : ((chain 2 (by decide)).moment 2).session.calls = [.canonical "x", .read "x"] := by
    decide +kernel
  have hsuccess : (chain 3 (by decide)).outcome.2.toOption.map Node.render =
      some "p\nq\n".toList := by
    decide +kernel
  obtain ⟨-, hdepth, -, -, hrefused⟩ := nesting_bounded (chain 2 (by decide))
  obtain ⟨-, -, hheight, -, -⟩ := nesting_bounded (chain 3 (by decide))
  obtain ⟨state, root, houtcome, -⟩ := exists_root_of_render _ hsuccess
  have hroot : (chain 3 (by decide)).outcome.2 = .ok root := by rw [houtcome]
  obtain ⟨hfault, hasked⟩ := hrefused 2 name tokens _ hreaches hline
  refine ⟨⟨⟨name, tokens, hreaches, hline⟩, hfault, ?_, (hdepth 2 htasks).2.2⟩, root, hroot,
    hheight root hroot⟩
  rw [hasked, hcalls]

end Run

end Splice

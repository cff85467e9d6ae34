import Splice.Proofs.Expansion.Tree
import Splice.Proofs.Session.Detection

/-!
# What a run from a catalogue can fail with

A catalogue has a use for every path, and says of each file that it does not hold that it cannot be
read. So a run that is given a catalogue returns a file or fails with a problem in the sources, with
one exception: text and comments cannot be kept without comment styles. Where the settings of a run
have no styles, those of the context are used to find comments, but not to keep them. Hence a run
fails for lack of styles exactly if its settings have none and it comes to a comment, or if there
are none in the context either and it comes to text.
-/

namespace Splice

/-- The item that the next step carries out, if it carries out one. -/
def Moment.item? : Moment → Option Item
  | ⟨_, ⟨_, item :: _⟩ :: _, .ok _⟩ => some item
  | _ => none

/-- An item is carried out exactly if it is the next one of the innermost file and there was no
fault. -/
lemma Moment.item?_eq_some {moment : Moment} {item : Item} (h : moment.item? = some item) :
    ∃ session name items tasks last,
      moment = ⟨session, ⟨name, item :: items⟩ :: tasks, .ok last⟩ := by
  unfold item? at h
  split at h
  · cases h
    exact ⟨_, _, _, _, _, rfl⟩
  · cases h

/-- An item that lacks comment styles cannot be carried out. -/
lemma Moment.carried_of_lacksStyles {loader : Loader} {session : Session} {tasks : List Task}
    {item : Item} (h : item.LacksStyles session.settings.styles session.fallback) :
    (carried loader session tasks item).result = .error .noStyles := by
  cases h with
  | text location content hstyles hfallback =>
    rw [carried, Session.keepText, Session.scanStyles, hstyles, hfallback]
    rfl
  | comment location content hstyles =>
    rw [carried, Session.keepComment, hstyles]
    rfl

/-- A catalogue has a use for every path. -/
lemma Catalogue.not_refused (catalogue : Catalogue) (call : Call) (text : String) :
    ¬ call.Refused catalogue.loader text := by
  cases call with
  | canonical path =>
    rw [Call.Refused, canonical_loader]
    simp
  | read path =>
    intro hread
    cases (read_eq_error_iff.1 hread).2

/-- A problem in the sources, of one of the kinds that a run is given up for. -/
def Fault.IsProblem (fault : Fault) : Prop :=
  ∃ diagnostic, fault = .problem diagnostic ∧
    diagnostic.kind ∈ [.lexical, .directive, .depth, .requested, .load]

/-- The default settings without comment styles. -/
def Settings.bare : Settings :=
  { Settings.default with styles := none }

namespace Run

/-- A run that succeeds returns a file. -/
lemma exists_file_of_outcome {run : Run} {root : Node} (h : run.outcome.2 = .ok root) :
    ∃ location name path children, root = .file location name path children := by
  unfold outcome at h
  split at h
  · obtain ⟨children, rfl, -⟩ := yields_of_runText (Prod.ext rfl h)
    exact ⟨_, _, _, children, rfl⟩
  · obtain ⟨identity, content, children, -, -, rfl, -⟩ := yields_of_runFile (Prod.ext rfl h)
    exact ⟨_, _, _, children, rfl⟩

/-- A run comes to an item that lacks comment styles at some moment. -/
def LacksStyles (run : Run) : Prop :=
  ∃ n item, (run.moment n).item? = some item ∧
    item.LacksStyles run.limits.styles run.context.active.styles

/-- A run that comes to an item that lacks comment styles fails there. -/
lemma outcome_of_lacksStyles {run : Run} (h : run.LacksStyles) :
    run.outcome.2 = .error .noStyles := by
  obtain ⟨n, item, hitem, hlacks⟩ := h
  obtain ⟨session, name, items, tasks, last, hmoment⟩ := Moment.item?_eq_some hitem
  have hsound := run.sound n
  rw [hmoment] at hsound
  have hsettings : session.settings = run.limits := hsound.settings_eq
  have hfallback : session.fallback = run.context.active.styles := hsound.fallback_eq
  rw [← hsettings, ← hfallback] at hlacks
  have hnext : (run.moment (n + 1)).result = .error .noStyles := by
    rw [moment_succ, hmoment]
    exact Moment.carried_of_lacksStyles hlacks
  exact (outcome_of_error hnext).1

/-- A run of which the loader has a use for every path fails with a problem in the sources, or comes
to an item that lacks comment styles. -/
lemma isProblem_or_lacksStyles {run : Run} {fault : Fault}
    (husable : ∀ (call : Call) text, ¬ call.Refused run.loader text)
    (h : run.outcome.2 = .error fault) : fault.IsProblem ∨ fault = .noStyles ∧ run.LacksStyles := by
  obtain ⟨last, hlast⟩ := exists_error_of_outcome h
  rcases exists_failsAt_of_error hlast with ⟨path, -, hfault⟩ |
    ⟨n, name, source, item, hfails, hcauses | ⟨rfl, hlacks⟩⟩
  · rcases Plan.cause_of_find hfault with ⟨text, place, failed, -, -, rfl⟩ |
      ⟨call, -, text, hrefused, -⟩
    · exact Or.inl ⟨_, rfl, by simp⟩
    · exact absurd hrefused (husable call text)
  · left
    cases hcauses with
    | failure diagnostic =>
      obtain ⟨items, hitems⟩ := hfails.suffix
      refine ⟨diagnostic, rfl, ?_⟩
      rcases Item.kind_of_failure_mem (hitems.subset List.mem_cons_self) with hkind | hkind | hkind
      all_goals simp [hkind]
    | refused request maxDepth => exact ⟨_, rfl, by simp [Diagnostic.tooDeep]⟩
    | unread request hasked hread => exact ⟨_, rfl, by simp⟩
    | unusable request hasked hrefused => exact absurd hrefused (husable _ _)
  · obtain ⟨session, items, tasks, last, hmoment, -, -, -⟩ := hfails
    refine Or.inr ⟨rfl, n, item, ?_, hlacks⟩
    rw [hmoment]
    rfl

/-- **What escapes a run from a catalogue.** Whatever settings are given and are in force, a run
returns a file, or fails with a problem in the sources, or fails for lack of comment styles. The
last comes about exactly if the run comes to an item that lacks them, and so never if its settings
have comment styles. -/
theorem fault_of_catalogue (run : Run) (catalogue : Catalogue)
    (hloader : run.loader = catalogue.loader) :
    ((∃ location name path children, run.outcome.2 = .ok (.file location name path children)) ∨
      (∃ fault, run.outcome.2 = .error fault ∧ fault.IsProblem) ∨
      run.outcome.2 = .error .noStyles) ∧
    (run.outcome.2 = .error .noStyles ↔ run.LacksStyles) ∧
    (run.limits.styles ≠ none → run.outcome.2 ≠ .error .noStyles) := by
  have husable : ∀ (call : Call) text, ¬ call.Refused run.loader text := by
    rw [hloader]
    exact catalogue.not_refused
  have hlacks : run.outcome.2 = .error .noStyles ↔ run.LacksStyles := by
    constructor
    · intro hfault
      rcases isProblem_or_lacksStyles husable hfault with ⟨diagnostic, hother, -⟩ | ⟨-, hlacks⟩
      · cases hother
      · exact hlacks
    · exact outcome_of_lacksStyles
  refine ⟨?_, hlacks, ?_⟩
  · cases houtcome : run.outcome.2 with
    | ok root =>
      obtain ⟨location, name, path, children, rfl⟩ := exists_file_of_outcome houtcome
      exact Or.inl ⟨location, name, path, children, rfl⟩
    | error fault =>
      rcases isProblem_or_lacksStyles husable houtcome with hproblem | ⟨rfl, -⟩
      · exact Or.inr (Or.inl ⟨fault, rfl, hproblem⟩)
      · exact Or.inr (Or.inr rfl)
  · intro hstyles hfault
    obtain ⟨n, item, -, hitem⟩ := hlacks.1 hfault
    exact hstyles hitem.styles_eq

/-- A run of a comment, in a context that has a style for it. -/
def ofComment (settings : Option Settings) : Run where
  context := Context.initial.set (Settings.default.addStyle .doubleSlash)
  settings := settings
  loader := Catalogue.loader ⟨[]⟩
  input := .text "m" "// c\n".toList

/-- With the settings in force the comment is kept. With settings that have no styles it is found by
those of the context and then lacks styles. -/
theorem fault_of_catalogue_comment :
    (ofComment none).outcome.2 = .ok (.file ⟨"m", 1, 1⟩ "m" "m"
      [.comment ⟨"m", 1, 1⟩ "// c".toList (some .doubleSlash), .text ⟨"m", 1, 5⟩ "\n".toList]) ∧
    (ofComment none).outcome.2 ≠ .error .noStyles ∧
    (ofComment (some .bare)).LacksStyles := by
  refine ⟨by decide +kernel, ?_, ?_⟩
  · exact (fault_of_catalogue (ofComment none) ⟨[]⟩ rfl).2.2 (by decide)
  · exact (fault_of_catalogue (ofComment (some .bare)) ⟨[]⟩ rfl).2.1.1 (by decide +kernel)

/-- Settings without comment styles pass the check, and a run with them fails with what is no
problem in the sources. -/
theorem not_isProblem_of_comment :
    Settings.make ['#'] 128 none = .ok .bare ∧
      ∃ fault, (ofComment (some .bare)).outcome.2 = .error fault ∧ ¬ fault.IsProblem := by
  refine ⟨by decide, .noStyles, by decide +kernel, ?_⟩
  rintro ⟨diagnostic, hother, -⟩
  cases hother

end Run

end Splice

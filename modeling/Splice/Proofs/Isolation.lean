import Splice.Proofs.Expansion.Likeness
import Splice.Proofs.Session.Styles

/-!
# Actions with settings of their own

Where the settings of a run lack comment styles, those of the context are used to find comments, in
every file of the run anew. An action that is shielded brings both a trigger and styles, and then
the context has no influence on it, however deep files are nested and whatever goes wrong: its plan
is alike under all contexts (`Context.plan_alike`). As it leaves the context as it is, it can be put
anywhere in a program without any effect on the other actions (`Action.performAll_insert`).
-/

namespace Splice

/-- The action brings a trigger and comment styles. -/
def Action.isShielded : Action → Bool
  | set _ | reset | enter _ | leave _ => false
  | scan trigger styles _ => trigger.isSome && styles.isSome
  | runFile settings _ _ | runText settings _ _ _ => settings.any (·.styles.isSome)
  | preprocessFile preprocessor _ | preprocessText preprocessor _ _ | process preprocessor _ =>
    preprocessor.settings.styles.isSome

/-! ### Preprocessors -/

namespace Preprocessor

/-- A preprocessor as programs get it: it is made, and styles are added to it. -/
inductive Built : Preprocessor → Prop where
  | make {trigger : Text} {maxDepth : Int} {styles : Styles} {loader : Loader}
      {preprocessor : Preprocessor} (h : make trigger maxDepth styles loader = .ok preprocessor) :
      Built preprocessor
  | addStyle {preprocessor : Preprocessor} (h : Built preprocessor) (style : CommentStyle)
      (strip : Bool) : Built (preprocessor.addStyle style strip)

/-- The settings of a preprocessor have comment styles. -/
lemma Built.styles_isSome {preprocessor : Preprocessor} (h : preprocessor.Built) :
    preprocessor.settings.styles.isSome = true := by
  cases h with
  | make h =>
    rw [Preprocessor.make, Settings.make] at h
    split_ifs at h <;> cases h
    rfl
  | addStyle h style strip => rfl

/-- What there is to report of the processed text of a file is what there is to report of the file,
with the text in place of the tree. -/
lemma report_process (preprocessor : Preprocessor) (context : Context) (path : String) :
    (preprocessor.process context path).report =
      ⟨(preprocessor.runFile context path).report.result.map Node.render,
        (preprocessor.runFile context path).report.calls,
        (preprocessor.runFile context path).report.log⟩ := by
  rw [process]
  rcases preprocessor.runFile context path with ⟨session, result⟩
  cases result with
  | error fault => rfl
  | ok node => rfl

end Preprocessor

/-! ### Actions -/

/-- With settings that have comment styles, the plan of a run is alike under all contexts. -/
lemma Context.plan_alike {settings : Settings} (h : settings.styles.isSome = true)
    (loader : Loader) (context other : Context) :
    (context.plan (some settings) loader).Alike (other.plan (some settings) loader) := by
  obtain ⟨styles, hstyles⟩ := Option.isSome_iff_exists.1 h
  exact ⟨rfl, rfl, rfl, styles, styles, hstyles, hstyles, .refl styles⟩

namespace Action

variable {action : Action}

/-- A shielded action leaves the context as it is. -/
lemma perform_fst (h : action.isShielded = true) (context : Context) :
    (action.perform context).1 = context := by
  cases action with
  | set settings | reset | enter settings | leave scope => cases h
  | scan | runFile | runText | preprocessFile | preprocessText | process => rfl

/-- What a program is told of a shielded action does not depend on the context. -/
lemma perform_snd (h : action.isShielded = true) (context other : Context) :
    (action.perform other).2 = (action.perform context).2 := by
  cases action with
  | set settings | reset | enter settings | leave scope => cases h
  | scan trigger styles source =>
    obtain ⟨htrigger, hstyles⟩ := Bool.and_eq_true_iff.1 h
    obtain ⟨trigger, rfl⟩ := Option.isSome_iff_exists.1 htrigger
    obtain ⟨styles, rfl⟩ := Option.isSome_iff_exists.1 hstyles
    rfl
  | runFile settings loader path =>
    cases settings with
    | none => cases h
    | some settings =>
      have halike := Context.plan_alike h loader context other
      exact congrArg Answer.tree (report_runFile halike path)
  | runText settings loader name content =>
    cases settings with
    | none => cases h
    | some settings =>
      have halike := Context.plan_alike h loader context other
      exact congrArg Answer.tree (report_runText halike name content)
  | preprocessFile preprocessor path =>
    have halike := Context.plan_alike h preprocessor.loader context other
    exact congrArg Answer.tree (report_runFile halike path)
  | preprocessText preprocessor name content =>
    have halike := Context.plan_alike h preprocessor.loader context other
    exact congrArg Answer.tree (report_runText halike name content)
  | process preprocessor path =>
    have halike := Context.plan_alike h preprocessor.loader context other
    have hfile : (preprocessor.runFile other path).report =
        (preprocessor.runFile context path).report := report_runFile halike path
    rw [perform, perform, Preprocessor.report_process, Preprocessor.report_process, hfile]

/-- The first action is carried out, and then the others in the context that it leaves. -/
lemma performAll_cons (first : Action) (actions : List Action) (context : Context) :
    performAll (first :: actions) context =
      ((performAll actions (first.perform context).1).1,
        (first.perform context).2 :: (performAll actions (first.perform context).1).2) :=
  rfl

/-- A shielded action is answered in the same way wherever it stands in a program, and the other
actions are answered as if it did not stand there. The induction is on the actions before it. -/
theorem performAll_insert (h : action.isShielded = true) (before after : List Action)
    (context : Context) :
    ∃ answers answers', answers.length = before.length ∧
      (performAll (before ++ after) context).2 = answers ++ answers' ∧
      performAll (before ++ action :: after) context =
        ((performAll (before ++ after) context).1,
          answers ++ (action.perform .initial).2 :: answers') := by
  induction before generalizing context with
  | nil =>
    refine ⟨[], (performAll after context).2, rfl, rfl, ?_⟩
    rw [List.nil_append, performAll_cons, perform_fst h, perform_snd h .initial]
    rfl
  | cons first before ih =>
    obtain ⟨answers, answers', hlength, hwithout, hwith⟩ := ih (first.perform context).1
    refine ⟨(first.perform context).2 :: answers, answers', congrArg (· + 1) hlength, ?_, ?_⟩
    · exact congrArg ((first.perform context).2 :: ·) hwithout
    · rw [List.cons_append, List.cons_append, performAll_cons, performAll_cons, hwith]
      rfl

/-- **Settings of its own shield a run from the context.** Let a file or a text be processed with
settings that have comment styles, or by a preprocessor with such settings. Then the program is told
the same whatever settings are in force, even if these have no styles: the same tree or text, or the
same fault, the same questions to the loader and the same log. And the settings in force stay as
they are, also when there is a fault. -/
theorem shielded_from_context (h : action.isShielded = true) (context other : Context) :
    (action.perform other).2 = (action.perform context).2 ∧
      (action.perform context).1 = context ∧ (action.perform other).1 = other :=
  ⟨perform_snd h context other, perform_fst h context, perform_fst h other⟩

end Action

/-- A preprocessor that drops comments between a slash and a star, with files of which one leads to
a fault in a file that it asks for. -/
def Preprocessor.dropping : Preprocessor :=
  .addStyle
    ⟨.default, Catalogue.loader
      ⟨[("m", "a /* b */\n#include \"x\"\nc".toList), ("x", "/* d */e\n".toList),
        ("n", "#require \"y\"\n".toList), ("y", "f\n#include x\n".toList)]⟩⟩
    .block true

/-- The text of a file is the same, and so is the fault in the other one, where the settings in
force have no comment styles. -/
theorem Action.shielded_from_context_bare :
    Preprocessor.dropping.Built ∧
    ∃ report report',
      ((Action.process .dropping "m").perform .initial).2 = .text report ∧
      report.result = .ok "a \ne\nc".toList ∧
      (Action.process .dropping "m").perform ⟨.bare, []⟩ = (⟨.bare, []⟩, .text report) ∧
      ((Action.process .dropping "n").perform .initial).2 = .text report' ∧
      report'.result =
        .error (.problem (.ofDirectiveFault (.notOneString "include".toList) ⟨"y", 2, 10⟩)) ∧
      (Action.process .dropping "n").perform ⟨.bare, []⟩ = (⟨.bare, []⟩, .text report') := by
  have hbuilt : Preprocessor.dropping.Built :=
    .addStyle (.make (rfl : Preprocessor.make Settings.defaultTrigger 128 [] _ = _)) .block true
  have hshielded (path : String) : (Action.process .dropping path).isShielded = true :=
    hbuilt.styles_isSome
  have hm := shielded_from_context (hshielded "m") .initial ⟨.bare, []⟩
  have hn := shielded_from_context (hshielded "n") .initial ⟨.bare, []⟩
  refine ⟨hbuilt, _, _, rfl, by decide +kernel, Prod.ext hm.2.2 hm.1, rfl, by decide +kernel,
    Prod.ext hn.2.2 hn.1⟩

end Splice

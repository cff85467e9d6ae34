import Splice.Action
import Splice.Proofs.Expansion.Rendering

/-!
# Runs that come to the same

A run uses its comment styles in one way only: it asks for the first of them that opens at a point.
So styles with the same answers everywhere (`Styles.Agrees`) cut every source into the same
segments, and give each comment the same style. Two plans that are alike but for such styles, and
for the styles of the context, which are not used where the settings have some, expand every file to
the same tree (`Plan.Alike.expand_eq`). So there is the same to report of runs with such plans
(`report_runText`, `report_runFile`).
-/

namespace Splice

/-- Two lists of styles have the same first style at every point. -/
def Styles.Agrees (styles other : Styles) : Prop :=
  ∀ source, other.first? source = styles.first? source

/-- Styles agree with themselves. -/
lemma Styles.Agrees.refl (styles : Styles) : styles.Agrees styles :=
  fun _ => rfl

/-! ### Scanning -/

namespace Dialect

/-- The dialect with other comment styles. -/
def withStyles (dialect : Dialect) (other : Styles) : Dialect :=
  ⟨dialect.trigger, other⟩

variable {dialect : Dialect} {other : Styles}

/-- The event at the start of a text is the same. -/
lemma event?_withStyles (h : dialect.styles.Agrees other) (lineStart : Bool) (source : Text) :
    (dialect.withStyles other).event? lineStart source = dialect.event? lineStart source := by
  cases source with
  | nil => rfl
  | cons c s =>
    have hfirst : (dialect.withStyles other).styles.first? (c :: s) =
        dialect.styles.first? (c :: s) := h (c :: s)
    rw [event?, event?, hfirst]
    rfl

/-- Plain text ends at the same point. -/
lemma plain_withStyles (h : dialect.styles.Agrees other) (lineStart : Bool) (source : Text) :
    (dialect.withStyles other).plain lineStart source = dialect.plain lineStart source := by
  induction source generalizing lineStart with
  | nil => rfl
  | cons c s ih => rw [plain, plain, event?_withStyles h, ih]

/-- A step cuts off the same segment. -/
lemma step_withStyles (h : dialect.styles.Agrees other) (place : Place) (source : Text) :
    (dialect.withStyles other).step place source = dialect.step place source := by
  unfold step
  rw [event?_withStyles h]
  cases dialect.event? place.isLineStart source with
  | none =>
    cases source with
    | nil => rfl
    | cons c s =>
      dsimp only
      rw [plain_withStyles h]
  | some event => cases event <;> rfl

/-- A scan cuts the source into the same segments. The induction is on the steps of the scan. -/
lemma scanFrom_withStyles (h : dialect.styles.Agrees other) (place : Place) (source : Text) :
    (dialect.withStyles other).scanFrom place source = dialect.scanFrom place source := by
  fun_induction scanFrom dialect place source with
  | case1 place source segment rest hstep ih =>
    rw [scanFrom_eq_cons ((step_withStyles h place source).trans hstep), ih]
  | case2 place source ending hstep =>
    exact scanFrom_eq_ending ((step_withStyles h place source).trans hstep)

/-- A source has the same tokens. -/
lemma tokens_withStyles (h : dialect.styles.Agrees other) (source : Text) :
    (dialect.withStyles other).tokens source = dialect.tokens source :=
  congrArg Scan.tokens (scanFrom_withStyles h .start source)

end Dialect

/-! ### Expanding files -/

namespace Plan

/-- Two plans that have the same trigger, greatest depth and loader, and comment styles in their
settings that agree. The styles of the context may be any. -/
structure Alike (plan other : Plan) : Prop where
  trigger_eq : other.settings.trigger = plan.settings.trigger
  maxDepth_eq : other.settings.maxDepth = plan.settings.maxDepth
  loader_eq : other.loader = plan.loader
  agrees : ∃ styles styles', plan.settings.styles = some styles ∧
    other.settings.styles = some styles' ∧ styles.Agrees styles'

variable {plan other : Plan}

/-- A source has the same items under plans that are alike. -/
lemma Alike.items_eq (h : plan.Alike other) (name : String) (source : Text) :
    other.dialect.items name source = plan.dialect.items name source := by
  obtain ⟨styles, styles', hstyles, hstyles', hagrees⟩ := h.agrees
  have hdialect : plan.dialect = ⟨plan.settings.trigger, styles⟩ := by
    rw [dialect, scanStyles, hstyles]
    rfl
  have hother : other.dialect = Dialect.withStyles ⟨plan.settings.trigger, styles⟩ styles' := by
    rw [dialect, scanStyles, hstyles', h.trigger_eq]
    rfl
  rw [hdialect, hother, Dialect.items, Dialect.items, Dialect.tokens_withStyles hagrees]

/-- A path has the same identity and content under plans that are alike. -/
lemma Alike.find_eq (h : plan.Alike other) (path : String) (location : Position) :
    other.find path location = plan.find path location := by
  rw [find, find, read, read, h.loader_eq]

/-- Plain text is the same leaf under plans that are alike. -/
lemma Alike.textLeaf_eq (h : plan.Alike other) (location : Position) (content : Text) :
    other.textLeaf location content = plan.textLeaf location content := by
  obtain ⟨styles, styles', hstyles, hstyles', -⟩ := h.agrees
  rw [textLeaf, textLeaf, scanStyles, scanStyles, hstyles, hstyles']
  rfl

/-- A comment is the same leaf, with the same style, under plans that are alike. -/
lemma Alike.commentLeaf_eq (h : plan.Alike other) (location : Position) (content : Text) :
    other.commentLeaf location content = plan.commentLeaf location content := by
  obtain ⟨styles, styles', hstyles, hstyles', hagrees⟩ := h.agrees
  simp only [commentLeaf, hstyles, hstyles', hagrees content]

/-- An item stands for the same children under plans that are alike. -/
lemma Alike.step_eq (h : plan.Alike other)
    (answer : Request → Ledger → Expansion (Option Node)) (item : Item) (ledger : Ledger) :
    other.step answer item ledger = plan.step answer item ledger := by
  cases item with
  | text location content => rw [step, step, h.textLeaf_eq]
  | comment location content => rw [step, step, h.commentLeaf_eq]
  | request request => rfl
  | failure diagnostic => rfl

/-- Items stand for the same children under plans that are alike. The induction is on the items. -/
lemma Alike.collect_eq (h : plan.Alike other)
    (answer : Request → Ledger → Expansion (Option Node)) (items : List Item) (ledger : Ledger) :
    other.collect answer items ledger = plan.collect answer items ledger := by
  induction items generalizing ledger with
  | nil => rfl
  | cons item items ih =>
    rw [collect, collect, h.step_eq]
    simp only [ih]

/-- The file of a request is found and read in the same way under plans that are alike. -/
lemma Alike.fetch_eq (h : plan.Alike other)
    (nested : String → String → Text → Ledger → Expansion Node) (name : String)
    (request : Request) (ledger : Ledger) :
    other.fetch nested name request ledger = plan.fetch nested name request ledger := by
  simp only [fetch, h.loader_eq, h.find_eq]

/-- A file is expanded to the same tree under plans that are alike, and the ledger is the same. The
induction is on how many levels there may still be below the file. -/
lemma Alike.expand_eq (h : plan.Alike other) (depth : Int) (name path : String)
    (location : Position) (source : Text) (ledger : Ledger) :
    other.expand depth name path location source ledger =
      plan.expand depth name path location source ledger := by
  generalize hroom : (plan.settings.maxDepth - depth).toNat = room
  induction room using Nat.strong_induction_on
    generalizing depth name path location source ledger with
  | _ room ih =>
    have hanswer : other.answer depth name = plan.answer depth name := by
      funext request ledger
      rw [answer, answer, h.maxDepth_eq]
      split
      · rfl
      · have hnested : (fun target identity text ledger =>
            other.expand (depth + 1) target identity request.location text ledger) =
              fun target identity text ledger =>
                plan.expand (depth + 1) target identity request.location text ledger := by
          funext target identity text ledger
          exact ih _ (by omega) (depth + 1) target identity request.location text ledger rfl
        rw [hnested, h.fetch_eq]
    rw [Plan.expand_eq, Plan.expand_eq, h.items_eq, hanswer, h.collect_eq]

/-- The file of a run is found, read and expanded in the same way under plans that are alike. -/
lemma Alike.expandRoot_eq (h : plan.Alike other) (path : String) (ledger : Ledger) :
    other.expandRoot path ledger = plan.expandRoot path ledger := by
  simp only [expandRoot, h.loader_eq, h.find_eq, h.expand_eq]

end Plan

/-! ### Runs -/

section Runs

variable {context context' : Context} {settings settings' : Option Settings}
  {loader loader' : Loader}

/-- Runs of a text under plans that are alike come to the same: the same tree or the same fault,
after the same questions to the loader and with the same log. -/
lemma report_runText
    (h : (context.plan settings loader).Alike (context'.plan settings' loader')) (name : String)
    (content : Text) :
    (runText context' settings' loader' name content).report =
      (runText context settings loader name content).report := by
  rw [runText_eq_expand, runText_eq_expand, h.expand_eq]
  rfl

/-- So do runs of a file. -/
lemma report_runFile
    (h : (context.plan settings loader).Alike (context'.plan settings' loader')) (path : String) :
    (runFile context' settings' loader' path).report =
      (runFile context settings loader path).report := by
  rw [runFile_eq_expandRoot, runFile_eq_expandRoot, h.expandRoot_eq]
  rfl

end Runs

end Splice

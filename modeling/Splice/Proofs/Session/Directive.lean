import Splice.Proofs.Directive
import Splice.Proofs.Session.Styles

/-!
# Directive lines of a run

When a run comes to a line with a trigger (`Run.StopsAt`), it carries out the command of the line
exactly if the line is of the form that `Line.Directs` describes. A line of any other form, that is
not a shebang on the first line, makes the run fail with a problem that is located on the line, and
the loader is not asked for anything more.
-/

namespace Splice

/-- The text after a trigger is a directive line with the given command and argument: it does not
start with an exclamation mark, and its first line is of the right form. -/
def Line.IsDirective (command : Command) (argument after : Text) : Prop :=
  ¬ ['!'] <+: after ∧ ∃ line rest, after = line ++ rest ∧ Directs command argument line

/-! ### What a line asks for -/

namespace Dialect

variable {dialect : Dialect} (htrigger : dialect.HasTrigger) {place : Place}
  (hstart : place.isLineStart = true) {blanks : Text} (hblanks : blanks.AllBlank)

include htrigger hstart hblanks

/-- A line with a trigger that is neither a directive line nor a shebang on the first line is a
problem, located on this line. -/
lemma failsOn_of_not_isDirective {after : Text}
    (hnone : ∀ command argument, ¬ Line.IsDirective command argument after)
    (hshebang : ¬ (['!'] <+: after ∧ (place.skip blanks).line = 1)) (name : String) :
    Item.FailsOn name (place.skip blanks).line (Item.ofTokens name
      (dialect.scanFrom place (blanks ++ (dialect.trigger ++ after))).tokens) := by
  by_cases hbang : ['!'] <+: after
  · obtain ⟨rest, rfl⟩ := hbang
    have hline : (place.skip blanks).line ≠ 1 := fun hone => hshebang ⟨⟨rest, rfl⟩, hone⟩
    exact failsOn_of_misplaced htrigger hblanks hstart hline rest name
  · refine failsOn_of_not_directs htrigger hblanks hstart hbang ?_ name
    intro command argument line rest hafter hline
    exact hnone command argument ⟨hbang, line, rest, hafter, hline⟩

/-- What is asked for first at a line with a trigger is what a command says, located at the trigger,
exactly if the line is a directive line with this command. -/
lemma exists_ofTokens_iff (after : Text) (name : String) (command : Command) (argument : Text) :
    (∃ items, Item.ofTokens name
        (dialect.scanFrom place (blanks ++ (dialect.trigger ++ after))).tokens =
          command.item argument ((place.skip blanks).position name) :: items) ↔
      Line.IsDirective command argument after := by
  constructor
  · rintro ⟨items, hitems⟩
    by_cases hshebang : ['!'] <+: after ∧ (place.skip blanks).line = 1
    · obtain ⟨⟨rest, rfl⟩, hline⟩ := hshebang
      exact absurd hitems
        (ofTokens_of_shebang htrigger hblanks hstart hline rest name command argument items)
    · by_contra hnot
      have hother : ∃ other content, Line.IsDirective other content after := by
        by_contra hnone
        refine (failsOn_of_not_isDirective htrigger hstart hblanks ?_ hshebang name).ne_command
          hitems
        intro other content hdirective
        exact hnone ⟨other, content, hdirective⟩
      obtain ⟨other, content, hbang, line, rest, rfl, hline⟩ := hother
      obtain ⟨items', hitems'⟩ := ofTokens_of_directs htrigger hblanks hstart hline hbang name
      rw [hitems'] at hitems
      obtain ⟨rfl, rfl, -⟩ := Command.item_inj (List.cons.inj hitems).1
      exact hnot ⟨hbang, line, rest, rfl, hline⟩
  · rintro ⟨hbang, line, rest, rfl, hline⟩
    exact ofTokens_of_directs htrigger hblanks hstart hline hbang name

end Dialect

/-! ### What a run carries out -/

namespace Moment

/-- The next step carries out a command at a position: a request for a file is carried out, or the
run is given up with the error that is asked for. -/
def Executes (loader : Loader) (moment : Moment) (argument : Text) (location : Position) :
    Command → Prop
  | .splice => moment.request? = some ⟨String.ofList argument, location, false⟩
  | .spliceOnce => moment.request? = some ⟨String.ofList argument, location, true⟩
  | .stop => (moment.next loader).result = .error (.problem (.requested argument location))

/-- A request is carried out exactly if it is the first item that is left. -/
lemma request?_eq_some_iff {session : Session} {name : String} {items : List Item}
    {tasks : List Task} {last : Option Node} {request : Request} :
    request? ⟨session, ⟨name, items⟩ :: tasks, .ok last⟩ = some request ↔
      ∃ rest, items = .request request :: rest := by
  constructor
  · intro h
    obtain ⟨_, _, rest, _, _, hmoment⟩ := request?_eq_some h
    cases hmoment
    exact ⟨rest, rfl⟩
  · rintro ⟨rest, rfl⟩
    rfl

/-- A command is carried out exactly if what it asks for is the first item that is left. -/
lemma executes_iff {loader : Loader} {session : Session} (hopen : session.frames ≠ [])
    {name : String} {items : List Item} {tasks : List Task} {last : Option Node}
    {command : Command} {argument : Text} {location : Position} :
    Executes loader ⟨session, ⟨name, items⟩ :: tasks, .ok last⟩ argument location command ↔
      ∃ rest, items = command.item argument location :: rest := by
  cases command with
  | splice => exact request?_eq_some_iff
  | spliceOnce => exact request?_eq_some_iff
  | stop =>
    constructor
    · intro hfault
      rw [Executes] at hfault
      cases items with
      | nil =>
        obtain ⟨node, hleft⟩ := left_result_ok hopen name tasks
        rw [next, hleft] at hfault
        cases hfault
      | cons item items =>
        rcases causes_of_carried hopen hfault with hcauses | ⟨hnone, -⟩
        · generalize hproblem : Fault.problem (.requested argument location) = fault at hcauses
          cases hcauses with
          | failure diagnostic =>
            cases hproblem
            exact ⟨items, rfl⟩
          | refused => cases hproblem
          | unread => cases hproblem
          | unusable => cases hproblem
        · cases hnone
    · rintro ⟨rest, rfl⟩
      rfl

end Moment

namespace Run

/-- At the given moment, the innermost file is to be read on from a line with a trigger: `before` is
the text of the file before this line, and the items that are left of the file are those of the line
and of what comes after it. The line has `blanks` before its trigger, and `after` follows it. -/
structure StopsAt (run : Run) (n : Nat) (name : String) (before blanks after : Text) : Prop where
  line_start : before.EndsLine
  all_blank : blanks.AllBlank
  running : ∃ session tasks last,
    run.moment n = ⟨session, ⟨name, Item.ofTokens name (run.dialect.scanFrom
        (Place.start.skip before) (blanks ++ (run.dialect.trigger ++ after))).tokens⟩ :: tasks,
      .ok last⟩ ∧
    run.SourceAt (tasks.length + 1) name (before ++ (blanks ++ (run.dialect.trigger ++ after)))

/-- The trigger of a run can be told from blanks. -/
lemma hasTrigger_dialect (run : Run) : run.dialect.HasTrigger :=
  ⟨run.limits.trigger_ne_nil, run.limits.trigger_no_space⟩

/-- **Directive lines are carried out exactly by their form.** When a run comes to a line with a
trigger, it carries out a command with an argument exactly if the text after the trigger is a
directive line with this command and this argument. In any other case, that is not a shebang on the
first line, the run fails with a problem of the characters or of the tokens of the line, located on
this line, and the loader is not asked for anything after the run has come to the line. -/
theorem executes_iff_isDirective {run : Run} {n : Nat} {name : String} {before blanks after : Text}
    (h : run.StopsAt n name before blanks after) :
    (∀ command argument,
      (run.moment n).Executes run.loader argument
          ((Place.start.skip (before ++ blanks)).position name) command ↔
        Line.IsDirective command argument after) ∧
    ((∀ command argument, ¬ Line.IsDirective command argument after) →
      ¬ (['!'] <+: after ∧ (Place.start.skip (before ++ blanks)).line = 1) →
      ∃ diagnostic column, run.outcome.2 = .error (.problem diagnostic) ∧
        (diagnostic.kind = .lexical ∨ diagnostic.kind = .directive) ∧
        diagnostic.location = some ⟨name, (Place.start.skip (before ++ blanks)).line, column⟩ ∧
        run.outcome.1.calls = (run.moment n).session.calls) := by
  obtain ⟨session, tasks, last, hmoment, -⟩ := h.running
  have hstart := (Place.isLineStart_start_skip before).2 h.line_start
  have hsound := run.sound n
  rw [hmoment] at hsound
  have hopen : session.frames ≠ [] := hsound.frames_ne_nil (List.cons_ne_nil _ _)
  rw [Place.skip_append]
  refine ⟨?_, ?_⟩
  · intro command argument
    rw [hmoment, Moment.executes_iff hopen]
    exact Dialect.exists_ofTokens_iff run.hasTrigger_dialect hstart h.all_blank after name command
      argument
  · intro hnone hshebang
    obtain ⟨diagnostic, column, hitems, hkind, hlocation⟩ := Dialect.failsOn_of_not_isDirective
      run.hasTrigger_dialect hstart h.all_blank hnone hshebang name
    rw [hitems] at hmoment
    have hnext : run.moment (n + 1) =
        ⟨session, ⟨name, []⟩ :: tasks, .error (.problem diagnostic)⟩ := by
      rw [moment_succ, hmoment]
      rfl
    have hresult : (run.moment (n + 1)).result = .error (.problem diagnostic) := by
      rw [hnext]
    obtain ⟨houtcome, hcalls⟩ := outcome_of_error hresult
    refine ⟨diagnostic, column, houtcome, hkind, hlocation, ?_⟩
    rw [hcalls, hnext, hmoment]

/-- A run of a text with a line of text, and then a line with a trigger after blanks that goes on
with the given text. -/
def ofLine (after : Text) : Run where
  context := .initial
  settings := none
  loader := Catalogue.loader ⟨[]⟩
  input := .text "m" ("a\n".toList ++ (" \t".toList ++ (['#'] ++ after)))

/-- When the first line of such a text is kept, the run stops at the second line. -/
lemma stopsAt_ofLine {after : Text}
    (htasks : ((ofLine after).moment 1).tasks =
      [⟨"m", Item.ofTokens "m" ((ofLine after).dialect.scanFrom (Place.start.skip "a\n".toList)
        (" \t".toList ++ (['#'] ++ after))).tokens⟩])
    (hresult : ((ofLine after).moment 1).result = .ok none) :
    (ofLine after).StopsAt 1 "m" "a\n".toList " \t".toList after where
  line_start := by decide
  all_blank := List.all_eq_true.1 (by decide)
  running := by
    refine ⟨((ofLine after).moment 1).session, [], none, ?_, rfl, rfl⟩
    rw [← hresult]
    exact congrArg (Moment.mk _ · _) htasks

/-- A command without blanks before its argument, with an escaped quote in it, blanks after it and
two characters as line end. -/
def lineAccepted : Text :=
  " include\"x\\\"y\" \r\nb\n".toList

/-- A command with a word after its argument. -/
def lineRefused : Text :=
  "include \"x\" y\n".toList

/-- The command of the first line is carried out. The run fails at the other line. -/
theorem executes_iff_isDirective_second_line :
    (ofLine lineAccepted).StopsAt 1 "m" "a\n".toList " \t".toList lineAccepted ∧
      ((ofLine lineAccepted).moment 1).Executes (ofLine lineAccepted).loader "x\"y".toList
        ⟨"m", 2, 3⟩ .splice ∧
      (ofLine lineRefused).StopsAt 1 "m" "a\n".toList " \t".toList lineRefused ∧
      ∃ diagnostic column, (ofLine lineRefused).outcome.2 = .error (.problem diagnostic) ∧
        (diagnostic.kind = .lexical ∨ diagnostic.kind = .directive) ∧
        diagnostic.location = some ⟨"m", 2, column⟩ ∧
        (ofLine lineRefused).outcome.1.calls = [] := by
  have haccepted : (ofLine lineAccepted).StopsAt 1 "m" "a\n".toList " \t".toList lineAccepted :=
    stopsAt_ofLine (by decide +kernel) (by decide +kernel)
  have hrefused : (ofLine lineRefused).StopsAt 1 "m" "a\n".toList " \t".toList lineRefused :=
    stopsAt_ofLine (by decide +kernel) (by decide +kernel)
  have hdirective : Line.IsDirective .splice "x\"y".toList lineAccepted := by
    have hspells : QuotedString.Spells "x\\\"y".toList "x\"y".toList :=
      .plain (by decide) (by decide) (by decide)
        (.escaped (by decide) (.plain (by decide) (by decide) (by decide) .nil))
    refine ⟨by decide, " include\"x\\\"y\" \r\n".toList, "b\n".toList, rfl, ?_⟩
    exact @Line.Directs.line _ _ [' '] [] _ [' '] ['\r', '\n'] (List.all_eq_true.1 (by decide))
      (List.all_eq_true.1 (by decide)) hspells (List.all_eq_true.1 (by decide)) (Or.inr rfl)
  have hnone : ∀ command argument, ¬ Line.IsDirective command argument lineRefused := by
    intro command argument hline
    have hexecutes := ((executes_iff_isDirective hrefused).1 command argument).2 hline
    have hrequest : ((ofLine lineRefused).moment 1).request? = none := by decide +kernel
    cases command with
    | splice => cases hrequest.symm.trans hexecutes
    | spliceOnce => cases hrequest.symm.trans hexecutes
    | stop =>
      have hnext : (((ofLine lineRefused).moment 1).next (ofLine lineRefused).loader).result =
          .error (.problem (.ofDirectiveFault (.notOneString "include".toList) ⟨"m", 2, 12⟩)) := by
        decide +kernel
      cases hnext.symm.trans hexecutes
  have hcalls : ((ofLine lineRefused).moment 1).session.calls = [] := by decide +kernel
  refine ⟨haccepted, ((executes_iff_isDirective haccepted).1 .splice _).2 hdirective, hrefused, ?_⟩
  rw [← hcalls]
  exact (executes_iff_isDirective hrefused).2 hnone (by decide)

end Run

end Splice

import Splice.CommentStyle
import Splice.Text.Space

/-!
# Settings

The settings of a run: the trigger of directive lines, how deep files may be nested, and the comment
styles. Settings are only made by `Settings.make`, which checks them.
-/

namespace Splice

/-- What a run is told about its sources. -/
structure Settings where
  /-- The text that begins a directive line. -/
  trigger : Text
  /-- The greatest number of files nested in one another, the top-level file included. -/
  maxDepth : Nat
  /-- The comment styles; without them, those of the context are used to find comments. -/
  styles : Option Styles
  trigger_ne_nil : trigger ≠ []
  trigger_no_space : trigger.any Text.isSpace = false
  maxDepth_pos : 1 ≤ maxDepth

/-- Settings are equal when trigger, depth and comment styles are. -/
instance : DecidableEq Settings := fun a b =>
  decidable_of_iff (a.trigger = b.trigger ∧ a.maxDepth = b.maxDepth ∧ a.styles = b.styles) <| by
    cases a
    cases b
    simp

/-- Why settings are refused. -/
inductive SettingsError where
  | emptyTrigger
  | spaceInTrigger (trigger : Text)
  | depthTooSmall (depth : Int)
deriving DecidableEq

/-- The wording of a refusal. -/
def SettingsError.message : SettingsError → String
  | emptyTrigger => "trigger must not be empty"
  | spaceInTrigger trigger => "trigger must not contain whitespace: " ++ Text.showQuoted trigger
  | depthTooSmall depth => "max_include_depth must be at least 1, got " ++ Text.showInt depth

namespace Settings

/-- Checks settings, the trigger before the depth. -/
def make (trigger : Text) (maxDepth : Int) (styles : Option Styles) :
    Except SettingsError Settings :=
  if hne : trigger = [] then .error .emptyTrigger
  else if hspace : trigger.any Text.isSpace = true then .error (.spaceInTrigger trigger)
  else if hdepth : maxDepth < 1 then .error (.depthTooSmall maxDepth)
  else .ok ⟨trigger, maxDepth.toNat, styles, hne, by simpa using hspace, by omega⟩

/-- The trigger of the default settings. -/
def defaultTrigger : Text :=
  ['#']

/-- The greatest depth of the default settings. -/
def defaultMaxDepth : Nat :=
  128

/-- The settings that hold unless others are given: no comments are recognized. -/
def default : Settings where
  trigger := defaultTrigger
  maxDepth := defaultMaxDepth
  styles := some []
  trigger_ne_nil := by decide
  trigger_no_space := by decide
  maxDepth_pos := by decide

/-- The settings with one more comment style, tried after all others. -/
def addStyle (settings : Settings) (style : CommentStyle) : Settings where
  trigger := settings.trigger
  maxDepth := settings.maxDepth
  styles := some ((settings.styles.getD []).add style)
  trigger_ne_nil := settings.trigger_ne_nil
  trigger_no_space := settings.trigger_no_space
  maxDepth_pos := settings.maxDepth_pos

end Settings

end Splice

import Splice.Context
import Splice.Session.Run

/-!
# Preprocessing

The entry points of the library. `Splice.runFile` and `Splice.runText` process a file and a text
under a name; each run has a session of its own. Settings that are not given are those in force. A
`Preprocessor` holds settings and a loader for several runs.
-/

namespace Splice

/-- The session of a run with the given settings, or with those in force if none are given. -/
def Context.session (context : Context) (settings : Option Settings) : Session :=
  .start (settings.getD context.active) context.active.styles

/-- The tokens of a source. A trigger or comment styles that are not given are those in force; text
cannot be told from comments without any comment styles. -/
def Context.tokens (context : Context) (trigger : Option Text) (styles : Option Styles)
    (source : Text) : Except Fault (List Token) :=
  let trigger := trigger.getD context.active.trigger
  match styles.or context.active.styles with
  | some styles => .ok (Dialect.tokens ⟨trigger, styles⟩ source)
  | none =>
    let tokens := Dialect.tokens ⟨trigger, []⟩ source
    if tokens.any (·.isText) then .error .noStyles else .ok tokens

/-- Processes the file at a path, and everything it asks for. -/
def runFile (context : Context) (settings : Option Settings) (loader : Loader) (path : String) :
    Outcome Node :=
  (context.session settings).runRoot loader path

/-- Processes a text under a name, and everything it asks for. Requests are relative to the
directory of the name. -/
def runText (context : Context) (settings : Option Settings) (loader : Loader) (name : String)
    (content : Text) : Outcome Node :=
  (context.session settings).runSource loader content name name (.start name)

/-- Settings and a loader for several runs. -/
structure Preprocessor where
  settings : Settings
  loader : Loader

namespace Preprocessor

/-- A preprocessor with the given settings, which are checked. -/
def make (trigger : Text) (maxDepth : Int) (styles : Styles) (loader : Loader) :
    Except SettingsError Preprocessor :=
  (Settings.make trigger maxDepth (some styles)).map fun settings => ⟨settings, loader⟩

/-- The preprocessor that recognizes one more comment style. Whether its comments are dropped is
decided here, whatever the style itself says. -/
def addStyle (preprocessor : Preprocessor) (style : CommentStyle) (strip : Bool) : Preprocessor :=
  { preprocessor with settings := preprocessor.settings.addStyle (style.stripped strip) }

/-- Processes the file at a path. -/
def runFile (preprocessor : Preprocessor) (context : Context) (path : String) : Outcome Node :=
  Splice.runFile context (some preprocessor.settings) preprocessor.loader path

/-- Processes a text under a name. -/
def runText (preprocessor : Preprocessor) (context : Context) (name : String) (content : Text) :
    Outcome Node :=
  Splice.runText context (some preprocessor.settings) preprocessor.loader name content

/-- The processed text of the file at a path. -/
def process (preprocessor : Preprocessor) (context : Context) (path : String) : Outcome Text :=
  match preprocessor.runFile context path with
  | (session, .ok node) => (session, .ok node.render)
  | (session, .error fault) => (session, .error fault)

end Preprocessor

end Splice

import Splice.Preprocessor

/-!
# Programs that use the library

A program has one context and acts in it, one action after the other. Some actions change the
settings in force. The others have a source scanned or files processed, with settings of their own
or with those in force; each of these tells the program what came of it.
-/

namespace Splice

/-- What a program is told of a run: its result, what the loader was asked, and the log. -/
structure Report (α : Type) where
  result : Except Fault α
  calls : List Call
  log : List Log.Record

/-- What is told of a run with the given outcome. -/
def Outcome.report {α : Type} (outcome : Outcome α) : Report α :=
  ⟨outcome.2, outcome.1.calls, outcome.1.log⟩

/-- What a program can do. -/
inductive Action where
  /-- Put other settings in force. -/
  | set (settings : Settings)
  /-- Put the default settings in force. -/
  | reset
  /-- Enter a scope in which other settings are in force. -/
  | enter (settings : Settings)
  /-- Leave the scope with the given number. -/
  | leave (scope : Int)
  /-- Scan a source. -/
  | scan (trigger : Option Text) (styles : Option Styles) (source : Text)
  /-- Process the file at a path. -/
  | runFile (settings : Option Settings) (loader : Loader) (path : String)
  /-- Process a text under a name. -/
  | runText (settings : Option Settings) (loader : Loader) (name : String) (content : Text)
  /-- Process the file at a path with a preprocessor. -/
  | preprocessFile (preprocessor : Preprocessor) (path : String)
  /-- Process a text under a name with a preprocessor. -/
  | preprocessText (preprocessor : Preprocessor) (name : String) (content : Text)
  /-- Get the processed text of the file at a path from a preprocessor. -/
  | process (preprocessor : Preprocessor) (path : String)

/-- What a program is told of an action. -/
inductive Answer where
  /-- The settings in force are as they should be. -/
  | done
  /-- There is no scope with the number. -/
  | noScope
  /-- The tokens of a source. -/
  | tokens (result : Except Fault (List Token))
  /-- The tree of a file. -/
  | tree (report : Report Node)
  /-- The processed text of a file. -/
  | text (report : Report Text)

/-- Carries out an action: the context after it, and what the program is told. -/
def Action.perform : Action → Context → Context × Answer
  | set settings, context => (context.set settings, .done)
  | reset, context => (context.reset, .done)
  | enter settings, context => (context.enter settings, .done)
  | leave scope, context =>
    match context.leave? scope with
    | some outer => (outer, .done)
    | none => (context, .noScope)
  | scan trigger styles source, context =>
    (context, .tokens (context.tokens trigger styles source))
  | runFile settings loader path, context =>
    (context, .tree (Splice.runFile context settings loader path).report)
  | runText settings loader name content, context =>
    (context, .tree (Splice.runText context settings loader name content).report)
  | preprocessFile preprocessor path, context =>
    (context, .tree (preprocessor.runFile context path).report)
  | preprocessText preprocessor name content, context =>
    (context, .tree (preprocessor.runText context name content).report)
  | process preprocessor path, context =>
    (context, .text (preprocessor.process context path).report)

/-- Carries out actions one after the other: the context after them, and what the program is told
of each. -/
def Action.performAll : List Action → Context → Context × List Answer
  | [], context => (context, [])
  | action :: actions, context =>
    let (context, answer) := action.perform context
    let (context, answers) := performAll actions context
    (context, answer :: answers)

end Splice

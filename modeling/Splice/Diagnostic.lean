import Splice.Token

/-!
# Diagnostics

A diagnostic says why a run was given up: what kind of problem it is, its wording, and where in the
sources it was found.
-/

namespace Splice

/-- What can be wrong with the tokens of a directive line. -/
inductive DirectiveFault where
  /-- The trigger is not followed by a word. -/
  | missingCommand
  /-- The word after the trigger is no command. -/
  | unknownCommand (name : Text)
  /-- The line ends right after the command. -/
  | missingArgument (name : Text)
  /-- The command is followed by something else than one string and the line end. -/
  | notOneString (name : Text)
  /-- A token stands outside any directive line. -/
  | strayToken (kind : String)
deriving DecidableEq

/-- The wording of a directive fault. -/
def DirectiveFault.message : DirectiveFault → String
  | missingCommand => "expecting command identifier"
  | unknownCommand name => "unknown command " ++ String.ofList name
  | missingArgument name =>
    "command " ++ String.ofList name ++ " is missing its string argument"
  | notOneString name => "command " ++ String.ofList name ++ " takes a single string argument"
  | strayToken kind => "unexpected token " ++ kind

namespace Diagnostic

/-- The kinds of problems. -/
inductive Kind where
  /-- Any problem at all. -/
  | any
  /-- A problem that makes a run be given up. -/
  | processing
  /-- Characters that make no directive line. -/
  | lexical
  /-- Tokens that make no directive. -/
  | directive
  /-- Files nested too deep. -/
  | depth
  /-- An error that a source itself asks for. -/
  | requested
  /-- A file that cannot be read. -/
  | load
deriving DecidableEq

/-- A kind and the kinds that it is a case of, up to the widest. -/
def Kind.lineage : Kind → List Kind
  | any => [any]
  | processing => [processing, any]
  | kind => [kind, processing, any]

end Diagnostic

/-- A problem with the sources. -/
structure Diagnostic where
  kind : Diagnostic.Kind
  /-- The wording, without the location. -/
  text : String
  /-- Where the problem was found. -/
  location : Option Position
  /-- The file that could not be read. -/
  path : Option String
deriving DecidableEq

namespace Diagnostic

/-- A problem with the characters of a directive line. -/
def ofLexicalFault (fault : LexicalFault) (location : Position) : Diagnostic :=
  ⟨.lexical, fault.message, some location, none⟩

/-- A problem with the tokens of a directive line. -/
def ofDirectiveFault (fault : DirectiveFault) (location : Position) : Diagnostic :=
  ⟨.directive, fault.message, some location, none⟩

/-- A request for a file in a file that is nested as deep as allowed. -/
def tooDeep (maxDepth : Nat) (location : Position) : Diagnostic :=
  ⟨.depth, "maximum include depth reached (" ++ Text.showInt maxDepth ++ ")", some location, none⟩

/-- An error that a source asks for, in its own words. -/
def requested (message : Text) (location : Position) : Diagnostic :=
  ⟨.requested, String.ofList message, some location, none⟩

/-- A diagnostic as it is reported: the location, if there is one, goes before the wording. -/
def message (diagnostic : Diagnostic) : String :=
  match diagnostic.location with
  | none => diagnostic.text
  | some p => p.describe ++ ": " ++ diagnostic.text

end Diagnostic

end Splice

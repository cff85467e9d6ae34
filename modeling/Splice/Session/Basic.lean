import Splice.Diagnostic
import Splice.Loader.Basic
import Splice.Log
import Splice.Node.Basic
import Splice.Path
import Splice.Settings

/-!
# Sessions

A session is the state of one run: the files under construction, innermost first, the identities
that have been met, and what has been asked of the loader and written to the log. This module has
the single steps; `Splice.Session.Run` puts them together.
-/

namespace Splice

/-- A file whose children are still being collected. -/
structure Frame where
  location : Position
  name : String
  path : String
  /-- The children so far, in output order. -/
  children : List Node
deriving DecidableEq

/-- The node of a file whose children are complete. -/
def Frame.freeze (frame : Frame) : Node :=
  .file frame.location frame.name frame.path frame.children

/-- A question to the loader. -/
inductive Call where
  | canonical (path : String)
  | read (path : String)
deriving DecidableEq

/-- Why a step of a session failed. -/
inductive Fault where
  /-- There is a problem with the sources. -/
  | problem (diagnostic : Diagnostic)
  /-- A path is asked for that the loader has no use for. -/
  | unusablePath (text : String)
  /-- Comment styles are needed and there are none. -/
  | noStyles
  /-- A node is to be added, and no file is under construction. -/
  | noOpenFile
  /-- A file is to be left, and none is under construction. -/
  | emptyStack
deriving DecidableEq

/-- The wording of a fault. -/
def Fault.message : Fault → String
  | problem diagnostic => diagnostic.message
  | unusablePath text => text
  | noStyles => "no comment styles"
  | noOpenFile => "no file is being parsed"
  | emptyStack => "no file to leave"

/-- The state of a run. -/
structure Session where
  settings : Settings
  /-- The comment styles of the context, used where the settings have none. -/
  fallback : Option Styles
  /-- The number of files under construction. It falls below that if more files are left than were
  entered. -/
  depth : Int
  /-- The identities that a request for one time only is skipped for. -/
  visited : List String
  /-- The files under construction, innermost first. -/
  frames : List Frame
  /-- What the loader was asked, in order. -/
  calls : List Call
  /-- The log, in order. -/
  log : List Log.Record

/-- The result of a step, and the state after it, which holds also when the step failed. -/
abbrev Outcome (α : Type) := Session × Except Fault α

namespace Session

/-- A session at its start. -/
def start (settings : Settings) (fallback : Option Styles) : Session where
  settings := settings
  fallback := fallback
  depth := 0
  visited := []
  frames := []
  calls := []
  log := []

/-- The innermost file under construction. -/
def current? (session : Session) : Option Frame :=
  session.frames.head?

/-- How many more files may be nested in the innermost one. -/
def room (session : Session) : Nat :=
  (session.settings.maxDepth - session.depth).toNat

/-- Enters a file. -/
def push (session : Session) (frame : Frame) : Session :=
  { session with frames := frame :: session.frames, depth := session.depth + 1 }

/-- Leaves the innermost file. The depth goes down even if there is none to leave. -/
def pop (session : Session) : Outcome Frame :=
  let session := { session with depth := session.depth - 1 }
  match session.frames with
  | [] => (session, .error .emptyStack)
  | frame :: frames => ({ session with frames := frames }, .ok frame)

/-- Adds a node to the innermost file under construction. -/
def append (session : Session) (node : Node) : Outcome Unit :=
  match session.frames with
  | [] => (session, .error .noOpenFile)
  | frame :: frames =>
    ({ session with frames := { frame with children := frame.children ++ [node] } :: frames },
      .ok ())

/-- Adds a node to the innermost file under construction, if there is one. -/
def attach (session : Session) (node : Node) : Session :=
  (session.append node).1

/-- The name of the file that is asked for by `target`: a relative path starts at the directory of
the innermost file. -/
def resolve (session : Session) (target : String) : String :=
  match session.current? with
  | none => target
  | some frame => Path.relativeTo frame.name target

/-- Counts an identity as met. -/
def visit (session : Session) (identity : String) : Session :=
  if identity ∈ session.visited then session
  else { session with visited := session.visited ++ [identity] }

/-- Adds a record to the log. -/
def note (session : Session) (record : Log.Record) : Session :=
  { session with log := session.log ++ [record] }

/-- Asks the loader for the identity of a path. -/
def identify (session : Session) (loader : Loader) (path : String) : Outcome String :=
  ({ session with
      calls := session.calls ++ [.canonical path]
      log := session.log ++ (loader.warnings path).map .warning },
    (loader.canonical path).mapError .unusablePath)

/-- Asks the loader for the content of a path. A failure that has no location is put at that of the
request. -/
def load (session : Session) (loader : Loader) (path : String) (location : Position) :
    Outcome Text :=
  ({ session with calls := session.calls ++ [.read path] },
    match loader.read path with
    | .ok content => .ok content
    | .error (.unreadable text place failed) =>
      .error (.problem ⟨.load, text, some (place.getD location), failed⟩)
    | .error (.unusable text) => .error (.unusablePath text))

end Session

end Splice

import Splice.Item
import Splice.Session.Basic

/-!
# Running a session

A file is run by carrying out its items in order. A request for another file leads to that file
being run in turn, nested in the first. The number of levels that are left decides how far this
goes: a request that is met with no level left is refused, so the nesting is a recursion on that
number, and `Session.room` says what it is at each point.
-/

namespace Splice.Session

/-- The comment styles by which comments are found: those of the settings, else those of the
context. -/
def scanStyles (session : Session) : Option Styles :=
  session.settings.styles.or session.fallback

/-- How the sources of a session are scanned. -/
def dialect (session : Session) : Dialect :=
  ⟨session.settings.trigger, session.scanStyles.getD []⟩

/-- Keeps text. Text cannot be told from comments without any comment styles. -/
def keepText (session : Session) (location : Position) (content : Text) : Outcome Unit :=
  match session.scanStyles with
  | none => (session, .error .noStyles)
  | some _ => session.append (.text location content)

/-- Keeps a comment, with the style of the settings by which it is one. -/
def keepComment (session : Session) (location : Position) (content : Text) : Outcome Unit :=
  match session.settings.styles with
  | none => (session, .error .noStyles)
  | some styles => session.append (.comment location content (styles.first? content))

/-- Carries out items in order, up to the first that fails; `serve` answers requests. -/
def perform (serve : Request → Session → Outcome (Option Node)) :
    List Item → Session → Outcome Unit
  | [], session => (session, .ok ())
  | item :: items, session =>
    match item with
    | .text location content =>
      match session.keepText location content with
      | (session, .ok ()) => perform serve items session
      | (session, .error fault) => (session, .error fault)
    | .comment location content =>
      match session.keepComment location content with
      | (session, .ok ()) => perform serve items session
      | (session, .error fault) => (session, .error fault)
    | .request request =>
      match serve request session with
      | (session, .ok _) => perform serve items session
      | (session, .error fault) => (session, .error fault)
    | .failure diagnostic => (session, .error (.problem diagnostic))

/-- Leaves a file that was entered: it is closed whether or not it was run to its end, and becomes a
child of the file around it only if it was. -/
def close (name : String) : Outcome Unit → Outcome Node
  | (session, result) =>
    match session.pop with
    | (session, .error fault) => (session.note (.leaving name), .error fault)
    | (session, .ok frame) =>
      let session := session.note (.leaving name)
      match result with
      | .error fault => (session, .error fault)
      | .ok () => (session.attach frame.freeze, .ok frame.freeze)

/-- Runs a source as a file nested in the innermost one. -/
def runFile (serve : Request → Session → Outcome (Option Node)) (source : Text)
    (name path : String) (location : Position) (session : Session) : Outcome Node :=
  let session := session.push ⟨location, name, path, []⟩
  let session := session.note (.entering name session.depth)
  close name (perform serve (session.dialect.items name source) session)

/-- Answers a request with the node of the file, or with none if it is skipped. The number is that
of the levels that are left. -/
def serveWithin (loader : Loader) : Nat → Request → Session → Outcome (Option Node)
  | 0, request, session =>
    (session, .error (.problem (.tooDeep session.settings.maxDepth request.location)))
  | room + 1, request, session =>
    let name := session.resolve request.target
    match session.identify loader name with
    | (session, .error fault) => (session, .error fault)
    | (session, .ok identity) =>
      if request.once && session.visited.contains identity then
        (session.note (.skipping request.location name), .ok none)
      else
        let session := if request.once then session.visit identity else session
        match session.load loader name request.location with
        | (session, .error fault) => (session, .error fault)
        | (session, .ok source) =>
          match runFile (serveWithin loader room) source name identity request.location session with
          | (session, .ok node) => (session, .ok (some node))
          | (session, .error fault) => (session, .error fault)

/-- Answers a request: the levels that are left are those between the depth of the session and the
greatest depth of its settings. -/
def serve (loader : Loader) (request : Request) (session : Session) : Outcome (Option Node) :=
  serveWithin loader session.room request session

/-- Carries out the items of a source, as part of the innermost file. -/
def runItems (loader : Loader) (source : Text) (name : String) (session : Session) :
    Outcome Unit :=
  perform (serveWithin loader session.room) (session.dialect.items name source) session

/-- Runs a source as a file, nested in the innermost one if there is one. -/
def runSource (loader : Loader) (source : Text) (name path : String) (location : Position)
    (session : Session) : Outcome Node :=
  runFile (serveWithin loader (session.room - 1)) source name path location session

/-- Reads a top-level file and runs it. It counts as met, so that a later request for it, one time
only, is skipped. -/
def runRoot (loader : Loader) (path : String) (session : Session) : Outcome Node :=
  match session.identify loader path with
  | (session, .error fault) => (session, .error fault)
  | (session, .ok identity) =>
    let session := session.visit identity
    match session.load loader path (.start path) with
    | (session, .error fault) => (session, .error fault)
    | (session, .ok source) => session.runSource loader source path identity (.start path)

end Splice.Session

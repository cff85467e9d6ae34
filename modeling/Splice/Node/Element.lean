import Splice.Node.Json
import Splice.Node.Visit

/-!
# Elements

An element of a tree is a node or a bare position without content. A bare position has no text, so
questions about its text have no answer, and neither leaves nor files can be asked of anything but a
file. Both kinds of element can be written as JSON and visited.
-/

namespace Splice

/-- An element of a tree: a bare position or a node. -/
inductive Element where
  | bare (location : Position)
  | node (node : Node)
deriving DecidableEq

namespace Element

/-- Why a question to an element has no answer. -/
inductive Refusal where
  /-- The element has no text. -/
  | noText
  /-- The element is not a file. -/
  | notAFile

/-- The answer of a node to a question that a bare position cannot answer. -/
def ofNode {α : Type} (element : Element) (question : Node → α) : Except Refusal α :=
  match element with
  | bare _ => .error .noText
  | node n => .ok (question n)

/-- The answer of a file to a question that nothing else can answer. -/
def ofFile {α : Type} (element : Element) (question : Node → α) : Except Refusal α :=
  match element with
  | node (.file p name path children) => .ok (question (.file p name path children))
  | _ => .error .notAFile

/-- The name of an element's kind. -/
def kind : Element → String
  | bare _ => "Node"
  | node n => n.kind

/-- An element as JSON. -/
def toJson : Element → Json
  | bare p => .record [("_type", .text "Node"), ("location", p.toJson)]
  | node n => n.toJson

/-- An element as a JSON text. -/
def toText (layout : Json.Layout) (element : Element) : Text :=
  element.toJson.print layout

/-- Whether an element is the same after it is written as a JSON text and read as a file tree. -/
def survives (element : Element) : Except FormatError Bool :=
  (Node.ofText none (element.toText .compact)).map fun n => element = node n

/-- A visit to an element; `bare?` is the handler of bare positions, if there is one. -/
def visit {α : Type} (visitor : Visitor α) (bare? : Option (Position → α)) :
    Element → Option α × List α
  | bare p =>
    let value := bare?.map fun handle => handle p
    (value, value.toList)
  | node n => visitor.visit n

end Element

end Splice

import Splice.Node.Basic
import Splice.Node.Stored.Reader

/-!
# Trees as JSON

A tree of nodes is stored as it is (`Node.stored`), and a stored tree is one of nodes if each value
is what belongs in its place (`Stored.node?`). By these two steps nodes are written as JSON and read
from it.
-/

namespace Splice

/-! ### Storing -/

/-- A position as it is stored. -/
def Position.stored (p : Position) : Stored :=
  .position (.text p.source) (.integer p.line) (.integer p.column)

/-- A comment style as it is stored. -/
def CommentStyle.stored (style : CommentStyle) : Stored :=
  .style (.chars style.opener) (.chars style.closer) style.strip

/-- A comment style as it is stored, or null if there is none. -/
def CommentStyle.stored? : Option CommentStyle → Stored
  | none => .plain .null
  | some style => style.stored

mutual

/-- A node as it is stored. -/
def Node.stored : Node → Stored
  | .text p s => .text p.stored (.ofText s)
  | .comment p s style => .comment p.stored (.ofText s) (CommentStyle.stored? style)
  | .file p name path children =>
    .file p.stored (.ofText name.toList) (.ofText path.toList) (.items (Node.storedAll children))

/-- Nodes in a row as they are stored. -/
def Node.storedAll : List Node → List Stored
  | [] => []
  | node :: nodes => node.stored :: Node.storedAll nodes

end

/-! ### Restoring -/

namespace Stored

/-- The text that is stored. -/
def text? : Stored → Option Text
  | plain json => json.text?
  | _ => none

/-- The position that is stored. -/
def position? : Stored → Option Position
  | position source line column => do
    return ⟨String.ofList (← source.text?), ← line.integer?, ← column.integer?⟩
  | _ => none

/-- The comment style that is stored. A closing delimiter that counts as false is empty. -/
def style? : Stored → Option CommentStyle
  | style opener closer strip => do
    let closer ← if closer.truthy then closer.text? else some []
    CommentStyle.make? (← opener.text?) closer strip
  | _ => none

/-- The comment style that is stored, or null if there is none. -/
def optionalStyle? : Stored → Option (Option CommentStyle)
  | plain .null => some none
  | value => value.style?.map some

mutual

/-- The node that is stored. -/
def node? : Stored → Option Node
  | text location content => do return .text (← location.position?) (← content.text?)
  | comment location content delimiters => do
    return .comment (← location.position?) (← content.text?) (← delimiters.optionalStyle?)
  | file location name path children => do
    return .file (← location.position?) (String.ofList (← name.text?))
      (String.ofList (← path.text?)) (← children.nodes?)
  | _ => none

/-- The nodes that are stored in a row. -/
def nodes? : Stored → Option (List Node)
  | items values => allNodes? values
  | _ => none

/-- The nodes that stored values in a row are. -/
def allNodes? : List Stored → Option (List Node)
  | [] => some []
  | value :: values => do return (← value.node?) :: (← allNodes? values)

end

/-- What was restored, or the error that something else is stored. -/
def restored {α : Type} : Option α → Except FormatError α
  | some a => .ok a
  | none => .error .wrongValue

end Stored

/-! ### Writing -/

/-- A position as JSON. -/
def Position.toJson (p : Position) : Json :=
  p.stored.toJson

/-- A node as JSON. -/
def Node.toJson (node : Node) : Json :=
  node.stored.toJson

/-- A node as a JSON text. -/
def Node.toText (layout : Json.Layout) (node : Node) : Text :=
  node.stored.toText layout

/-! ### Reading -/

/-- The comment style of the given members. -/
def CommentStyle.ofMembers (members : List (Json.Str × Json)) :
    Except FormatError CommentStyle := do
  Stored.restored (← Stored.styleOfMembers members).style?

/-- The node that a JSON value stands for. -/
def Node.ofJson (json : Json) : Except FormatError Node := do
  Stored.restored (← Stored.nodeOfJson json).node?

/-- The file tree that a JSON text stands for. Where a limit is given, a text with a whole number of
more digits is refused. -/
def Node.ofText (limit : Option Nat) (s : Text) : Except FormatError Node := do
  Stored.restored (← Stored.fileOfText limit s).node?

end Splice

import Splice.Json.Printer
import Splice.Json.Sorted

/-!
# Stored trees

An output tree is stored as JSON. Nodes, positions and comment styles are objects whose member
`_type` says what they are, with their members in alphabetical order.

A stored tree may hold more than a tree of nodes does: its strings need not be text, and any value
can stand in the place of another. What it holds is written as it was read, and it is only asked for
its processed text, which it has if there are nodes where nodes are needed, with strings as their
content. `Splice.Node.Stored.Reader` reads stored trees, and `Splice.Node.Json` has the step between
them and trees of nodes.
-/

namespace Splice

/-- Anything that can stand in a stored tree. -/
inductive Stored where
  | text (location content : Stored)
  | comment (location content style : Stored)
  | file (location name path children : Stored)
  | position (source line column : Json)
  | style (opener closer : Json) (strip : Bool)
  | items (values : List Stored)
  /-- A value that stands for itself. -/
  | plain (json : Json)

namespace Stored

/-- A stored text. -/
def ofText (s : Text) : Stored :=
  .plain (.chars s)

/-! ### Writing -/

mutual

/-- What is stored, as JSON. -/
def toJson : Stored → Json
  | text location content =>
    .record [("_type", .text "Text"), ("content", content.toJson), ("location", location.toJson)]
  | comment location content delimiters =>
    .record [("_type", .text "Comment"), ("commenter", delimiters.toJson),
      ("content", content.toJson), ("location", location.toJson)]
  | file location name path children =>
    .record [("_type", .text "File"), ("children", children.toJson), ("location", location.toJson),
      ("name", name.toJson), ("path", path.toJson)]
  | position source line column =>
    .record [("_type", .text "PosInfo"), ("column", column.sorted), ("line", line.sorted),
      ("source_name", source.sorted)]
  | style opener closer strip =>
    .record [("_type", .text "Commenter"), ("begin", opener.sorted), ("end", closer.sorted),
      ("strip", .bool strip)]
  | items values => .array (toJsonAll values)
  | plain json => json.sorted

/-- What is stored in a row, as JSON. -/
def toJsonAll : List Stored → List Json
  | [] => []
  | value :: values => value.toJson :: toJsonAll values

end

/-- What is stored, as a JSON text. -/
def toText (layout : Json.Layout) (value : Stored) : Text :=
  value.toJson.print layout

/-! ### Rendering -/

/-- Why something stored has no processed text. -/
inductive RenderError where
  /-- Something stands in the place of a node. -/
  | notANode
  /-- The children of a file are nothing that could hold nodes. -/
  | noChildren
  /-- The content of a node is no string. -/
  | notAString
deriving DecidableEq

/-- The string that a stored value is, if it is one. -/
def str? : Stored → Option Json.Str
  | plain (.string s) => some s
  | _ => none

/-- The string of pieces in a row, if all of them are strings. -/
def join (pieces : List (Option Json.Str)) : Except RenderError Json.Str :=
  match pieces.mapM id with
  | some strings => .ok strings.flatten
  | none => .error .notAString

mutual

/-- The piece that a node adds to the processed text, if its content is a string. In a file all of
the pieces are taken up before they are put together, so a child that is no node is found before a
content that is no string. -/
def piece : Stored → Except RenderError (Option Json.Str)
  | text _ content => .ok content.str?
  | comment _ content _ => .ok content.str?
  | file _ _ _ children => do return some (← join (← pieces children))
  | _ => .error .notANode

/-- The pieces of the children of a file. The symbols of a string and the keys of an object are
children that are no nodes. -/
def pieces : Stored → Except RenderError (List (Option Json.Str))
  | items values => piecesOf values
  | plain (.string s) => if s.isEmpty then .ok [] else .error .notANode
  | plain (.object members) => if members.isEmpty then .ok [] else .error .notANode
  | _ => .error .noChildren

/-- The pieces of values in a row. -/
def piecesOf : List Stored → Except RenderError (List (Option Json.Str))
  | [] => .ok []
  | value :: values => do return (← value.piece) :: (← piecesOf values)

end

/-- The processed text of a stored node. -/
def render (node : Stored) : Except RenderError Json.Str := do
  join [← node.piece]

end Stored

end Splice

import Splice.Node.Basic

/-!
# Visiting a tree

A visitor has a handler for each kind of node, and one for all kinds that have no handler of their
own; each may be left out. A visit goes over a tree from the root, a file before its children and
the children in order, and gives each node to its handler.
-/

namespace Splice

/-- What to do at each kind of node. -/
structure Visitor (α : Type) where
  file? : Option (Node → α)
  text? : Option (Node → α)
  comment? : Option (Node → α)
  /-- The handler of the nodes whose kind has none. -/
  default? : Option (Node → α)

namespace Visitor

variable {α : Type}

/-- The handler for a node: that of its kind, else the default one, if there is one. -/
def handler? (visitor : Visitor α) : Node → Option (Node → α)
  | .file .. => visitor.file?.or visitor.default?
  | .text .. => visitor.text?.or visitor.default?
  | .comment .. => visitor.comment?.or visitor.default?

/-- The value of a node's handler at the node. -/
def value? (visitor : Visitor α) (node : Node) : Option α :=
  (visitor.handler? node).map fun handle => handle node

mutual

/-- The values of all handlers called during a visit, in order. -/
def events (visitor : Visitor α) : Node → List α
  | .text p s => (visitor.value? (.text p s)).toList
  | .comment p s style => (visitor.value? (.comment p s style)).toList
  | .file p name path children =>
    (visitor.value? (.file p name path children)).toList ++ visitor.eventsAll children

/-- The values of all handlers called while nodes in a row are visited, in order. -/
def eventsAll (visitor : Visitor α) : List Node → List α
  | [] => []
  | node :: nodes => visitor.events node ++ visitor.eventsAll nodes

end

/-- A visit: the value of the root's handler, and the values of all handlers in order. -/
def visit (visitor : Visitor α) (node : Node) : Option α × List α :=
  (visitor.value? node, visitor.events node)

end Visitor

end Splice

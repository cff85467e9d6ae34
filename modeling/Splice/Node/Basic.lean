import Splice.CommentStyle
import Splice.Position

/-!
# The output tree

A run produces one file node for each file it processes. The children of a file are the text and the
kept comments of that file and the nodes of the files spliced in, in output order. Every node
renders to text, and a place in that text leads back to the position it came from.
-/

namespace Splice

/-- A node of the output tree. -/
inductive Node where
  /-- Plain text passed through to the output. -/
  | text (location : Position) (content : Text)
  /-- A kept comment, delimiters included, and the style it was recognized by. -/
  | comment (location : Position) (content : Text) (style : Option CommentStyle)
  /-- A processed file. The location of the top-level file is its own start, that of a file spliced
  in is the directive that asked for it; `path` is the identity of the file. -/
  | file (location : Position) (name path : String) (children : List Node)

namespace Node

mutual

/-- Equality of nodes is decidable. -/
def decEq : (a b : Node) → Decidable (a = b)
  | text p s, text q t => decidable_of_iff (p = q ∧ s = t) (by simp)
  | comment p s x, comment q t y => decidable_of_iff (p = q ∧ s = t ∧ x = y) (by simp)
  | file p n a cs, file q m b ds =>
    match decEqAll cs ds with
    | isTrue h => decidable_of_iff (p = q ∧ n = m ∧ a = b) (by simp [h])
    | isFalse h => isFalse (by simp [h])
  | text .., comment .. => isFalse (by simp)
  | text .., file .. => isFalse (by simp)
  | comment .., text .. => isFalse (by simp)
  | comment .., file .. => isFalse (by simp)
  | file .., text .. => isFalse (by simp)
  | file .., comment .. => isFalse (by simp)

/-- Equality of lists of nodes is decidable. -/
def decEqAll : (as bs : List Node) → Decidable (as = bs)
  | [], [] => isTrue rfl
  | a :: as, b :: bs =>
    match decEq a b with
    | isTrue h =>
      match decEqAll as bs with
      | isTrue hs => isTrue (by rw [h, hs])
      | isFalse hs => isFalse (by simp [hs])
    | isFalse h => isFalse (by simp [h])
  | [], _ :: _ => isFalse (by simp)
  | _ :: _, [] => isFalse (by simp)

end

instance : DecidableEq Node :=
  decEq

/-- The position that a node came from. -/
def location : Node → Position
  | text p _ | comment p _ _ | file p _ _ _ => p

/-- The name of a node's kind. -/
def kind : Node → String
  | text .. => "Text"
  | comment .. => "Comment"
  | file .. => "File"

mutual

/-- The processed text of a node. -/
def render : Node → Text
  | text _ s => s
  | comment _ s _ => s
  | file _ _ _ children => renderAll children

/-- The processed text of nodes in a row. -/
def renderAll : List Node → Text
  | [] => []
  | node :: nodes => node.render ++ renderAll nodes

end

mutual

/-- The length of a node's processed text. -/
def length : Node → Nat
  | text _ s => s.length
  | comment _ s _ => s.length
  | file _ _ _ children => lengthAll children

/-- The length of the processed text of nodes in a row. -/
def lengthAll : List Node → Nat
  | [] => 0
  | node :: nodes => node.length + lengthAll nodes

end

mutual

/-- The source position of the character at an offset in the processed text; there is none outside
it. -/
def offset? : Node → Int → Option Position
  | text p s, n => p.within? s n
  | comment p s _, n => p.within? s n
  | file _ _ _ children, n => if n < 0 then none else offsetAll? children n

/-- The source position of the character at an offset in the processed text of nodes in a row. -/
def offsetAll? : List Node → Int → Option Position
  | [], _ => none
  | node :: nodes, n =>
    if n < node.length then node.offset? n else offsetAll? nodes (n - node.length)

end

/-- The source position of the character at a line and column of the processed text. -/
def lineColumn? (node : Node) (line column : Int) : Option Position :=
  (node.render.offsetAt? line column).bind fun offset => node.offset? offset

mutual

/-- The text and comment nodes in a node, in output order. -/
def leaves : Node → List Node
  | text p s => [text p s]
  | comment p s style => [comment p s style]
  | file _ _ _ children => leavesAll children

/-- The text and comment nodes in nodes in a row, in output order. -/
def leavesAll : List Node → List Node
  | [] => []
  | node :: nodes => node.leaves ++ leavesAll nodes

end

mutual

/-- The files spliced into a node, each before those spliced into it, in output order. -/
def files : Node → List Node
  | text .. => []
  | comment .. => []
  | file _ _ _ children => filesAll children

/-- The file nodes in nodes in a row, each before those spliced into it, in output order. -/
def filesAll : List Node → List Node
  | [] => []
  | text .. :: nodes => filesAll nodes
  | comment .. :: nodes => filesAll nodes
  | file p name path children :: nodes =>
    file p name path children :: (filesAll children ++ filesAll nodes)

end

/-- The children of a node, if it is a file. -/
def children? : Node → Option (List Node)
  | file _ _ _ children => some children
  | _ => none

end Node

end Splice

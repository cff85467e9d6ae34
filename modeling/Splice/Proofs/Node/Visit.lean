import Mathlib.Tactic.Common
import Splice.Node.Visit

/-!
# One order for all walks

A tree is walked by a visit, which gives its nodes to their handlers, by the list of its leaves and
by the list of its files. These are three recursions, and they go over the nodes in one order: a
file comes before its children, and the children come in order.

This order can be said without any recursion over the tree. The address of a node is the list of
the indices that lead to it from the root (`Node.descendant?`), and the order is the lexicographic
one of the addresses: an address comes before those that go on from it, and two that part somewhere
are in the order of the indices at which they part. Nodes are in preorder if they are those at all
addresses, in this order (`Node.InPreorder`). Since addresses go up strictly, none is there twice,
also if a tree has the same node in several places.

What is visited is what a visitor with all handlers is given (`Visitor.recorder`). It is in preorder
(`Node.inPreorder_recorder`), and every other visitor has the values of its handlers at these nodes
(`Visitor.events_eq_filterMap`).
-/

namespace Splice

namespace Node

/-! ### Addresses -/

/-- Whether a node is a file. -/
def isFile : Node → Bool
  | file .. => true
  | text .. => false
  | comment .. => false

/-- The node at an address: the indices that lead to it from the root, each among the children of
the file before it. -/
def descendant? : Node → List Nat → Option Node
  | root, [] => some root
  | root, index :: address =>
    (root.children?.bind fun children => children[index]?).bind fun child =>
      child.descendant? address

/-- The nodes are all those of the tree, each once, a file before its children and the children in
order: with their addresses they are what is found at the addresses of the tree, and the addresses
go up. -/
def InPreorder (root : Node) (nodes : List Node) : Prop :=
  ∃ located : List (List Nat × Node), located.map Prod.snd = nodes ∧
    located.Pairwise (fun earlier later => List.Lex (· < ·) earlier.1 later.1) ∧
    ∀ address node, (address, node) ∈ located ↔ root.descendant? address = some node

mutual

/-- The nodes of a tree with their addresses. -/
def located : Node → List (List Nat × Node)
  | text p s => [([], text p s)]
  | comment p s style => [([], comment p s style)]
  | file p name path children => ([], file p name path children) :: locatedFrom 0 children

/-- The nodes of trees in a row with their addresses, where the first tree has the given index. -/
def locatedFrom : Nat → List Node → List (List Nat × Node)
  | _, [] => []
  | index, node :: nodes =>
    (node.located.map fun entry => (index :: entry.1, entry.2)) ++ locatedFrom (index + 1) nodes

end

/-- Below a file are its children and what is below them. -/
lemma descendant?_file_eq_some_iff {location : Position} {name path : String}
    {children : List Node} {index : Nat} {address : List Nat} {node : Node} :
    (file location name path children).descendant? (index :: address) = some node ↔
      ∃ child, children[index]? = some child ∧ child.descendant? address = some node := by
  rw [descendant?, children?, Option.bind_some, Option.bind_eq_some_iff]

/-- A node without children has one address, that of the root. -/
lemma mem_singleton_iff_descendant? {root : Node} (h : root.children? = none) (address : List Nat)
    (node : Node) : (address, node) ∈ [([], root)] ↔ root.descendant? address = some node := by
  cases address with
  | nil => simp [descendant?, eq_comm]
  | cons index address => simp [descendant?, h]

mutual

/-- The nodes of a tree with their addresses are what is found at its addresses. -/
lemma mem_located_iff : (root : Node) → (address : List Nat) → (node : Node) →
    ((address, node) ∈ root.located ↔ root.descendant? address = some node)
  | text p s, address, node => mem_singleton_iff_descendant? rfl address node
  | comment p s style, address, node => mem_singleton_iff_descendant? rfl address node
  | file p name path children, address, node => by
    rw [located, List.mem_cons, mem_locatedFrom_iff children 0 address node]
    cases address with
    | nil => simp [descendant?, eq_comm]
    | cons index address => simp [descendant?_file_eq_some_iff]

/-- The nodes of trees in a row with their addresses are what is found in the tree with the first
index of the address. -/
lemma mem_locatedFrom_iff : (nodes : List Node) → (start : Nat) → (address : List Nat) →
    (node : Node) → ((address, node) ∈ locatedFrom start nodes ↔
      ∃ index rest child, address = (start + index) :: rest ∧ nodes[index]? = some child ∧
        child.descendant? rest = some node)
  | [], start, address, node => by simp [locatedFrom]
  | first :: nodes, start, address, node => by
    rw [locatedFrom, List.mem_append, mem_locatedFrom_iff nodes (start + 1) address node]
    constructor
    · rintro (hfirst | ⟨index, rest, child, haddress, hchild, hnode⟩)
      · obtain ⟨⟨rest, other⟩, hmem, heq⟩ := List.mem_map.1 hfirst
        cases heq
        exact ⟨0, rest, first, rfl, rfl, (mem_located_iff first rest _).1 hmem⟩
      · refine ⟨index + 1, rest, child, ?_, hchild, hnode⟩
        rw [haddress, Nat.add_assoc, Nat.add_comm 1 index]
    · rintro ⟨index, rest, child, rfl, hchild, hnode⟩
      cases index with
      | zero =>
        cases hchild
        exact Or.inl (List.mem_map.2 ⟨(rest, node), (mem_located_iff first rest node).2 hnode, rfl⟩)
      | succ index =>
        refine Or.inr ⟨index, rest, child, ?_, hchild, hnode⟩
        rw [Nat.add_assoc, Nat.add_comm 1 index]

end

mutual

/-- The addresses of the nodes of a tree go up. -/
lemma pairwise_located : (root : Node) →
    root.located.Pairwise fun earlier later => List.Lex (· < ·) earlier.1 later.1
  | text .. => List.pairwise_singleton _ _
  | comment .. => List.pairwise_singleton _ _
  | file p name path children => by
    rw [located, List.pairwise_cons]
    refine ⟨?_, pairwise_locatedFrom children 0⟩
    rintro ⟨address, node⟩ hmem
    obtain ⟨index, rest, child, rfl, -, -⟩ := (mem_locatedFrom_iff children 0 address node).1 hmem
    exact List.Lex.nil

/-- So do those of the nodes of trees in a row: the trees part at their indices. -/
lemma pairwise_locatedFrom : (nodes : List Node) → (start : Nat) →
    (locatedFrom start nodes).Pairwise fun earlier later => List.Lex (· < ·) earlier.1 later.1
  | [], _ => List.Pairwise.nil
  | first :: nodes, start => by
    rw [locatedFrom, List.pairwise_append, List.pairwise_map]
    refine ⟨(pairwise_located first).imp List.Lex.cons, pairwise_locatedFrom nodes (start + 1), ?_⟩
    rintro earlier hearlier ⟨address, node⟩ hlater
    obtain ⟨entry, -, rfl⟩ := List.mem_map.1 hearlier
    obtain ⟨index, rest, child, rfl, -, -⟩ :=
      (mem_locatedFrom_iff nodes (start + 1) address node).1 hlater
    exact List.Lex.rel (by omega)

end

end Node

/-! ### Visits -/

namespace Visitor

variable {α : Type}

/-- The visitor that records all nodes it is given. -/
def recorder : Visitor Node :=
  ⟨some id, some id, some id, some id⟩

/-- The handler for the kind of a node. -/
def own? (visitor : Visitor α) : Node → Option (Node → α)
  | .file .. => visitor.file?
  | .text .. => visitor.text?
  | .comment .. => visitor.comment?

/-- What a visitor makes of a node: the value of the handler for its kind, or else of the default
handler, and nothing if it has neither. -/
def response? (visitor : Visitor α) (node : Node) : Option α :=
  match visitor.own? node, visitor.default? with
  | some handle, _ => some (handle node)
  | none, some handle => some (handle node)
  | none, none => none

/-- The value of a node's handler is what the visitor makes of the node. -/
lemma value?_eq_response? (visitor : Visitor α) (node : Node) :
    visitor.value? node = visitor.response? node := by
  have hhandler : visitor.handler? node = (visitor.own? node).or visitor.default? := by
    cases node <;> rfl
  rw [value?, hhandler, response?]
  cases visitor.own? node with
  | some handle => rfl
  | none => cases visitor.default? <;> rfl

/-- The recorder keeps every node. -/
lemma value?_recorder (node : Node) : recorder.value? node = some node := by
  cases node <;> rfl

/-- The value at a node is the one at what the recorder keeps of it. -/
lemma toList_value? (visitor : Visitor α) (node : Node) :
    (visitor.value? node).toList = (recorder.value? node).toList.filterMap visitor.value? := by
  rw [value?_recorder, Option.toList_some, List.filterMap_cons]
  cases visitor.value? node <;> rfl

mutual

/-- The values of a visit are those at the nodes that are visited. -/
lemma events_eq_filterMap (visitor : Visitor α) : (root : Node) →
    visitor.events root = (recorder.events root).filterMap visitor.value?
  | .text .. => visitor.toList_value? _
  | .comment .. => visitor.toList_value? _
  | .file p name path children => by
    rw [events, events, List.filterMap_append, visitor.toList_value?,
      eventsAll_eq_filterMap visitor children]

/-- So are those of visits in a row. -/
lemma eventsAll_eq_filterMap (visitor : Visitor α) : (nodes : List Node) →
    visitor.eventsAll nodes = (recorder.eventsAll nodes).filterMap visitor.value?
  | [] => rfl
  | node :: nodes => by
    rw [eventsAll, eventsAll, List.filterMap_append, events_eq_filterMap visitor node,
      eventsAll_eq_filterMap visitor nodes]

end

end Visitor

namespace Node

open Visitor

mutual

/-- The nodes that are visited are those with addresses, in order. -/
lemma map_snd_located : (root : Node) → root.located.map Prod.snd = recorder.events root
  | text .. => rfl
  | comment .. => rfl
  | file p name path children => by
    rw [located, events, value?_recorder, List.map_cons, map_snd_locatedFrom children 0]
    rfl

/-- So are those that are visited in trees in a row. -/
lemma map_snd_locatedFrom : (nodes : List Node) → (start : Nat) →
    (locatedFrom start nodes).map Prod.snd = recorder.eventsAll nodes
  | [], _ => rfl
  | first :: nodes, start => by
    rw [locatedFrom, eventsAll, List.map_append, List.map_map, ← map_snd_located first,
      map_snd_locatedFrom nodes (start + 1)]
    rfl

end

/-- Nodes are visited in preorder. -/
lemma inPreorder_recorder (root : Node) : root.InPreorder (recorder.events root) :=
  ⟨root.located, map_snd_located root, pairwise_located root, mem_located_iff root⟩

mutual

/-- The nodes that are visited and are no files are the leaves. -/
lemma filter_leaves : (root : Node) →
    (recorder.events root).filter (fun node => !node.isFile) = root.leaves
  | text .. => rfl
  | comment .. => rfl
  | file p name path children => by
    rw [events, value?_recorder, Option.toList_some, List.singleton_append,
      List.filter_cons_of_neg (by simp [isFile]), filter_leavesAll children, leaves]

/-- So are those that are visited in trees in a row. -/
lemma filter_leavesAll : (nodes : List Node) →
    (recorder.eventsAll nodes).filter (fun node => !node.isFile) = leavesAll nodes
  | [] => rfl
  | node :: nodes => by
    rw [eventsAll, List.filter_append, filter_leaves node, filter_leavesAll nodes, leavesAll]

end

/-- The files that are visited in trees in a row are those in them. -/
lemma filter_filesAll : (nodes : List Node) →
    (recorder.eventsAll nodes).filter isFile = filesAll nodes
  | [] => by
    rw [filesAll]
    rfl
  | text p s :: nodes => by
    rw [eventsAll, List.filter_append, filter_filesAll nodes, filesAll]
    rfl
  | comment p s style :: nodes => by
    rw [eventsAll, List.filter_append, filter_filesAll nodes, filesAll]
    rfl
  | file p name path children :: nodes => by
    rw [eventsAll, events, value?_recorder, Option.toList_some, List.filter_append,
      List.singleton_append, List.filter_cons_of_pos rfl, filter_filesAll children,
      filter_filesAll nodes, filesAll, List.cons_append]

end Node

namespace Visitor

variable {α : Type}

/-- **One order for all walks.** For every visitor, whichever handlers it has, and every tree:

* the nodes that are visited are all nodes of the tree, each once, in preorder;
* the values of the visit are those of the handlers at these nodes, at most one for each: that of
  the handler for its kind, else that of the default handler, if there is one;
* the value that is returned is the one at the root;
* if the root is a file, the nodes that are visited and are no files are its leaves, and those that
  are files are the root and then the files spliced into it. -/
theorem visits_in_preorder (visitor : Visitor α) (root : Node) :
    root.InPreorder (recorder.visit root).2 ∧
      (visitor.visit root).2 = (recorder.visit root).2.filterMap visitor.response? ∧
      (visitor.visit root).1 = visitor.response? root ∧
      (root.isFile = true →
        (recorder.visit root).2.filter (fun node => !node.isFile) = root.leaves ∧
          (recorder.visit root).2.filter Node.isFile = root :: root.files) := by
  have hresponse : visitor.value? = visitor.response? := funext visitor.value?_eq_response?
  refine ⟨root.inPreorder_recorder, ?_, visitor.value?_eq_response? root, ?_⟩
  · rw [← hresponse]
    exact visitor.events_eq_filterMap root
  · intro hfile
    refine ⟨root.filter_leaves, ?_⟩
    cases root with
    | text => cases hfile
    | comment => cases hfile
    | file location name path children =>
      rw [visit, events, value?_recorder, Option.toList_some, List.singleton_append,
        List.filter_cons_of_pos rfl, Node.filter_filesAll, Node.files]

/-- A tree with the same file in two places, and an empty one. -/
def repeated : Node :=
  let again : Node := .file ⟨"m", 2, 1⟩ "a" "a" [.comment ⟨"a", 1, 1⟩ "//".toList none,
    .text ⟨"a", 1, 3⟩ "x".toList]
  .file ⟨"m", 1, 1⟩ "m" "m" [.text ⟨"m", 1, 1⟩ "y".toList, again,
    .file ⟨"m", 3, 1⟩ "e" "e" [], again]

/-- A visitor with a handler for text and a default handler, which tells their values apart. -/
def labelled : Visitor (String × Text) where
  file? := none
  text? := some fun node => ("text", node.render)
  comment? := none
  default? := some fun node => ("other", node.kind.toList)

/-- The file in two places is visited twice, as a whole each time. -/
theorem visits_in_preorder_repeated :
    (repeated.isFile = true ∧
        (recorder.visit repeated).2.filter (fun node => !node.isFile) = repeated.leaves ∧
        (recorder.visit repeated).2.filter Node.isFile = repeated :: repeated.files) ∧
      repeated.InPreorder (recorder.visit repeated).2 ∧
      (labelled.visit repeated).2 = (recorder.visit repeated).2.filterMap labelled.response? ∧
      labelled.visit repeated = (some ("other", "File".toList),
        [("other", "File".toList), ("text", "y".toList),
          ("other", "File".toList), ("other", "Comment".toList), ("text", "x".toList),
          ("other", "File".toList),
          ("other", "File".toList), ("other", "Comment".toList), ("text", "x".toList)]) := by
  obtain ⟨hpreorder, hevents, -, hlists⟩ := visits_in_preorder labelled repeated
  exact ⟨⟨rfl, hlists rfl⟩, hpreorder, hevents, by decide⟩

end Visitor

end Splice

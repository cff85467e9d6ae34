import Splice.Proofs.Address
import Splice.Proofs.Arrangement

/-!
# Queries of a tree

A tree can be asked for its text, for the length of the text, for the source position of a character
by its offset and by its line and column, and for its leaves. The queries are recursions of their
own, and they agree on every tree, whatever its nodes say about locations and however many of its
leaves and files are empty.

All of them are queries of the leaves in a row: the text of a tree is the text of its leaves
(`Node.renderAll_leaves`), and looking up an offset in the tree is looking it up among the leaves
(`Node.offset?_eq_offsetAll?_leaves`). For nodes in a row, `Node.HoldsAt` says which of them holds
the character at an offset, and it is there that the offset is looked up.
-/

namespace Splice

/-- The characters of a span have positions, and nothing outside it has one. -/
lemma Position.isSome_within? (p : Position) (span : Text) (n : Int) :
    (p.within? span n).isSome = true ↔ 0 ≤ n ∧ n < span.length := by
  rw [within?]
  split
  · rename_i hout
    simp only [Option.isSome_none, Bool.false_eq_true, false_iff]
    omega
  · rename_i hin
    simp only [Option.isSome_some, true_iff]
    omega

namespace Node

/-! ### Nodes in a row -/

/-- The text of nodes in a row is put together from their texts. -/
lemma renderAll_eq_flatMap (nodes : List Node) : renderAll nodes = nodes.flatMap render := by
  induction nodes with
  | nil => rfl
  | cons node nodes ih => rw [renderAll, List.flatMap_cons, ih]

/-- Where the text of the node at an index starts in the text of nodes in a row: after the texts of
the nodes before it. -/
def startOf (nodes : List Node) (index : Nat) : Nat :=
  ((nodes.take index).flatMap render).length

/-- The first node starts at the start. -/
lemma startOf_zero (nodes : List Node) : startOf nodes 0 = 0 :=
  rfl

/-- The others start after the first. -/
lemma startOf_succ (first : Node) (nodes : List Node) (index : Nat) :
    startOf (first :: nodes) (index + 1) = first.render.length + startOf nodes index := by
  rw [startOf, startOf, List.take_succ_cons, List.flatMap_cons, List.length_append]

/-- The node at an index holds the character at an offset of the text of nodes in a row: the offset
is not before the start of its text, and before the end. -/
structure HoldsAt (nodes : List Node) (n : Int) (index : Nat) (node : Node) : Prop where
  node_eq : nodes[index]? = some node
  le : startOf nodes index ≤ n
  lt : n < startOf nodes index + node.render.length

variable {first node other : Node} {nodes more : List Node} {n : Int} {index index' : Nat}

/-- The first node holds the characters of its own text. -/
lemma holdsAt_zero_iff :
    HoldsAt (first :: nodes) n 0 node ↔ node = first ∧ 0 ≤ n ∧ n < first.render.length := by
  have hstart := startOf_zero (first :: nodes)
  constructor
  · rintro ⟨hnode, hle, hlt⟩
    cases hnode
    exact ⟨rfl, by omega, by omega⟩
  · rintro ⟨rfl, hle, hlt⟩
    exact ⟨rfl, by omega, by omega⟩

/-- The characters after the text of the first node are held by the others. -/
lemma holdsAt_succ_iff :
    HoldsAt (first :: nodes) n (index + 1) node ↔
      HoldsAt nodes (n - first.render.length) index node := by
  have hstart := startOf_succ first nodes index
  constructor
  · rintro ⟨hnode, hle, hlt⟩
    exact ⟨hnode, by omega, by omega⟩
  · rintro ⟨hnode, hle, hlt⟩
    exact ⟨hnode, by omega, by omega⟩

/-- What is held is a character of the text. -/
lemma HoldsAt.bounds (h : HoldsAt nodes n index node) : 0 ≤ n ∧ n < lengthAll nodes := by
  induction nodes generalizing n index with
  | nil => cases h.node_eq
  | cons first nodes ih =>
    rw [lengthAll, length_eq_length_render]
    cases index with
    | zero =>
      obtain ⟨-, hle, hlt⟩ := holdsAt_zero_iff.1 h
      exact ⟨hle, by omega⟩
    | succ index =>
      have hlater := ih (holdsAt_succ_iff.1 h)
      omega

/-- Every character of the text is held by some node. -/
lemma exists_holdsAt (h : 0 ≤ n) (hn : n < lengthAll nodes) :
    ∃ index node, HoldsAt nodes n index node := by
  induction nodes generalizing n with
  | nil =>
    rw [lengthAll] at hn
    omega
  | cons first nodes ih =>
    rw [lengthAll, length_eq_length_render] at hn
    by_cases hfirst : n < first.render.length
    · exact ⟨0, first, holdsAt_zero_iff.2 ⟨rfl, h, hfirst⟩⟩
    · have hle : 0 ≤ n - first.render.length := by omega
      obtain ⟨index, node, hlater⟩ := ih hle (by omega)
      exact ⟨index + 1, node, holdsAt_succ_iff.2 hlater⟩

/-- Only one node holds the character at an offset. -/
lemma HoldsAt.index_eq (h : HoldsAt nodes n index node) (h' : HoldsAt nodes n index' other) :
    index = index' := by
  induction nodes generalizing n index index' with
  | nil => cases h.node_eq
  | cons first nodes ih =>
    cases index with
    | zero =>
      obtain ⟨-, -, hlt⟩ := holdsAt_zero_iff.1 h
      cases index' with
      | zero => rfl
      | succ index' =>
        have hlater := (holdsAt_succ_iff.1 h').bounds
        omega
    | succ index =>
      have hlater := holdsAt_succ_iff.1 h
      cases index' with
      | zero =>
        obtain ⟨-, -, hlt⟩ := holdsAt_zero_iff.1 h'
        have hle := hlater.bounds
        omega
      | succ index' => rw [ih hlater (holdsAt_succ_iff.1 h')]

/-- An offset is looked up in the node that holds the character. -/
lemma HoldsAt.offsetAll?_eq (h : HoldsAt nodes n index node) :
    offsetAll? nodes n = node.offset? (n - startOf nodes index) := by
  induction nodes generalizing n index with
  | nil => cases h.node_eq
  | cons first nodes ih =>
    rw [offsetAll?, length_eq_length_render]
    cases index with
    | zero =>
      obtain ⟨rfl, -, hlt⟩ := holdsAt_zero_iff.1 h
      rw [if_pos hlt, startOf_zero, Int.natCast_zero, Int.sub_zero]
    | succ index =>
      have hlater := holdsAt_succ_iff.1 h
      have hle := hlater.bounds
      rw [if_neg (by omega), ih hlater, startOf_succ]
      congr 1
      omega

/-- Nothing is found after the text. -/
lemma offsetAll?_eq_none (h : lengthAll nodes ≤ n) : offsetAll? nodes n = none := by
  induction nodes generalizing n with
  | nil => rfl
  | cons first nodes ih =>
    rw [lengthAll] at h
    rw [offsetAll?, if_neg (by omega)]
    exact ih (by omega)

/-- An offset in nodes that are followed by others is looked up in the nodes, and one after them in
the others. -/
lemma offsetAll?_append (h : 0 ≤ n) :
    offsetAll? (nodes ++ more) n =
      if n < lengthAll nodes then offsetAll? nodes n
      else offsetAll? more (n - lengthAll nodes) := by
  induction nodes generalizing n with
  | nil =>
    rw [lengthAll, if_neg (by omega), List.nil_append, Int.natCast_zero, Int.sub_zero]
  | cons first nodes ih =>
    rw [List.cons_append, offsetAll?, offsetAll?, lengthAll]
    by_cases hfirst : n < first.length
    · rw [if_pos hfirst, if_pos (by omega), if_pos hfirst]
    · rw [if_neg hfirst, if_neg hfirst, ih (by omega)]
      by_cases hlater : n - first.length < lengthAll nodes
      · rw [if_pos hlater, if_pos (by omega)]
      · rw [if_neg hlater, if_neg (by omega)]
        congr 1
        omega

/-! ### Trees and their leaves -/

mutual

/-- The leaves of a tree are text and comments. -/
lemma exists_isLeaf : (root : Node) → ∀ leaf ∈ root.leaves,
    ∃ location content, leaf.IsLeaf location content
  | text location content, leaf, hleaf => by
    rw [List.mem_singleton.1 hleaf]
    exact ⟨location, content, Or.inl rfl⟩
  | comment location content style, leaf, hleaf => by
    rw [List.mem_singleton.1 hleaf]
    exact ⟨location, content, Or.inr ⟨style, rfl⟩⟩
  | file _ _ _ children, leaf, hleaf => exists_isLeaf_all children leaf hleaf

/-- So are those of trees in a row. -/
lemma exists_isLeaf_all : (nodes : List Node) → ∀ leaf ∈ leavesAll nodes,
    ∃ location content, leaf.IsLeaf location content
  | [], leaf, hleaf => by cases hleaf
  | node :: nodes, leaf, hleaf => by
    rcases List.mem_append.1 hleaf with hhere | hlater
    · exact exists_isLeaf node leaf hhere
    · exact exists_isLeaf_all nodes leaf hlater

end

mutual

/-- The text of a tree is that of its leaves. -/
lemma renderAll_leaves : (root : Node) → renderAll root.leaves = root.render
  | text _ content => List.append_nil content
  | comment _ content _ => List.append_nil content
  | file _ _ _ children => by
    rw [leaves, render]
    exact renderAll_leavesAll children

/-- The text of trees in a row is that of their leaves. -/
lemma renderAll_leavesAll : (nodes : List Node) → renderAll (leavesAll nodes) = renderAll nodes
  | [] => rfl
  | node :: nodes => by
    rw [leavesAll, renderAll, renderAll_eq_flatMap, List.flatMap_append, ← renderAll_eq_flatMap,
      ← renderAll_eq_flatMap, renderAll_leaves node, renderAll_leavesAll nodes]

end

/-- The leaves of a tree are as long as the tree. -/
lemma lengthAll_leaves (root : Node) : lengthAll root.leaves = root.length := by
  rw [lengthAll_eq_length_renderAll, renderAll_leaves, length_eq_length_render]

/-- Looking up an offset in a leaf is looking it up in a row with nothing else. -/
lemma offsetAll?_singleton {location : Position} {content : Text}
    (h : node.IsLeaf location content) (n : Int) : offsetAll? [node] n = node.offset? n := by
  obtain ⟨hrender, -, hlookup⟩ := h.eqs
  rw [offsetAll?, length_eq_length_render, hrender]
  by_cases hn : n < content.length
  · rw [if_pos hn]
  · have hout : (location.within? content n).isSome ≠ true := by
      rw [Ne, Position.isSome_within?]
      omega
    rw [if_neg hn, offsetAll?, hlookup, Option.not_isSome_iff_eq_none.1 hout]

mutual

/-- Looking up an offset in a tree is looking it up among its leaves. -/
lemma offset?_eq_offsetAll?_leaves : (root : Node) → (n : Int) → 0 ≤ n →
    root.offset? n = offsetAll? root.leaves n
  | text location content, n, _ => (offsetAll?_singleton (Or.inl rfl) n).symm
  | comment location content style, n, _ => (offsetAll?_singleton (Or.inr ⟨style, rfl⟩) n).symm
  | file _ _ _ children, n, h => by
    rw [offset?, if_neg (by omega), leaves]
    exact offsetAll?_eq_leavesAll children n h

/-- Looking up an offset in trees in a row is looking it up among their leaves. -/
lemma offsetAll?_eq_leavesAll : (nodes : List Node) → (n : Int) → 0 ≤ n →
    offsetAll? nodes n = offsetAll? (leavesAll nodes) n
  | [], _, _ => rfl
  | node :: nodes, n, h => by
    rw [leavesAll, offsetAll?_append h, lengthAll_leaves, offsetAll?]
    split
    · exact offset?_eq_offsetAll?_leaves node n h
    · exact offsetAll?_eq_leavesAll nodes _ (by omega)

end

/-- Nothing is found before the text. -/
lemma offset?_eq_none_of_neg (root : Node) (h : n < 0) : root.offset? n = none := by
  cases root with
  | text location content => rw [offset?, Position.within?, if_pos (Or.inl h)]
  | comment location content style => rw [offset?, Position.within?, if_pos (Or.inl h)]
  | file location name path children => rw [offset?, if_pos h]

/-- An offset is looked up in the content of the leaf that holds the character. -/
lemma HoldsAt.offset?_eq {root leaf : Node} (h : HoldsAt root.leaves n index leaf) :
    ∃ location content, leaf.IsLeaf location content ∧
      root.offset? n = location.within? content (n - startOf root.leaves index) := by
  have hmem : leaf ∈ root.leaves := List.mem_of_getElem? h.node_eq
  obtain ⟨location, content, hleaf⟩ := exists_isLeaf root leaf hmem
  obtain ⟨-, -, hlookup⟩ := hleaf.eqs
  refine ⟨location, content, hleaf, ?_⟩
  rw [offset?_eq_offsetAll?_leaves root n h.bounds.1, h.offsetAll?_eq, hlookup]

/-- The characters of the text of a tree have positions, and nothing outside it has one. -/
lemma isSome_offset?_iff (root : Node) (n : Int) :
    (root.offset? n).isSome = true ↔ 0 ≤ n ∧ n < root.length := by
  constructor
  · intro hsome
    by_contra hout
    have hnone : root.offset? n = none := by
      by_cases hneg : n < 0
      · exact root.offset?_eq_none_of_neg hneg
      · rw [offset?_eq_offsetAll?_leaves root n (by omega)]
        refine offsetAll?_eq_none ?_
        rw [lengthAll_leaves]
        omega
    rw [hnone] at hsome
    cases hsome
  · rintro ⟨hle, hlt⟩
    obtain ⟨index, leaf, h⟩ := exists_holdsAt hle (by rwa [lengthAll_leaves])
    obtain ⟨location, content, hleaf, heq⟩ := h.offset?_eq
    obtain ⟨hrender, -, -⟩ := hleaf.eqs
    have hstart := h.le
    have hend := h.lt
    rw [hrender] at hend
    rw [heq, Position.isSome_within?]
    omega

/-- A line and column at which an offset stands is looked up by the offset. -/
lemma lineColumn?_eq_offset? {root : Node} {line column : Int} {offset : Nat}
    (h : root.render.StandsOn offset line column) :
    root.lineColumn? line column = root.offset? offset := by
  rw [lineColumn?, Text.offsetAt?_eq_some_iff.2 h, Option.bind_some]

/-- A line and column has a position exactly if a character stands there. -/
lemma isSome_lineColumn?_iff (root : Node) (line column : Int) :
    (root.lineColumn? line column).isSome = true ↔
      ∃ offset < root.render.length, root.render.StandsOn offset line column := by
  constructor
  · intro hsome
    obtain ⟨position, hposition⟩ := Option.isSome_iff_exists.1 hsome
    obtain ⟨offset, hoffset, hfound⟩ := Option.bind_eq_some_iff.1 hposition
    obtain ⟨-, hlt⟩ := (isSome_offset?_iff root offset).1 (hfound ▸ rfl)
    rw [length_eq_length_render] at hlt
    exact ⟨offset, by omega, Text.offsetAt?_eq_some_iff.1 hoffset⟩
  · rintro ⟨offset, hlt, hstands⟩
    rw [lineColumn?_eq_offset? hstands, isSome_offset?_iff, length_eq_length_render]
    omega

/-- **The queries of a tree agree.** Whatever the tree:

* its length is that of its text, and its text is put together from its leaves, which are text and
  comments;
* the offsets with a position are those of the characters of the text; each of them is held by one
  of the leaves, and its position is that of the character in the content of the leaf;
* the lines and columns with a position are those on which a character of the text stands, and its
  position is that of the offset of the character. -/
theorem queries_agree (root : Node) :
    root.length = root.render.length ∧
      root.render = root.leaves.flatMap render ∧
      (∀ leaf ∈ root.leaves, ∃ location content, leaf.IsLeaf location content) ∧
      (∀ n : Int, (root.offset? n).isSome = true ↔ 0 ≤ n ∧ n < root.length) ∧
      (∀ n : Int, 0 ≤ n → n < root.length →
        ∃! index, ∃ leaf, HoldsAt root.leaves n index leaf) ∧
      (∀ (n : Int) (index : Nat) (leaf : Node), HoldsAt root.leaves n index leaf →
        ∃ location content, leaf.IsLeaf location content ∧
          root.offset? n = location.within? content (n - startOf root.leaves index)) ∧
      (∀ line column : Int, (root.lineColumn? line column).isSome = true ↔
        ∃ offset < root.render.length, root.render.StandsOn offset line column) ∧
      ∀ (line column : Int) (offset : Nat), root.render.StandsOn offset line column →
        root.lineColumn? line column = root.offset? offset := by
  refine ⟨length_eq_length_render root, ?_, exists_isLeaf root, isSome_offset?_iff root, ?_, ?_,
    isSome_lineColumn?_iff root, fun _ _ _ h => lineColumn?_eq_offset? h⟩
  · rw [← renderAll_eq_flatMap, renderAll_leaves]
  · intro n hle hlt
    obtain ⟨index, leaf, h⟩ := exists_holdsAt hle (by rwa [lengthAll_leaves])
    refine ⟨index, ⟨leaf, h⟩, ?_⟩
    rintro other ⟨_, hother⟩
    exact hother.index_eq h
  · intro n index leaf h
    exact h.offset?_eq

/-- A tree with an empty file and empty leaves between its characters. -/
def hollow : Node :=
  .file ⟨"m", 1, 1⟩ "m" "m" [.text ⟨"m", 9, 9⟩ [], .file ⟨"m", 1, 1⟩ "e" "e" [],
    .file ⟨"m", 0, -3⟩ "c" "c" [.comment ⟨"c", 4, 7⟩ "/*\n*/".toList none, .text ⟨"c", 1, 1⟩ []],
    .text ⟨"m", 2, 1⟩ "ab".toList]

/-- In this tree, the last leaf holds the character after the comment. -/
theorem queries_agree_hollow :
    (0 ≤ (5 : Int) ∧ (5 : Int) < hollow.length ∧
        ∃! index, ∃ leaf, HoldsAt hollow.leaves 5 index leaf) ∧
      (HoldsAt hollow.leaves 5 3 (.text ⟨"m", 2, 1⟩ "ab".toList) ∧
        ∃ location content, IsLeaf (.text ⟨"m", 2, 1⟩ "ab".toList) location content ∧
          hollow.offset? 5 = location.within? content (5 - startOf hollow.leaves 3)) ∧
      hollow.render.StandsOn 5 2 3 ∧ hollow.lineColumn? 2 3 = hollow.offset? 5 := by
  obtain ⟨-, -, -, -, hunique, hfound, -, hlookup⟩ := queries_agree hollow
  have hlt : (5 : Int) < hollow.length := by decide
  have hholds : HoldsAt hollow.leaves 5 3 (.text ⟨"m", 2, 1⟩ "ab".toList) :=
    ⟨rfl, by decide, by decide⟩
  have hstands : hollow.render.StandsOn 5 2 3 := ⟨by decide, by decide, by decide⟩
  exact ⟨⟨by decide, hlt, hunique 5 (by decide) hlt⟩, ⟨hholds, hfound 5 3 _ hholds⟩, hstands,
    hlookup 2 3 5 hstands⟩

end Node

end Splice

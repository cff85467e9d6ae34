import Splice.Proofs.Expansion.Tree
import Splice.Proofs.Order
import Splice.Proofs.SourceMap

/-!
# The order of a tree

The children of a file come from its items, and so stand in its source one after the other
(`Plan.Placed`): their positions increase, and those of the files among them are the triggers that
they were asked for by (`Plan.Arranged`). The same holds of the characters of the processed text: of
two that are leaves of one file, the one that comes first in the text comes first in the source
(`Plan.Placed.inOrder`).
-/

namespace Splice

/-! ### Children in order -/

namespace Node

/-- A node is a leaf with the given location and content. -/
def IsLeaf (node : Node) (location : Position) (content : Text) : Prop :=
  node = .text location content ∨ ∃ style, node = .comment location content style

/-- A leaf is located where it says. -/
lemma IsLeaf.location_eq {node : Node} {location : Position} {content : Text}
    (h : node.IsLeaf location content) : node.location = location := by
  rcases h with rfl | ⟨style, rfl⟩ <;> rfl

/-- A leaf renders to its content, has no file around its characters, and looks up offsets in its
content. -/
lemma IsLeaf.eqs {node : Node} {location : Position} {content : Text}
    (h : node.IsLeaf location content) :
    node.render = content ∧ (∀ n, node.enclosing n = []) ∧
      ∀ n, node.offset? n = location.within? content n := by
  rcases h with rfl | ⟨style, rfl⟩ <;> exact ⟨rfl, fun _ => rfl, fun _ => rfl⟩

end Node

/-- The children of the file named `name` with the text `source` are arranged as in the source: they
are located in the file, each after the one before it, and each file among them stands where the
trigger of the directive line stands that asked for it, under the name that this line asks for. -/
structure Plan.Arranged (plan : Plan) (name : String) (source : Text) (children : List Node) :
    Prop where
  source_eq : ∀ child ∈ children, child.location.source = name
  increasing : children.Pairwise fun first second => first.location.Before second.location
  asked : ∀ location inner path nodes, .file location inner path nodes ∈ children →
    ∃ offset request, plan.dialect.AsksAt name source offset request ∧
      location = source.positionAt name offset ∧ inner = Path.relativeTo name request.target ∧
      plan.loader.canonical inner = .ok path

/-- The children of the named source stand in it one after the other, from an offset on, and so do
the children of the files among them in the sources of these. -/
inductive Plan.Placed (plan : Plan) : String → Text → Nat → List Node → Prop where
  /-- No children. -/
  | nil (name : String) (source : Text) (start : Nat) : Placed plan name source start []
  /-- A leaf is the text of the source from its offset on. -/
  | leaf {name : String} {source content : Text} {start offset : Nat} {leaf : Node}
    {nodes : List Node} (hleaf : leaf.IsLeaf (source.positionAt name offset) content)
    (hstart : start ≤ offset) (hcontent : content ≠ []) (hpiece : content <+: source.drop offset)
    (htail : Placed plan name source (offset + content.length) nodes) :
    Placed plan name source start (leaf :: nodes)
  /-- A file stands at the trigger of the directive line that asks for it. -/
  | file {name inner path : String} {source text : Text} {start offset : Nat} {location : Position}
    {request : Request} {children nodes : List Node}
    (hlocation : location = source.positionAt name offset) (hstart : start ≤ offset)
    (hoffset : offset < source.length) (hasks : plan.dialect.AsksAt name source offset request)
    (hinner : inner = Path.relativeTo name request.target)
    (hidentity : plan.loader.canonical inner = .ok path)
    (hchildren : Placed plan inner text 0 children)
    (htail : Placed plan name source (offset + 1) nodes) :
    Placed plan name source start
      (.file location inner path children :: nodes)

namespace Plan.Placed

variable {plan : Plan} {name : String} {source : Text} {start : Nat} {nodes : List Node}

/-- Children that stand in order from an offset on do so from any smaller one on. -/
lemma of_le {later : Nat} (h : plan.Placed name source later nodes) (hle : start ≤ later) :
    plan.Placed name source start nodes := by
  cases h with
  | nil => exact .nil name source start
  | leaf hleaf hstart hcontent hpiece htail =>
    exact .leaf hleaf (hle.trans hstart) hcontent hpiece htail
  | file hlocation hstart hoffset hasks hinner hidentity hchildren htail =>
    exact .file hlocation (hle.trans hstart) hoffset hasks hinner hidentity hchildren htail

/-- Each child stands at an offset of the source, not before that at which the children start. The
induction is on the children. -/
lemma location_of_mem (h : plan.Placed name source start nodes) {node : Node}
    (hmem : node ∈ nodes) :
    ∃ offset, start ≤ offset ∧ offset < source.length ∧
      node.location = source.positionAt name offset := by
  induction h with
  | nil => cases hmem
  | leaf hleaf hstart hcontent hpiece htail ih =>
    have hend := Text.length_le_of_piece hcontent hpiece
    have hpos := List.length_pos_iff.2 hcontent
    rcases List.mem_cons.1 hmem with rfl | hmem
    · exact ⟨_, hstart, by omega, hleaf.location_eq⟩
    · obtain ⟨offset, hle, hoffset⟩ := ih hmem
      exact ⟨offset, by omega, hoffset⟩
  | file hlocation hstart hoffset hasks hinner hidentity hchildren htail _ ih =>
    rcases List.mem_cons.1 hmem with rfl | hmem
    · exact ⟨_, hstart, hoffset, hlocation⟩
    · obtain ⟨offset, hle, hoffset⟩ := ih hmem
      exact ⟨offset, by omega, hoffset⟩

/-- A smaller offset than that at which the children start comes before all of them. -/
lemma before_of_mem (h : plan.Placed name source start nodes) {offset : Nat}
    (hoffset : offset < start) {node : Node} (hmem : node ∈ nodes) :
    (source.positionAt name offset).Before node.location := by
  obtain ⟨later, hle, hlt, hlocation⟩ := h.location_of_mem hmem
  rw [hlocation]
  exact source.positionAt_before name (by omega) hlt.le

/-- The positions of the children increase. The induction is on the children. -/
lemma pairwise_before (h : plan.Placed name source start nodes) :
    nodes.Pairwise fun first second => first.location.Before second.location := by
  induction h with
  | nil => exact .nil
  | leaf hleaf hstart hcontent hpiece htail ih =>
    have hpos := List.length_pos_iff.2 hcontent
    refine List.pairwise_cons.2 ⟨?_, ih⟩
    intro node hmem
    rw [hleaf.location_eq]
    exact htail.before_of_mem (by omega) hmem
  | file hlocation hstart hoffset hasks hinner hidentity hchildren htail _ ih =>
    refine List.pairwise_cons.2 ⟨?_, ih⟩
    intro node hmem
    rw [Node.location, hlocation]
    exact htail.before_of_mem (by omega) hmem

/-- A file among the children stands at the trigger of the directive line that asked for it. The
induction is on the children. -/
lemma asks_of_mem (h : plan.Placed name source start nodes) {location : Position}
    {inner path : String} {children : List Node}
    (hmem : .file location inner path children ∈ nodes) :
    ∃ offset request, plan.dialect.AsksAt name source offset request ∧
      location = source.positionAt name offset ∧ inner = Path.relativeTo name request.target ∧
      plan.loader.canonical inner = .ok path := by
  induction h with
  | nil => cases hmem
  | leaf hleaf hstart hcontent hpiece htail ih =>
    rcases List.mem_cons.1 hmem with rfl | hmem
    · rcases hleaf with hnone | ⟨style, hnone⟩ <;> cases hnone
    · exact ih hmem
  | file hlocation hstart hoffset hasks hinner hidentity hchildren htail _ ih =>
    rcases List.mem_cons.1 hmem with hfile | hmem
    · cases hfile
      exact ⟨_, _, hasks, hlocation, hinner, hidentity⟩
    · exact ih hmem

/-- Children that stand in the source are arranged as in the source. -/
lemma arranged (h : plan.Placed name source start nodes) : plan.Arranged name source nodes := by
  refine ⟨?_, h.pairwise_before, ?_⟩
  · intro child hmem
    obtain ⟨offset, -, -, hlocation⟩ := h.location_of_mem hmem
    rw [hlocation, Text.positionAt_source]
  · intro location inner path children hmem
    exact h.asks_of_mem hmem

end Plan.Placed

/-- The children that items in order stand for stand in order. The induction is on the items, those
of the files asked for included. -/
lemma Plan.Yields.placed_of_ordered {plan : Plan} {name : String} {source : Text} {start : Nat}
    {items : List Item} {nodes : List Node} (h : plan.Yields name items nodes)
    (hitems : Item.Ordered plan.dialect name source start items) :
    plan.Placed name source start nodes := by
  induction h generalizing source start with
  | nil name => exact .nil name source start
  | text location content htail ih =>
    cases hitems with
    | text hstart hcontent hpiece hrest =>
      exact .leaf (Or.inl rfl) hstart hcontent hpiece (ih hrest)
  | comment location content hstyles htail ih =>
    cases hitems with
    | comment hstart hcontent hpiece hrest =>
      exact .leaf (Or.inr ⟨_, rfl⟩) hstart hcontent hpiece (ih hrest)
  | skipped honce htail ih =>
    cases hitems with
    | request hstart hoffset hasks hlocation hrest => exact (ih hrest).of_le (by omega)
  | spliced htarget hidentity hread hchildren htail ihchildren ihtail =>
    cases hitems with
    | request hstart hoffset hasks hlocation hrest =>
      exact .file hlocation hstart hoffset hasks htarget hidentity
        (ihchildren (plan.dialect.ordered_items _ _)) (ihtail hrest)

/-- The children that the items of a source stand for stand in the source. -/
lemma Plan.Yields.placed {plan : Plan} {name : String} {source : Text} {nodes : List Node}
    (h : plan.Yields name (plan.dialect.items name source) nodes) :
    plan.Placed name source 0 nodes :=
  h.placed_of_ordered (plan.dialect.ordered_items name source)

/-! ### Characters in order -/

/-- Two lookups find positions of one source, the first before the second. -/
def Position.Ascend (first second : Option Position) : Prop :=
  ∃ p q, first = some p ∧ second = some q ∧ p.source = q.source ∧ p.Before q

namespace Node

/-- An offset in the first of several nodes is looked up there. -/
lemma offsetAll?_cons_of_lt {node : Node} {n : Nat} (h : n < node.render.length)
    (nodes : List Node) : offsetAll? (node :: nodes) n = node.offset? n := by
  have hlength := length_eq_length_render node
  rw [offsetAll?, if_pos (by omega)]

/-- An offset after the first of several nodes is looked up in the others. -/
lemma offsetAll?_cons_of_le {node : Node} {n : Nat} (h : node.render.length ≤ n)
    (nodes : List Node) :
    offsetAll? (node :: nodes) n = offsetAll? nodes (n - node.render.length : Nat) := by
  have hlength := length_eq_length_render node
  have hsub : (n : Int) - node.length = ((n - node.render.length : Nat) : Int) := by omega
  rw [offsetAll?, if_neg (by omega), hsub]

/-- A file leaves it to its children to look up an offset. -/
lemma offset?_file (location : Position) (name path : String) (children : List Node) (n : Nat) :
    offset? (.file location name path children) n = offsetAll? children n := by
  rw [offset?, if_neg (by omega)]

/-- The outermost file around a character in nodes in a row is one of the nodes. -/
lemma mem_of_enclosingAll {nodes inner : List Node} {file : Node} {n : Nat}
    (h : enclosingAll nodes n = file :: inner) : file ∈ nodes := by
  induction nodes generalizing n with
  | nil => cases h
  | cons node nodes ih =>
    rw [enclosingAll] at h
    split at h
    · cases node with
      | file location name path children =>
        rw [enclosing] at h
        rw [(List.cons.inj h).1]
        exact List.mem_cons_self
      | _ => cases h
    · exact List.mem_cons_of_mem _ (ih h)

/-- In nodes in a row, of two characters that are leaves of one file the first comes first in the
source of this file. -/
def InOrder (nodes : List Node) : Prop :=
  ∀ n m : Nat, n < m → m < (renderAll nodes).length →
    enclosingAll nodes n = enclosingAll nodes m →
    Position.Ascend (offsetAll? nodes n) (offsetAll? nodes m)

/-- One more node in front keeps the characters in order if those of the node are in order, and come
before those of the other nodes that are leaves of the same file. -/
lemma InOrder.cons {node : Node} {nodes : List Node}
    (hnode : ∀ n m : Nat, n < m → m < node.render.length → node.enclosing n = node.enclosing m →
      Position.Ascend (node.offset? n) (node.offset? m))
    (hnodes : InOrder nodes)
    (hacross : ∀ n m : Nat, n < node.render.length → m < (renderAll nodes).length →
      node.enclosing n = enclosingAll nodes m →
      Position.Ascend (node.offset? n) (offsetAll? nodes m)) : InOrder (node :: nodes) := by
  intro n m hnm hm hfiles
  rw [renderAll, List.length_append] at hm
  rw [enclosingAll, enclosingAll] at hfiles
  by_cases hfirst : m < node.render.length
  · rw [if_pos (hnm.trans hfirst), if_pos hfirst] at hfiles
    rw [offsetAll?_cons_of_lt (hnm.trans hfirst), offsetAll?_cons_of_lt hfirst]
    exact hnode n m hnm hfirst hfiles
  rw [if_neg hfirst] at hfiles
  rw [offsetAll?_cons_of_le (Nat.le_of_not_lt hfirst)]
  by_cases hsecond : n < node.render.length
  · rw [if_pos hsecond] at hfiles
    rw [offsetAll?_cons_of_lt hsecond]
    exact hacross n _ hsecond (by omega) hfiles
  · rw [if_neg hsecond] at hfiles
    rw [offsetAll?_cons_of_le (Nat.le_of_not_lt hsecond)]
    exact hnodes _ _ (by omega) (by omega) hfiles

/-- The characters of the nodes that are leaves among them stand in the named source, from an offset
on. -/
def LeavesFrom (name : String) (source : Text) (start : Nat) (nodes : List Node) : Prop :=
  ∀ n : Nat, n < (renderAll nodes).length → enclosingAll nodes n = [] →
    ∃ offset, start ≤ offset ∧ offset < source.length ∧
      offsetAll? nodes n = some (source.positionAt name offset)

section Cons

variable {name : String} {source content : Text} {start offset : Nat} {nodes : List Node}
  {leaf : Node}

/-- A leaf in front of other nodes stands where it says. -/
lemma LeavesFrom.cons_leaf (hleaf : leaf.IsLeaf (source.positionAt name offset) content)
    (hstart : start ≤ offset) (hpiece : content <+: source.drop offset)
    (hend : offset + content.length ≤ source.length)
    (hnodes : LeavesFrom name source (offset + content.length) nodes) :
    LeavesFrom name source start (leaf :: nodes) := by
  obtain ⟨hrender, -, hlookup⟩ := hleaf.eqs
  intro n hn hnone
  rw [renderAll, List.length_append] at hn
  rw [enclosingAll] at hnone
  by_cases hfirst : n < leaf.render.length
  · rw [offsetAll?_cons_of_lt hfirst, hlookup]
    rw [hrender] at hfirst
    exact ⟨offset + n, by omega, by omega, Text.within?_positionAt name hpiece hfirst⟩
  · rw [if_neg hfirst] at hnone
    rw [offsetAll?_cons_of_le (Nat.le_of_not_lt hfirst)]
    obtain ⟨later, hlater, hfound⟩ := hnodes _ (by omega) hnone
    exact ⟨later, by omega, hfound⟩

/-- A file in front of other nodes is around all of its characters. -/
lemma LeavesFrom.cons_file {location : Position} {inner path : String} {children : List Node}
    (hstart : start ≤ offset) (hnodes : LeavesFrom name source offset nodes) :
    LeavesFrom name source start (.file location inner path children :: nodes) := by
  intro n hn hnone
  rw [renderAll, List.length_append] at hn
  rw [enclosingAll] at hnone
  by_cases hfirst : n < (file location inner path children).render.length
  · rw [if_pos hfirst, enclosing] at hnone
    cases hnone
  · rw [if_neg hfirst] at hnone
    rw [offsetAll?_cons_of_le (Nat.le_of_not_lt hfirst)]
    obtain ⟨later, hlater, hfound⟩ := hnodes _ (by omega) hnone
    exact ⟨later, hstart.trans hlater, hfound⟩

/-- A leaf in front of nodes whose leaves stand after it keeps the characters in order. -/
lemma InOrder.cons_leaf (hleaf : leaf.IsLeaf (source.positionAt name offset) content)
    (hpiece : content <+: source.drop offset) (hend : offset + content.length ≤ source.length)
    (hlater : LeavesFrom name source (offset + content.length) nodes) (hnodes : InOrder nodes) :
    InOrder (leaf :: nodes) := by
  obtain ⟨hrender, hfiles, hlookup⟩ := hleaf.eqs
  have hfind {n : Nat} (hn : n < leaf.render.length) :
      leaf.offset? n = some (source.positionAt name (offset + n)) := by
    rw [hrender] at hn
    rw [hlookup]
    exact Text.within?_positionAt name hpiece hn
  refine InOrder.cons ?_ hnodes ?_
  · intro n m hnm hm _
    refine ⟨_, _, hfind (hnm.trans hm), hfind hm, rfl, ?_⟩
    rw [hrender] at hm
    exact source.positionAt_before name (by omega) (by omega)
  · intro n m hn hm hnone
    rw [hfiles] at hnone
    obtain ⟨later, hle, hlt, hfound⟩ := hlater m hm hnone.symm
    refine ⟨_, _, hfind hn, hfound, rfl, ?_⟩
    rw [hrender] at hn
    exact source.positionAt_before name (by omega) hlt.le

/-- A file in front of other nodes, of which it is none, keeps the characters in order. -/
lemma InOrder.cons_file {location : Position} {inner path : String} {children : List Node}
    (hchildren : InOrder children) (hnodes : InOrder nodes)
    (hnew : .file location inner path children ∉ nodes) :
    InOrder (.file location inner path children :: nodes) := by
  refine InOrder.cons ?_ hnodes ?_
  · intro n m hnm hm hfiles
    rw [enclosing, enclosing] at hfiles
    rw [render] at hm
    rw [offset?_file, offset?_file]
    exact hchildren n m hnm hm (List.cons.inj hfiles).2
  · intro n m _ _ hfiles
    rw [enclosing] at hfiles
    exact absurd (mem_of_enclosingAll hfiles.symm) hnew

end Cons

end Node

namespace Plan.Placed

variable {plan : Plan} {name : String} {source : Text} {start : Nat} {nodes : List Node}

/-- The leaves among the children stand in the source. The induction is on the children. -/
lemma leavesFrom (h : plan.Placed name source start nodes) :
    Node.LeavesFrom name source start nodes := by
  induction h with
  | nil =>
    intro n hn
    cases hn
  | leaf hleaf hstart hcontent hpiece htail ih =>
    exact .cons_leaf hleaf hstart hpiece (Text.length_le_of_piece hcontent hpiece) ih
  | file hlocation hstart hoffset hasks hinner hidentity hchildren htail _ ih =>
    exact .cons_file (by omega) ih

/-- The characters of the children are in order. The induction is on the children, those of the
files among them included. -/
lemma inOrder (h : plan.Placed name source start nodes) : Node.InOrder nodes := by
  induction h with
  | nil =>
    intro n m _ hm
    cases hm
  | leaf hleaf hstart hcontent hpiece htail ih =>
    exact .cons_leaf hleaf hpiece (Text.length_le_of_piece hcontent hpiece) htail.leavesFrom ih
  | @file _ _ _ _ _ _ offset _ _ _ _ hlocation _ _ _ _ _ _ htail ihchildren ih =>
    refine .cons_file ihchildren ih ?_
    -- a file that is asked for later stands at a later position
    intro hmem
    have hbefore := htail.before_of_mem (Nat.lt_succ_self offset) hmem
    rw [Node.location, ← hlocation] at hbefore
    exact Position.not_before_self _ hbefore

end Plan.Placed

/-- A tree is arranged as the sources it was made from: the children of the top-level file as its
text `content`, the children of each other file as the content of this file, and the characters of
the processed text that are leaves of one file in the order of its source. -/
def Plan.ArrangedTree (plan : Plan) (name : String) (content : Text) (root : Node) : Prop :=
  (∃ location path children, root = .file location name path children ∧
    plan.Arranged name content children) ∧
  (∀ location inner path children, .file location inner path children ∈ root.files →
    ∃ source, plan.loader.read inner = .ok source ∧ plan.Arranged inner source children) ∧
  ∀ n m : Nat, n < m → m < root.length → root.enclosing n = root.enclosing m →
    Position.Ascend (root.offset? n) (root.offset? m)

/-- A file with the children that the items of its text stand for is arranged as its sources. -/
lemma Plan.Yields.arrangedTree {plan : Plan} {name path : String} {location : Position}
    {content : Text} {children : List Node}
    (h : plan.Yields name (plan.dialect.items name content) children) :
    plan.ArrangedTree name content (.file location name path children) := by
  refine ⟨⟨location, path, children, rfl, h.placed.arranged⟩, ?_, ?_⟩
  · intro location inner path nodes hmem
    rw [Node.files] at hmem
    obtain ⟨-, source, hread, hnodes⟩ := h.of_mem_filesAll hmem
    exact ⟨source, hread, hnodes.placed.arranged⟩
  · intro n m hnm hm hfiles
    rw [Node.length_eq_length_render, Node.render] at hm
    rw [Node.enclosing, Node.enclosing] at hfiles
    rw [Node.offset?_file, Node.offset?_file]
    exact h.placed.inOrder n m hnm hm (List.cons.inj hfiles).2

/-- **Trees are arranged as their sources.** In the tree that a run returns, the children of a file
are located in this file, at positions that increase; a file among them is located at the trigger of
the directive line that asked for it, and its name and identity are those that the line asks for.
And the characters of the processed text that are leaves of one file come from positions of it that
increase. -/
theorem arrangedTree_of_run (context : Context) (settings : Option Settings) (loader : Loader) :
    (∀ name content session root,
      runText context settings loader name content = (session, .ok root) →
      (context.plan settings loader).ArrangedTree name content root) ∧
    (∀ path session root, runFile context settings loader path = (session, .ok root) →
      ∃ content, loader.read path = .ok content ∧
        (context.plan settings loader).ArrangedTree path content root) := by
  constructor
  · intro name content session root h
    obtain ⟨children, rfl, hyields⟩ := yields_of_runText h
    exact hyields.arrangedTree
  · intro path session root h
    obtain ⟨identity, content, children, -, hread, rfl, hyields⟩ := yields_of_runFile h
    exact ⟨content, hread, hyields.arrangedTree⟩

/-- A text that asks for one file twice, the first time by an indented line, has such a tree, and so
has a file with the same text. -/
theorem arrangedTree_of_run_twice :
    (∃ session root,
      runText .initial (some (Settings.default.addStyle .doubleSlash))
        (Catalogue.loader ⟨[("d/x", "p // q\nr".toList)]⟩) "d/m"
        "a\n  #include \"x\"\nb\n#include \"x\"\n".toList = (session, .ok root) ∧
      root.render = "a\np // q\nrb\np // q\nr".toList ∧
      (Context.plan .initial (some (Settings.default.addStyle .doubleSlash))
        (Catalogue.loader ⟨[("d/x", "p // q\nr".toList)]⟩)).ArrangedTree "d/m"
          "a\n  #include \"x\"\nb\n#include \"x\"\n".toList root) ∧
    ∃ session root content,
      runFile .initial none (Catalogue.loader ⟨[("m", "a\n#include \"x\"\n".toList),
        ("x", "b\n".toList)]⟩) "m" = (session, .ok root) ∧ root.render = "a\nb\n".toList ∧
      (Context.plan .initial none (Catalogue.loader ⟨[("m", "a\n#include \"x\"\n".toList),
        ("x", "b\n".toList)]⟩)).ArrangedTree "m" content root := by
  constructor
  · have hsuccess :
        (runText .initial (some (Settings.default.addStyle .doubleSlash))
          (Catalogue.loader ⟨[("d/x", "p // q\nr".toList)]⟩) "d/m"
          "a\n  #include \"x\"\nb\n#include \"x\"\n".toList).2.toOption.map Node.render =
            some "a\np // q\nrb\np // q\nr".toList := by
      decide +kernel
    obtain ⟨session, root, hrun, hrender⟩ := exists_root_of_render _ hsuccess
    exact ⟨session, root, hrun, hrender, (arrangedTree_of_run _ _ _).1 _ _ _ _ hrun⟩
  · have hsuccess :
        (runFile .initial none (Catalogue.loader ⟨[("m", "a\n#include \"x\"\n".toList),
          ("x", "b\n".toList)]⟩) "m").2.toOption.map Node.render = some "a\nb\n".toList := by
      decide +kernel
    obtain ⟨session, root, hrun, hrender⟩ := exists_root_of_render _ hsuccess
    obtain ⟨content, -, harranged⟩ := (arrangedTree_of_run _ _ _).2 _ _ _ hrun
    exact ⟨session, root, content, hrun, hrender, harranged⟩

end Splice

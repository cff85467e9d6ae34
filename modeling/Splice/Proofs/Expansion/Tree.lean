import Splice.Proofs.Expansion.Rendering

/-!
# The tree of an expansion

What an expansion that succeeds makes of the items of a file can be said without the ledger: each
item is one child or, if it is a request that was skipped, none, and the child of any other request
is the file it asks for, with the children that its own items stand for (`Plan.Yields`). So every
file of a tree was read under its own name, and its children are those of its own items
(`Plan.Yields.of_mem_filesAll`).
-/

namespace Splice

namespace Node

/-- The name of a node, if it is a file. -/
def name? : Node → Option String
  | file _ name _ _ => some name
  | _ => none

/-- The names of the files of a tree, the top-level file first. -/
def names (root : Node) : List String :=
  (root :: root.files).filterMap name?

end Node

namespace Plan

/-- `Yields plan name items nodes` says that `nodes` are the children that the items of the file
named `name` stand for. -/
inductive Yields (plan : Plan) : String → List Item → List Node → Prop where
  /-- Nothing is left. -/
  | nil (name : String) : Yields plan name [] []
  /-- Text that is kept is a leaf. -/
  | text {name : String} {items : List Item} {nodes : List Node} (location : Position)
    (content : Text) (htail : Yields plan name items nodes) :
    Yields plan name (.text location content :: items) (.text location content :: nodes)
  /-- A comment that is kept is a leaf, with the style of the settings that opens it. -/
  | comment {name : String} {items : List Item} {nodes : List Node} {styles : Styles}
    (location : Position) (content : Text) (hstyles : plan.settings.styles = some styles)
    (htail : Yields plan name items nodes) :
    Yields plan name (.comment location content :: items)
      (.comment location content (styles.first? content) :: nodes)
  /-- A request for one time only may be skipped. -/
  | skipped {name : String} {items : List Item} {nodes : List Node} {request : Request}
    (honce : request.once = true) (htail : Yields plan name items nodes) :
    Yields plan name (.request request :: items) nodes
  /-- Any other request is the file that it asks for. -/
  | spliced {name target path : String} {items : List Item} {nodes children : List Node}
    {request : Request} {source : Text} (htarget : target = Path.relativeTo name request.target)
    (hidentity : plan.loader.canonical target = .ok path)
    (hread : plan.loader.read target = .ok source)
    (hchildren : Yields plan target (plan.dialect.items target source) children)
    (htail : Yields plan name items nodes) :
    Yields plan name (.request request :: items)
      (.file request.location target path children :: nodes)

variable {plan : Plan}

/-- The children that are collected from items are those that the items stand for, if this is so one
level deeper. The induction is on the items. -/
lemma yields_of_collect {depth : Int} {name : String}
    (hnested : ∀ target path location source ledger after node,
      depth < plan.settings.maxDepth →
      plan.expand (depth + 1) target path location source ledger = (after, .ok node) →
      ∃ children, node = .file location target path children ∧
        plan.Yields target (plan.dialect.items target source) children)
    {items : List Item} {ledger after : Ledger} {nodes : List Node}
    (h : plan.collect (plan.answer depth name) items ledger = (after, .ok nodes)) :
    plan.Yields name items nodes := by
  induction items generalizing ledger nodes with
  | nil =>
    cases h
    exact .nil name
  | cons item items ih =>
    obtain ⟨between, first, rest, hstep, hrest, rfl⟩ := collect_cons_eq_ok h
    have htail := ih hrest
    cases item with
    | text location content =>
      obtain ⟨-, rfl⟩ := step_text_eq_ok hstep
      exact .text location content htail
    | comment location content =>
      obtain ⟨-, styles, hstyles, rfl⟩ := step_comment_eq_ok hstep
      exact .comment location content hstyles htail
    | request request =>
      obtain ⟨node?, hanswer, rfl⟩ := step_request_eq_ok hstep
      obtain ⟨hdepth,
        ⟨honce, -, -, rfl⟩ | ⟨identity, source, node, -, hidentity, hread, hexpand, rfl⟩⟩ :=
        answer_eq_ok hanswer
      · exact .skipped honce htail
      · obtain ⟨children, rfl, hchildren⟩ := hnested _ _ _ _ _ _ _ hdepth hexpand
        exact .spliced rfl hidentity hread hchildren htail
    | failure diagnostic => cases hstep

/-- The children of a file that was expanded are those that its items stand for. The induction is on
how many levels there may still be below the file. -/
lemma yields_of_expand {depth : Int} {name path : String} {location : Position} {source : Text}
    {ledger after : Ledger} {root : Node}
    (h : plan.expand depth name path location source ledger = (after, .ok root)) :
    ∃ children, root = .file location name path children ∧
      plan.Yields name (plan.dialect.items name source) children := by
  generalize hroom : (plan.settings.maxDepth - depth).toNat = room
  induction room using Nat.strong_induction_on
    generalizing depth name path location source ledger after root with
  | _ room ih =>
    obtain ⟨final, children, hcollect, -, rfl⟩ := expand_eq_ok h
    refine ⟨children, rfl, yields_of_collect ?_ hcollect⟩
    intro target path' location' source' ledger' after' node hdepth hexpand
    exact ih _ (by omega) hexpand rfl

/-- A file that was spliced in was read under its name, its identity is that of its name, and its
children are those that its own items stand for. The induction is on the items, those of the files
asked for included. -/
lemma Yields.of_mem_filesAll {name : String} {items : List Item} {nodes : List Node}
    (h : plan.Yields name items nodes) {location : Position} {inner path : String}
    {children : List Node} (hmem : .file location inner path children ∈ Node.filesAll nodes) :
    plan.loader.canonical inner = .ok path ∧ ∃ source, plan.loader.read inner = .ok source ∧
      plan.Yields inner (plan.dialect.items inner source) children := by
  induction h with
  | nil name =>
    rw [Node.filesAll] at hmem
    cases hmem
  | text location content htail ih =>
    rw [Node.filesAll] at hmem
    exact ih hmem
  | comment location content hstyles htail ih =>
    rw [Node.filesAll] at hmem
    exact ih hmem
  | skipped honce htail ih => exact ih hmem
  | spliced htarget hidentity hread hchildren htail ihchildren ihtail =>
    rw [Node.filesAll] at hmem
    rcases List.mem_cons.1 hmem with hfile | hmem
    · cases hfile
      exact ⟨hidentity, _, hread, hchildren⟩
    · rcases List.mem_append.1 hmem with hmem | hmem
      · exact ihchildren hmem
      · exact ihtail hmem

end Plan

/-- The tree of a run of a text has the children that the items of the text stand for. -/
lemma yields_of_runText {context : Context} {settings : Option Settings} {loader : Loader}
    {name : String} {content : Text} {session : Session} {root : Node}
    (h : runText context settings loader name content = (session, .ok root)) :
    ∃ children, root = .file (.start name) name name children ∧
      (context.plan settings loader).Yields name
        ((context.plan settings loader).dialect.items name content) children := by
  rw [runText_eq_expand] at h
  exact Plan.yields_of_expand (Prod.ext rfl (Prod.mk.inj h).2)

/-- The tree of a run of a file has the children that the items of its content stand for. -/
lemma yields_of_runFile {context : Context} {settings : Option Settings} {loader : Loader}
    {path : String} {session : Session} {root : Node}
    (h : runFile context settings loader path = (session, .ok root)) :
    ∃ identity content children, loader.canonical path = .ok identity ∧
      loader.read path = .ok content ∧ root = .file (.start path) path identity children ∧
      (context.plan settings loader).Yields path
        ((context.plan settings loader).dialect.items path content) children := by
  rw [runFile_eq_expandRoot] at h
  have hresult := (Prod.mk.inj h).2
  rw [Plan.expandRoot] at hresult
  split at hresult
  · cases hresult
  · rename_i identity content hfind
    obtain ⟨hidentity, hread⟩ := Plan.find_eq_ok_iff.1 hfind
    obtain ⟨children, hroot, hyields⟩ := Plan.yields_of_expand (Prod.ext rfl hresult)
    exact ⟨identity, content, children, hidentity, hread, hroot, hyields⟩

end Splice

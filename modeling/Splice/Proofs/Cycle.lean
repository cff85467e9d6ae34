import Mathlib.Data.List.Chain
import Mathlib.Logic.Relation
import Splice.Proofs.Catalogue
import Splice.Proofs.Expansion.Tree
import Splice.Proofs.Path
import Splice.Proofs.Session.Depth

/-!
# Files that ask for each other

Files that ask for each other in a circle, and not for one time only, are never run to an end. In a
tree that a run returns from a catalogue, files with one identity have the same text, and ask for
the same files, under whatever names (`Dialect.alike_items`, `Path.normalForm_relativeTo`). Hence
they have the same number of files nested in one another (`Plan.Yields.heightAll_eq`), and no file
can be nested in another one of the same identity.
-/

namespace Splice

/-! ### One text under two names -/

/-- Two items ask for the same, wherever they stand. -/
inductive Item.Alike : Item → Item → Prop where
  /-- The same text. -/
  | text (p q : Position) (content : Text) : Alike (.text p content) (.text q content)
  /-- The same comment. -/
  | comment (p q : Position) (content : Text) : Alike (.comment p content) (.comment q content)
  /-- The same file. -/
  | request (p q : Position) (target : String) (once : Bool) :
    Alike (.request ⟨target, p, once⟩) (.request ⟨target, q, once⟩)
  /-- Two failures. -/
  | failure (d e : Diagnostic) : Alike (.failure d) (.failure e)

/-- The same tokens under two names ask for the same. The induction is on the tokens as they are
read. -/
lemma Item.alike_ofTokens (name name' : String) (tokens : List Token) :
    List.Forall₂ Alike (ofTokens name tokens) (ofTokens name' tokens) := by
  fun_induction ofTokens name tokens with
  | case1 => exact .cons (.failure _ _) .nil
  | case2 content place rest ih => exact .cons (.text _ _ content) ih
  | case3 content place rest ih => exact .cons (.comment _ _ content) ih
  | case4 _ _ _ _ _ _ _ _ rest _ hcommand ih =>
    simp only [ofTokens, hcommand]
    exact .cons (.request _ _ _ false) ih
  | case5 _ _ _ _ _ _ _ _ rest _ hcommand ih =>
    simp only [ofTokens, hcommand]
    exact .cons (.request _ _ _ true) ih
  | case6 _ _ _ _ _ _ _ _ rest _ hcommand =>
    simp only [ofTokens, hcommand]
    exact .cons (.failure _ _) .nil
  | case7 _ _ _ _ _ _ _ _ rest hcommand =>
    simp only [ofTokens, hcommand]
    exact .cons (.failure _ _) .nil
  | case8 mark place rest hshape =>
    rw [ofTokens]
    · exact .cons (.failure _ _) .nil
    · exact hshape
  | case9 => exact .cons (.failure _ _) .nil
  | case10 => exact .nil
  | case11 token rest =>
    rw [ofTokens]
    · exact .cons (.failure _ _) .nil
    all_goals assumption

/-- The same text under two names asks for the same. -/
lemma Dialect.alike_items (dialect : Dialect) (name name' : String) (source : Text) :
    List.Forall₂ Item.Alike (dialect.items name source) (dialect.items name' source) :=
  Item.alike_ofTokens name name' (dialect.tokens source)

/-- A catalogue has the same content under all spellings of a path. -/
lemma Catalogue.read_eq_of_normalForm_eq {catalogue : Catalogue} {name name' : String}
    (h : Path.normalForm name = Path.normalForm name') {source source' : Text}
    (hread : catalogue.loader.read name = .ok source)
    (hread' : catalogue.loader.read name' = .ok source') : source = source' := by
  have hget := read_eq_ok_iff.1 hread
  have hget' := read_eq_ok_iff.1 hread'
  rw [get?_congr h] at hget
  exact Option.some.inj (hget.symm.trans hget')

/-! ### Files with one identity -/

/-- A name that does not end with a step up, of a file that makes no request for one time only. -/
def Plan.IsPlain (plan : Plan) (name : String) : Prop :=
  (Path.parse name).parts.getLast? ≠ some Path.up ∧
    ∀ source, plan.loader.read name = .ok source →
      ∀ request, .request request ∈ plan.dialect.items name source → request.once = false

/-- All files in nodes in a row, at any depth, have such names. -/
def Plan.ArePlain (plan : Plan) (nodes : List Node) : Prop :=
  ∀ location name path children, .file location name path children ∈ Node.filesAll nodes →
    plan.IsPlain name

namespace Plan.ArePlain

variable {plan : Plan} {nodes : List Node}

/-- Text does not matter. -/
lemma of_text {location : Position} {content : Text}
    (h : plan.ArePlain (.text location content :: nodes)) : plan.ArePlain nodes := by
  rwa [ArePlain, Node.filesAll] at h

/-- Comments do not matter. -/
lemma of_comment {location : Position} {content : Text} {style : Option CommentStyle}
    (h : plan.ArePlain (.comment location content style :: nodes)) : plan.ArePlain nodes := by
  rwa [ArePlain, Node.filesAll] at h

/-- A file in front has such a name, and so have the files in it and those after it. -/
lemma of_file {location : Position} {name path : String} {children : List Node}
    (h : plan.ArePlain (.file location name path children :: nodes)) :
    plan.IsPlain name ∧ plan.ArePlain children ∧ plan.ArePlain nodes := by
  rw [ArePlain, Node.filesAll] at h
  refine ⟨h _ _ _ _ List.mem_cons_self, ?_, ?_⟩
  · intro location' name' path' children' hmem
    exact h _ _ _ _ (List.mem_cons_of_mem _ (List.mem_append_left _ hmem))
  · intro location' name' path' children' hmem
    exact h _ _ _ _ (List.mem_cons_of_mem _ (List.mem_append_right _ hmem))

end Plan.ArePlain

/-- The same requests in two files with one identity bring the same number of files nested in one
another. The induction is on the items of the first file, those of the files asked for included; the
second file keeps pace. -/
lemma Plan.Yields.heightAll_eq {plan : Plan} {catalogue : Catalogue}
    (hloader : plan.loader = catalogue.loader) {name name' : String} {items items' : List Item}
    {nodes nodes' : List Node} (h : plan.Yields name items nodes)
    (h' : plan.Yields name' items' nodes') (halike : List.Forall₂ Item.Alike items items')
    (hname : Path.normalForm name = Path.normalForm name')
    (hlast : (Path.parse name).parts.getLast? ≠ some Path.up)
    (hlast' : (Path.parse name').parts.getLast? ≠ some Path.up)
    (honce : ∀ request, .request request ∈ items → request.once = false)
    (hplain : plan.ArePlain nodes) (hplain' : plan.ArePlain nodes') :
    Node.heightAll nodes = Node.heightAll nodes' := by
  induction h generalizing name' items' nodes' with
  | nil name =>
    cases halike
    cases h'
    rfl
  | text location content htail ih =>
    cases halike with
    | cons hhead hrest =>
      cases hhead
      cases h' with
      | text _ _ htail' =>
        rw [Node.heightAll, Node.heightAll, Node.height, Node.height,
          ih htail' hrest hname hlast hlast'
            (fun request hmem => honce request (List.mem_cons_of_mem _ hmem)) hplain.of_text
            hplain'.of_text]
  | comment location content hstyles htail ih =>
    cases halike with
    | cons hhead hrest =>
      cases hhead
      cases h' with
      | comment _ _ _ htail' =>
        rw [Node.heightAll, Node.heightAll, Node.height, Node.height,
          ih htail' hrest hname hlast hlast'
            (fun request hmem => honce request (List.mem_cons_of_mem _ hmem)) hplain.of_comment
            hplain'.of_comment]
  | skipped hskipped htail ih =>
    rw [honce _ List.mem_cons_self] at hskipped
    cases hskipped
  | @spliced name target path items nodes children request source htarget hidentity hread hchildren
      htail ihchildren ihtail =>
    cases halike with
    | cons hhead hrest =>
      cases hhead with
      | request p q asked once =>
        cases h' with
        | skipped hskipped htail' =>
          have hfalse : once = false := honce _ List.mem_cons_self
          rw [hfalse] at hskipped
          cases hskipped
        | @spliced _ target' _ _ nodes' children' _ source' htarget' _ hread' hchildren' htail' =>
          have hpath : Path.normalForm target = Path.normalForm target' := by
            rw [htarget, htarget']
            exact Path.normalForm_relativeTo hname hlast hlast' asked
          obtain rfl : source = source' :=
            Catalogue.read_eq_of_normalForm_eq hpath (hloader ▸ hread) (hloader ▸ hread')
          obtain ⟨⟨hup, hfile⟩, hinside, hafter⟩ := hplain.of_file
          obtain ⟨⟨hup', -⟩, hinside', hafter'⟩ := hplain'.of_file
          have hnested := ihchildren hchildren' (plan.dialect.alike_items target target' source)
            hpath hup hup' (hfile source hread) hinside hinside'
          have hlater := ihtail htail' hrest hname hlast hlast'
            (fun request hmem => honce request (List.mem_cons_of_mem _ hmem)) hafter hafter'
          rw [Node.heightAll, Node.heightAll, Node.height, Node.height, hnested, hlater]

/-! ### Chains of files -/

namespace Node

/-- `Nests node paths` says that `paths` are the identities of files of which each is a child of the
one before it, and the first one is `node`. -/
inductive Nests : Node → List String → Prop where
  /-- The file alone. -/
  | here (location : Position) (name path : String) (children : List Node) :
    Nests (.file location name path children) [path]
  /-- The file, and then a child of it with more files nested in it. -/
  | inside {children : List Node} {child : Node} {paths : List String} (location : Position)
    (name path : String) (hmem : child ∈ children) (hchild : Nests child paths) :
    Nests (.file location name path children) (path :: paths)

/-- A file of the tree, the top-level file included, has a file with the second identity as a child
and has itself the first one. -/
def Includes (root : Node) (outer inner : String) : Prop :=
  ∃ location name children location' name' children',
    .file location name outer children ∈ root :: root.files ∧
      .file location' name' inner children' ∈ children

/-- A file of a tree has one of the names. -/
lemma mem_names {root : Node} {location : Position} {name path : String} {children : List Node}
    (h : .file location name path children ∈ root :: root.files) : name ∈ root.names :=
  List.mem_filterMap.2 ⟨_, h, rfl⟩

/-- A file among nodes is one of the files in them. -/
lemma mem_filesAll_of_mem {nodes : List Node} {location : Position} {name path : String}
    {children : List Node} (h : .file location name path children ∈ nodes) :
    .file location name path children ∈ filesAll nodes := by
  induction nodes with
  | nil => cases h
  | cons node nodes ih =>
    cases node with
    | text p content =>
      rw [filesAll]
      exact ih (by simpa using h)
    | comment p content style =>
      rw [filesAll]
      exact ih (by simpa using h)
    | file p other identity inner =>
      rw [filesAll]
      rcases List.mem_cons.1 h with hhere | hlater
      · rw [hhere]
        exact List.mem_cons_self
      · exact List.mem_cons_of_mem _ (List.mem_append_right _ (ih hlater))

/-- The files in a file in a tree are files in the tree. -/
lemma filesAll_subset : (nodes : List Node) → {location : Position} → {name path : String} →
    {children : List Node} → .file location name path children ∈ filesAll nodes →
    filesAll children ⊆ filesAll nodes
  | [], _, _, _, _, h => by
    rw [filesAll] at h
    cases h
  | text .. :: nodes, _, _, _, _, h => by
    rw [filesAll] at h ⊢
    exact filesAll_subset nodes h
  | comment .. :: nodes, _, _, _, _, h => by
    rw [filesAll] at h ⊢
    exact filesAll_subset nodes h
  | file _ _ _ inner :: nodes, _, _, _, _, h => by
    rw [filesAll] at h ⊢
    intro other hother
    rcases List.mem_cons.1 h with hhere | h
    · cases hhere
      exact List.mem_cons_of_mem _ (List.mem_append_left _ hother)
    · rcases List.mem_append.1 h with h | h
      · exact List.mem_cons_of_mem _ (List.mem_append_left _ (filesAll_subset inner h hother))
      · exact List.mem_cons_of_mem _ (List.mem_append_right _ (filesAll_subset nodes h hother))

/-- The files in a file of a tree, the top-level file included, are files in the tree. -/
lemma filesAll_subset_files {root : Node} {location : Position} {name path : String}
    {children : List Node} (h : .file location name path children ∈ root :: root.files) :
    filesAll children ⊆ root.files := by
  rcases List.mem_cons.1 h with rfl | h
  · rw [files]
    exact List.Subset.refl _
  · cases root with
    | file _ _ _ nodes => exact filesAll_subset nodes h
    | _ => cases h

/-- A child is not as high as its file. -/
lemma height_lt_of_mem {child : Node} {children : List Node} (h : child ∈ children)
    (location : Position) (name path : String) :
    child.height < (file location name path children).height := by
  have hle : child.height ≤ heightAll children := by
    induction children with
    | nil => cases h
    | cons node nodes ih =>
      rw [heightAll]
      rcases List.mem_cons.1 h with rfl | h
      · exact Nat.le_max_left _ _
      · exact (ih h).trans (Nat.le_max_right _ _)
  rw [height]
  omega

/-- Files of one identity in a tree, the top-level file included, are equally high. -/
def IsGraded (root : Node) : Prop :=
  ∀ location name path children location' name' children',
    .file location name path children ∈ root :: root.files →
    .file location' name' path children' ∈ root :: root.files →
    (file location name path children).height = (file location' name' path children').height

/-- In such a tree, going from files to their children leads to files that are less high. The
induction is on the steps. -/
lemma IsGraded.height_lt {root : Node} (h : root.IsGraded) {outer inner : String}
    (hincludes : Relation.TransGen root.Includes outer inner) {location location' : Position}
    {name name' : String} {children children' : List Node}
    (hmem : .file location name outer children ∈ root :: root.files)
    (hmem' : .file location' name' inner children' ∈ root :: root.files) :
    (file location' name' inner children').height < (file location name outer children).height := by
  have hstep {a b : String} (hab : root.Includes a b) {p q : Position} {s t : String}
      {cs ds : List Node} (ha : .file p s a cs ∈ root :: root.files)
      (hb : .file q t b ds ∈ root :: root.files) :
      (file q t b ds).height < (file p s a cs).height := by
    obtain ⟨there, around, nodes, here, file, inside, hfile, hchild⟩ := hab
    have hin := List.mem_cons_of_mem root (filesAll_subset_files hfile (mem_filesAll_of_mem hchild))
    rw [h _ _ _ _ _ _ _ ha hfile, h _ _ _ _ _ _ _ hb hin]
    exact height_lt_of_mem hchild there around a
  induction hincludes generalizing location' name' children' with
  | single hsingle => exact hstep hsingle hmem hmem'
  | tail _ hlast ih =>
    obtain ⟨there, around, nodes, -, -, -, hfile, -⟩ := id hlast
    exact (hstep hlast hfile hmem').trans (ih hfile)

/-- In such a tree, no identity leads back to itself. -/
lemma IsGraded.acyclic {root : Node} (h : root.IsGraded) (path : String) :
    ¬ Relation.TransGen root.Includes path path := by
  intro hcycle
  obtain ⟨_, hfirst, -⟩ := Relation.TransGen.head'_iff.1 hcycle
  obtain ⟨location, name, children, -, -, -, hfile, -⟩ := hfirst
  exact Nat.lt_irrefl _ (h.height_lt hcycle hfile hfile)

/-- The identities of files nested in one another include each other one by one. The induction is on
the files. -/
lemma Nests.isChain {root node : Node} {paths : List String} (h : node.Nests paths)
    (hmem : node ∈ root :: root.files) : paths.IsChain root.Includes := by
  induction h with
  | here location name path children => exact .singleton path
  | inside location name path hchild hnests ih =>
    cases hnests with
    | here location' name' path' children' =>
      exact .cons_cons ⟨_, _, _, _, _, _, hmem, hchild⟩ (.singleton path')
    | inside location' name' path' hchild' hnests' =>
      refine .cons_cons ⟨_, _, _, _, _, _, hmem, hchild⟩ (ih ?_)
      exact List.mem_cons_of_mem _ (filesAll_subset_files hmem (mem_filesAll_of_mem hchild))

/-- In such a tree, files nested in one another have different identities. -/
lemma IsGraded.nodup {root : Node} (h : root.IsGraded) {paths : List String}
    (hnests : root.Nests paths) : paths.Nodup := by
  have hchain := (hnests.isChain List.mem_cons_self).imp fun _ _ => Relation.TransGen.single
  refine hchain.pairwise.imp ?_
  rintro outer inner hincludes rfl
  exact h.acyclic outer hincludes

end Node

/-- The tree of a file from a catalogue, in which all files have plain names, is graded. -/
lemma Plan.Yields.isGraded {plan : Plan} {catalogue : Catalogue}
    (hloader : plan.loader = catalogue.loader) {name : String} {content : Text}
    {children : List Node} {root : Node} {location : Position} {path : String}
    (hidentity : plan.loader.canonical name = .ok path)
    (hread : plan.loader.read name = .ok content)
    (h : plan.Yields name (plan.dialect.items name content) children)
    (hroot : root = .file location name path children)
    (hplain : ∀ name ∈ root.names, plan.IsPlain name) : root.IsGraded := by
  have hfile {there : Position} {inner path : String} {nodes : List Node}
      (hmem : .file there inner path nodes ∈ root :: root.files) :
      plan.loader.canonical inner = .ok path ∧ ∃ source, plan.loader.read inner = .ok source ∧
        plan.Yields inner (plan.dialect.items inner source) nodes := by
    rw [hroot, Node.files] at hmem
    rcases List.mem_cons.1 hmem with hhere | hmem
    · cases hhere
      exact ⟨hidentity, content, hread, h⟩
    · exact h.of_mem_filesAll hmem
  have hinside {there : Position} {inner path : String} {nodes : List Node}
      (hmem : .file there inner path nodes ∈ root :: root.files) : plan.ArePlain nodes :=
    fun _ _ _ _ hnested =>
      hplain _ (Node.mem_names (List.mem_cons_of_mem _ (Node.filesAll_subset_files hmem hnested)))
  intro there inner path nodes there' inner' nodes' hmem hmem'
  obtain ⟨hpath, source, hsource, hyields⟩ := hfile hmem
  obtain ⟨hpath', source', hsource', hyields'⟩ := hfile hmem'
  obtain ⟨hup, honce⟩ := hplain _ (Node.mem_names hmem)
  obtain ⟨hup', -⟩ := hplain _ (Node.mem_names hmem')
  have hnormal : Path.normalForm inner = Path.normalForm inner' := by
    rw [hloader] at hpath hpath'
    exact Except.ok.inj (hpath.trans hpath'.symm)
  obtain rfl : source = source' :=
    Catalogue.read_eq_of_normalForm_eq hnormal (hloader ▸ hsource) (hloader ▸ hsource')
  rw [Node.height, Node.height, hyields.heightAll_eq hloader hyields'
    (plan.dialect.alike_items inner inner' source) hnormal hup hup' (honce source hsource)
    (hinside hmem) (hinside hmem')]

/-- **Files that ask for each other in a circle are never run to an end.** If a run of a file from a
catalogue returns a tree in which no file makes a request for one time only and no name ends with a
step up, then files nested in one another have different identities, from the top-level file
downwards, and no identity leads back to itself by going from files to files they ask for. -/
theorem acyclic_of_runFile (catalogue : Catalogue) (context : Context) (settings : Option Settings)
    (path : String) (session : Session) (root : Node)
    (h : runFile context settings catalogue.loader path = (session, .ok root))
    (hplain : ∀ name ∈ root.names, (context.plan settings catalogue.loader).IsPlain name) :
    (∀ paths, root.Nests paths → paths.Nodup) ∧
      ∀ path, ¬ Relation.TransGen root.Includes path path := by
  obtain ⟨identity, content, children, hidentity, hread, hroot, hyields⟩ := yields_of_runFile h
  have hgraded : root.IsGraded := hyields.isGraded rfl hidentity hread hroot hplain
  constructor
  · intro paths hnests
    exact hgraded.nodup hnests
  · intro path
    exact hgraded.acyclic path

/-- Whether an item is a request for one time only. -/
def Item.isOnce : Item → Bool
  | request asked => asked.once
  | _ => false

/-- A name of a catalogue is plain if its last part and the items of its content say so. -/
lemma Catalogue.isPlain_of_get? {catalogue : Catalogue} {context : Context}
    {settings : Option Settings} {name : String}
    (hlast : (Path.parse name).parts.getLast? ≠ some Path.up)
    (honce : ((catalogue.get? name).any fun source =>
      ((context.plan settings catalogue.loader).dialect.items name source).any Item.isOnce) =
        false) :
    (context.plan settings catalogue.loader).IsPlain name := by
  refine ⟨hlast, ?_⟩
  intro source hread request hmem
  rw [read_eq_ok_iff.1 hread, Option.any_some] at honce
  have hrequest := List.any_eq_false.1 honce _ hmem
  exact Bool.eq_false_iff.2 hrequest

/-- A file that asks for another one by two spellings of its path, which asks for a third one, is
such a file. -/
theorem acyclic_of_runFile_respelled :
    ∃ session root,
      runFile .initial none (Catalogue.loader
        ⟨[("m", "#include \"d/../x\"\n#include \"x\"\n".toList), ("x", "#include \"y\"\n".toList),
          ("y", "c\n".toList)]⟩) "m" = (session, .ok root) ∧
      root.names = ["m", "d/../x", "d/../y", "x", "y"] ∧
      (∀ paths, root.Nests paths → paths.Nodup) ∧
      ∀ path, ¬ Relation.TransGen root.Includes path path := by
  have hroot : (runFile .initial none (Catalogue.loader
      ⟨[("m", "#include \"d/../x\"\n#include \"x\"\n".toList), ("x", "#include \"y\"\n".toList),
        ("y", "c\n".toList)]⟩) "m").2 =
      .ok (.file ⟨"m", 1, 1⟩ "m" "m"
        [.file ⟨"m", 1, 1⟩ "d/../x" "x"
          [.file ⟨"d/../x", 1, 1⟩ "d/../y" "y" [.text ⟨"d/../y", 1, 1⟩ ['c', '\n']]],
        .file ⟨"m", 2, 1⟩ "x" "x"
          [.file ⟨"x", 1, 1⟩ "y" "y" [.text ⟨"y", 1, 1⟩ ['c', '\n']]]]) := by
    decide +kernel
  have hnames : Node.names (.file ⟨"m", 1, 1⟩ "m" "m"
      [.file ⟨"m", 1, 1⟩ "d/../x" "x"
        [.file ⟨"d/../x", 1, 1⟩ "d/../y" "y" [.text ⟨"d/../y", 1, 1⟩ ['c', '\n']]],
      .file ⟨"m", 2, 1⟩ "x" "x"
        [.file ⟨"x", 1, 1⟩ "y" "y" [.text ⟨"y", 1, 1⟩ ['c', '\n']]]]) =
      ["m", "d/../x", "d/../y", "x", "y"] := by
    simp [Node.names, Node.name?, Node.files, Node.filesAll]
  refine ⟨_, _, Prod.ext rfl hroot, hnames, acyclic_of_runFile _ _ _ _ _ _ (Prod.ext rfl hroot) ?_⟩
  intro name hname
  rw [hnames] at hname
  simp only [List.mem_cons, List.not_mem_nil, or_false] at hname
  rcases hname with rfl | rfl | rfl | rfl | rfl
  all_goals exact Catalogue.isPlain_of_get? (by decide) (by decide +kernel)

end Splice

import Splice.Proofs.Expansion.Rendering

/-!
# Output leads back to its source

Every character of the processed text leads back to the place it was copied from. The argument has
three parts. In a leaf that is a piece of a source, the position of a character addresses this very
character in the source (`Node.exists_position_of_leaf`). The walk through a tree that looks up an
offset ends in the leaf that holds the character, so what holds of the leaves holds of the lookup
(`Node.Grounded.leadsBack`). And the leaves of a file that was expanded are pieces of its source,
since its tokens are (`Plan.grounded_of_expand`).
-/

namespace Splice

/-! ### Looking up an offset -/

namespace Node

mutual

/-- The files around the character at an offset of the processed text, outermost first. The last of
them is the file that has the leaf with the character as a child. -/
def enclosing : Node → Nat → List Node
  | text .., _ => []
  | comment .., _ => []
  | file location name path children, n =>
    file location name path children :: enclosingAll children n

/-- The files in nodes in a row around the character at an offset of their processed text. -/
def enclosingAll : List Node → Nat → List Node
  | [], _ => []
  | node :: nodes, n =>
    if n < node.render.length then node.enclosing n
    else enclosingAll nodes (n - node.render.length)

end

mutual

/-- The length of a node is that of its processed text. -/
lemma length_eq_length_render : (node : Node) → node.length = node.render.length
  | text .. => rfl
  | comment .. => rfl
  | file _ _ _ children => by
    rw [length, render]
    exact lengthAll_eq_length_renderAll children

/-- The length of nodes in a row is that of their processed text. -/
lemma lengthAll_eq_length_renderAll : (nodes : List Node) →
    lengthAll nodes = (renderAll nodes).length
  | [] => rfl
  | node :: nodes => by
    rw [lengthAll, renderAll, List.length_append, length_eq_length_render node,
      lengthAll_eq_length_renderAll nodes]

end

end Node

/-- A position is that of a character of the named source: its line and column address one that is
the same. -/
def Position.Addresses (position : Position) (name : String) (source : Text) (c : Char) : Prop :=
  position.source = name ∧
    ∃ offset, source.offsetAt? position.line position.column = some offset ∧
      source[offset]? = some c

namespace Node

/-- A node of the file `name` with the text `source` stands where it says: a leaf is a piece of
`source` at its position, and a file has been read by the loader and its children stand where they
say. -/
inductive Grounded (loader : Loader) : String → Text → Node → Prop where
  /-- Plain text. -/
  | text (name : String) (before content after : Text) :
    Grounded loader name (before ++ (content ++ after))
      (.text ((Place.start.skip before).position name) content)
  /-- A comment. -/
  | comment (name : String) (before content after : Text) (style : Option CommentStyle) :
    Grounded loader name (before ++ (content ++ after))
      (.comment ((Place.start.skip before).position name) content style)
  /-- A file. -/
  | file (outer : String) (around : Text) (location : Position) (name path : String)
    (children : List Node) (source : Text) (hread : loader.read name = .ok source)
    (hchildren : ∀ child ∈ children, Grounded loader name source child) :
    Grounded loader outer around (.file location name path children)

/-- The position of a character in a piece of a source addresses this character of the source. -/
lemma exists_position_of_leaf (name : String) (before content after : Text) {n : Nat} {c : Char}
    (hc : content[n]? = some c) :
    ∃ position, ((Place.start.skip before).position name).within? content n = some position ∧
      position.Addresses name (before ++ (content ++ after)) c := by
  obtain ⟨hn, hget⟩ := List.getElem?_eq_some_iff.1 hc
  have hsplit : before ++ (content ++ after) =
      (before ++ content.take n) ++ (content.drop n ++ after) := by
    rw [List.append_assoc, ← List.append_assoc (content.take n), List.take_append_drop]
  have hlength : (before ++ content.take n).length = before.length + n := by
    rw [List.length_append, List.length_take, Nat.min_eq_left hn.le]
  refine ⟨_, Place.within?_position _ name content hn, rfl, before.length + n, ?_, ?_⟩
  · rw [← Place.skip_append, hsplit, ← hlength]
    exact Text.offsetAt?_skip _ _
  · rw [List.getElem?_append_right (Nat.le_add_right _ _), Nat.add_sub_cancel_left,
      List.getElem?_append_left hn, hc]

/-- What looking up an offset comes to, in a node of the file `name` with the text `source`, or in
nodes of it in a row: a position that addresses the character, either in this file, if no other file
is around the character in the node, or in the innermost file around it. -/
def LeadsBack (loader : Loader) (name : String) (source : Text) (c : Char) (found : Option Position)
    (files : List Node) : Prop :=
  ∃ position, found = some position ∧
    (files = [] ∧ position.Addresses name source c ∨
      ∃ outer location inner path children text,
        files = outer ++ [.file location inner path children] ∧ loader.read inner = .ok text ∧
        position.Addresses inner text c)

/-- In nodes in a row, the offset is looked up in the one that holds the character. -/
lemma leadsBack_all {loader : Loader} {name : String} {source : Text} {nodes : List Node}
    (h : ∀ node ∈ nodes, ∀ (n : Nat) (c : Char), node.render[n]? = some c →
      LeadsBack loader name source c (node.offset? n) (node.enclosing n))
    (n : Nat) (c : Char) (hc : (renderAll nodes)[n]? = some c) :
    LeadsBack loader name source c (offsetAll? nodes n) (enclosingAll nodes n) := by
  induction nodes generalizing n with
  | nil => simp [renderAll] at hc
  | cons node nodes ih =>
    have hlength := length_eq_length_render node
    rw [renderAll] at hc
    by_cases hn : n < node.render.length
    · have hin : (n : Int) < node.length := by omega
      rw [List.getElem?_append_left hn] at hc
      rw [offsetAll?, if_pos hin, enclosingAll, if_pos hn]
      exact h node List.mem_cons_self n c hc
    · have hout : ¬ (n : Int) < node.length := by omega
      have hsub : (n : Int) - node.length = ((n - node.render.length : Nat) : Int) := by omega
      rw [List.getElem?_append_right (Nat.le_of_not_lt hn)] at hc
      rw [offsetAll?, if_neg hout, enclosingAll, if_neg hn, hsub]
      exact ih (fun other hother => h other (List.mem_cons_of_mem _ hother)) _ hc

/-- A file leaves it to its children to look up an offset, and is itself around the character. If it
is the innermost file there, the character is one of its own text. -/
lemma LeadsBack.exists_enclosing {loader : Loader} {name : String} {source : Text} {c : Char}
    {children : List Node} {n : Nat}
    (h : LeadsBack loader name source c (offsetAll? children n) (enclosingAll children n))
    (location : Position) (path : String) :
    ∃ position outer there inner at' nodes text,
      offset? (.file location name path children) n = some position ∧
      enclosing (.file location name path children) n =
        outer ++ [.file there inner at' nodes] ∧
      (outer = [] ∧ inner = name ∧ text = source ∨ outer ≠ [] ∧ loader.read inner = .ok text) ∧
      position.Addresses inner text c := by
  obtain ⟨position, hposition, hfound⟩ := h
  have hoffset : offset? (.file location name path children) n = some position := by
    rw [offset?, if_neg (by omega), hposition]
  rcases hfound with ⟨hnone, haddress⟩ |
    ⟨outer, there, inner, at', nodes, text, hfiles, htext, haddress⟩
  · refine ⟨position, [], location, name, path, children, source, hoffset, ?_,
      Or.inl ⟨rfl, rfl, rfl⟩, haddress⟩
    rw [enclosing, hnone, List.nil_append]
  · refine ⟨position, .file location name path children :: outer, there, inner, at', nodes, text,
      hoffset, ?_, Or.inr ⟨List.cons_ne_nil _ _, htext⟩, haddress⟩
    rw [enclosing, hfiles, List.cons_append]

/-- Looking up an offset in a node that stands where it says leads back to the character. The
induction is on the node. -/
lemma Grounded.leadsBack {loader : Loader} {name : String} {source : Text} {node : Node}
    (h : node.Grounded loader name source) (n : Nat) (c : Char) (hc : node.render[n]? = some c) :
    LeadsBack loader name source c (node.offset? n) (node.enclosing n) := by
  induction h generalizing n c with
  | text name before content after =>
    obtain ⟨position, hposition, haddress⟩ := exists_position_of_leaf name before content after hc
    exact ⟨position, hposition, Or.inl ⟨rfl, haddress⟩⟩
  | comment name before content after style =>
    obtain ⟨position, hposition, haddress⟩ := exists_position_of_leaf name before content after hc
    exact ⟨position, hposition, Or.inl ⟨rfl, haddress⟩⟩
  | file outer around location name path children source hread hchildren ih =>
    rw [render] at hc
    obtain ⟨position, files, there, inner, at', nodes, text, hoffset, hfiles, hsource, haddress⟩ :=
      (leadsBack_all ih n c hc).exists_enclosing location path
    refine ⟨position, hoffset, Or.inr ⟨files, there, inner, at', nodes, text, hfiles, ?_, haddress⟩⟩
    rcases hsource with ⟨-, rfl, rfl⟩ | ⟨-, htext⟩
    · exact hread
    · exact htext

end Node

/-! ### What is expanded stands where it says -/

namespace Dialect

variable {dialect : Dialect} {source : Text}

/-- A step that cuts off a segment with a kept token cuts off just the value of this token. -/
lemma content_of_isKept {place : Place} {rest : Text} {segment : Segment} {token : Token}
    (h : dialect.step place source = .segment segment rest) (htoken : token ∈ segment.tokens)
    (hkept : token.isKept = true) :
    segment.content = token.lexeme.value ∧ token.place = place := by
  have hstart := start_of_step h
  cases segment with
  | text p content =>
    cases hstart
    rw [List.mem_singleton.1 htoken]
    exact ⟨rfl, rfl⟩
  | comment p style content =>
    cases hstart
    rw [Segment.tokens] at htoken
    split at htoken
    · simp at htoken
    · rw [List.mem_singleton.1 htoken]
      exact ⟨rfl, rfl⟩
  | directive p content tokens =>
    rw [isKept_of_mem_directive h htoken] at hkept
    exact absurd hkept Bool.false_ne_true
  | shebang p content => simp [Segment.tokens] at htoken

/-- The value of a kept token is a piece of the source, and the token stands at its start. -/
lemma exists_before_of_isKept {token : Token} (htoken : token ∈ dialect.tokens source)
    (hkept : token.isKept = true) :
    ∃ before after, source = before ++ (token.lexeme.value ++ after) ∧
      token.place = Place.start.skip before := by
  rcases List.mem_append.1 htoken with htoken | htoken
  · obtain ⟨segment, hsegment, htoken⟩ := List.mem_flatMap.1 htoken
    obtain ⟨earlier, later, hsplit⟩ := List.append_of_mem hsegment
    obtain ⟨rest, hsource, hstep⟩ := exists_step_of_segments_eq hsplit
    obtain ⟨hcontent, hplace⟩ := content_of_isKept hstep htoken hkept
    refine ⟨earlier.flatMap Segment.content, rest, ?_, hplace⟩
    rw [← hcontent, hsource]
  · rw [isKept_of_mem_ending htoken] at hkept
    exact absurd hkept Bool.false_ne_true

end Dialect

namespace Item

/-- An item of the file `name` with the text `source` stands where it says, if it is text or a
comment. -/
def Stands (name : String) (source : Text) : Item → Prop
  | .text location content | .comment location content =>
    ∃ before after, source = before ++ (content ++ after) ∧
      location = (Place.start.skip before).position name
  | _ => True

/-- The items of tokens stand where they say, if all kept tokens do. -/
lemma stands_of_mem_ofTokens {name : String} {source : Text} {tokens : List Token}
    (htokens : ∀ token ∈ tokens, token.isKept = true →
      ∃ before after, source = before ++ (token.lexeme.value ++ after) ∧
        token.place = Place.start.skip before)
    {item : Item} (h : item ∈ ofTokens name tokens) : item.Stands name source := by
  cases comesFrom_of_mem h with
  | text hmem =>
    obtain ⟨before, after, hsource, rfl⟩ := htokens _ hmem rfl
    exact ⟨before, after, hsource, rfl⟩
  | comment hmem =>
    obtain ⟨before, after, hsource, rfl⟩ := htokens _ hmem rfl
    exact ⟨before, after, hsource, rfl⟩
  | request target once hmem => trivial
  | requested message hmem => trivial
  | fault hkind hlocated => trivial

end Item

/-- The items of a source stand where they say. -/
lemma Dialect.stands_of_mem_items {dialect : Dialect} {name : String} {source : Text} {item : Item}
    (h : item ∈ dialect.items name source) : item.Stands name source :=
  Item.stands_of_mem_ofTokens (fun _ htoken hkept => exists_before_of_isKept htoken hkept) h

namespace Plan

variable {plan : Plan}

/-- A node that is collected from items that stand where they say stands where it says, if this is
so for the files that requests are answered by. The induction is on the items. -/
lemma grounded_of_collect {answer : Request → Ledger → Expansion (Option Node)} {name : String}
    {source : Text}
    (hanswer : ∀ request ledger after node, answer request ledger = (after, .ok (some node)) →
      node.Grounded plan.loader name source)
    {items : List Item} (hitems : ∀ item ∈ items, item.Stands name source) {ledger after : Ledger}
    {nodes : List Node} (h : plan.collect answer items ledger = (after, .ok nodes)) :
    ∀ node ∈ nodes, node.Grounded plan.loader name source := by
  induction items generalizing ledger nodes with
  | nil =>
    cases h
    simp
  | cons item items ih =>
    obtain ⟨between, first, rest, hstep, hrest, rfl⟩ := collect_cons_eq_ok h
    have hitem := hitems item List.mem_cons_self
    have htail := ih (fun other hother => hitems other (List.mem_cons_of_mem _ hother)) hrest
    have hfirst : ∀ node ∈ first, node.Grounded plan.loader name source := by
      intro node hnode
      cases item with
      | text location content =>
        obtain ⟨-, rfl⟩ := step_text_eq_ok hstep
        obtain ⟨before, tail, rfl, rfl⟩ := hitem
        rw [List.mem_singleton.1 hnode]
        exact .text name before content tail
      | comment location content =>
        obtain ⟨-, styles, -, rfl⟩ := step_comment_eq_ok hstep
        obtain ⟨before, tail, rfl, rfl⟩ := hitem
        rw [List.mem_singleton.1 hnode]
        exact .comment name before content tail _
      | request request =>
        obtain ⟨node?, hnode?, rfl⟩ := step_request_eq_ok hstep
        obtain rfl := Option.mem_toList.1 hnode
        exact hanswer request ledger between node hnode?
      | failure diagnostic => cases hstep
    intro node hnode
    rcases List.mem_append.1 hnode with hnode | hnode
    · exact hfirst node hnode
    · exact htail node hnode

/-- The children of a file that was expanded stand where they say. The induction is on how many
levels there may still be below the file. -/
lemma grounded_of_expand {depth : Int} {name path : String} {location : Position} {source : Text}
    {ledger after : Ledger} {root : Node}
    (h : plan.expand depth name path location source ledger = (after, .ok root)) :
    ∃ children, root = .file location name path children ∧
      ∀ child ∈ children, child.Grounded plan.loader name source := by
  generalize hroom : (plan.settings.maxDepth - depth).toNat = room
  induction room using Nat.strong_induction_on
    generalizing depth name path location source ledger after root with
  | _ room ih =>
    obtain ⟨final, children, hcollect, -, rfl⟩ := expand_eq_ok h
    refine ⟨children, rfl, grounded_of_collect ?_
      (fun item hitem => Dialect.stands_of_mem_items hitem) hcollect⟩
    intro request before between node hanswer
    obtain ⟨hdepth, ⟨-, -, -, hnone⟩ | ⟨identity, text, inner, -, -, hread, hexpand, hsome⟩⟩ :=
      answer_eq_ok hanswer
    · cases hnone
    · cases hsome
      obtain ⟨nested, rfl, hnested⟩ := ih _ (by omega) hexpand rfl
      exact .file name source request.location _ _ nested text hread hnested

end Plan

/-- Each character of the processed text of `root`, the tree of a file with the text `content`,
leads back to its source: the position of its offset is in the innermost file around it, and the
line and the column of that position address, in the text of this file, a character that is the
same. -/
def Node.LeadsBackTo (loader : Loader) (content : Text) (root : Node) : Prop :=
  ∀ n : Nat, n < root.length →
    ∃ position outer location name path children source offset,
      root.offset? n = some position ∧
      root.enclosing n = outer ++ [.file location name path children] ∧
      (outer = [] ∧ source = content ∨ outer ≠ [] ∧ loader.read name = .ok source) ∧
      position.source = name ∧
      source.offsetAt? position.line position.column = some offset ∧
      offset < source.length ∧ source[offset]? = root.render[n]?

/-- The tree of a file that was expanded leads back to the text of the file. -/
lemma Plan.leadsBackTo_of_expand {plan : Plan} {depth : Int} {name path : String}
    {location : Position} {source : Text} {ledger after : Ledger} {root : Node}
    (h : plan.expand depth name path location source ledger = (after, .ok root)) :
    root.LeadsBackTo plan.loader source := by
  obtain ⟨children, rfl, hchildren⟩ := grounded_of_expand h
  intro n hn
  rw [Node.length_eq_length_render] at hn
  have hc := List.getElem?_eq_getElem hn
  have hlookup := Node.leadsBack_all
    (fun child hchild k d hd => (hchildren child hchild).leadsBack k d hd) n _ hc
  obtain ⟨position, outer, there, inner, at', nodes, text, hoffset, houter, htext, haddress⟩ :=
    hlookup.exists_enclosing location path
  obtain ⟨hname, offset, haddress, hchar⟩ := haddress
  refine ⟨position, outer, there, inner, at', nodes, text, offset, hoffset, houter, ?_, hname,
    haddress, (List.getElem?_eq_some_iff.1 hchar).1, ?_⟩
  · rcases htext with ⟨hnil, -, rfl⟩ | hread
    · exact Or.inl ⟨hnil, rfl⟩
    · exact Or.inr hread
  · rw [hchar, hc]

/-- **Output leads back to its source.** The tree that a run of a text returns leads back to this
text, and the tree that a run of a file returns leads back to the content of the file. -/
theorem leadsBackTo_of_run (context : Context) (settings : Option Settings) (loader : Loader) :
    (∀ name content session root,
      runText context settings loader name content = (session, .ok root) →
      root.LeadsBackTo loader content) ∧
    (∀ path session root, runFile context settings loader path = (session, .ok root) →
      ∃ content, loader.read path = .ok content ∧ root.LeadsBackTo loader content) := by
  refine ⟨?_, ?_⟩
  · intro name content session root h
    rw [runText_eq_expand] at h
    exact Plan.leadsBackTo_of_expand (Prod.ext rfl (Prod.mk.inj h).2)
  · intro path session root h
    rw [runFile_eq_expandRoot] at h
    have hresult := (Prod.mk.inj h).2
    rw [Plan.expandRoot] at hresult
    split at hresult
    · cases hresult
    · rename_i identity content hfind
      exact ⟨content, (Plan.find_eq_ok_iff.1 hfind).2,
        Plan.leadsBackTo_of_expand (Prod.ext rfl hresult)⟩

/-- A text in which a comment and a request for a file with another comment stand leads back. -/
theorem leadsBackTo_of_run_nested :
    ∃ session root,
      runText .initial (some (Settings.default.addStyle .doubleSlash))
        (Catalogue.loader ⟨[("d/x", "p // q\nr".toList)]⟩) "d/m"
        "a // b\n#include \"x\"\nc".toList = (session, .ok root) ∧
      root.render = "a // b\np // q\nrc".toList ∧
      root.LeadsBackTo (Catalogue.loader ⟨[("d/x", "p // q\nr".toList)]⟩)
        "a // b\n#include \"x\"\nc".toList := by
  have hsuccess :
      (runText .initial (some (Settings.default.addStyle .doubleSlash))
        (Catalogue.loader ⟨[("d/x", "p // q\nr".toList)]⟩) "d/m"
        "a // b\n#include \"x\"\nc".toList).2.toOption.map Node.render =
          some "a // b\np // q\nrc".toList := by
    decide +kernel
  obtain ⟨session, root, hrun, hrender⟩ := exists_root_of_render _ hsuccess
  exact ⟨session, root, hrun, hrender, (leadsBackTo_of_run _ _ _).1 _ _ _ _ hrun⟩

end Splice

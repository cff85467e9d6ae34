import Splice.Node.Json
import Splice.Proofs.Json.RoundTrip

/-!
# Stored trees are restored

A tree of nodes is written as JSON by what it is stored as, and read in the same way. So there are
three things to prove: the JSON value of what is stored for a node is one that is read back as it
was written (`Node.faithful_stored`), it stands for what is stored (`Node.nodeOfJson_stored`), and
what is stored is the node (`Node.node?_stored`). Each goes by induction on the node, with its
children in a row. A member is found by its key, wherever it stands in its object
(`Json.lookup_record`).
-/

namespace Splice

namespace Json

/-- Different texts are different strings. -/
lemma Str.ofText_toList_inj (a b : String) : Str.ofText a.toList = Str.ofText b.toList ↔ a = b := by
  constructor
  · intro h
    have htext : a.toList = b.toList := by
      simpa using congrArg Str.text? h
    exact String.toList_inj.1 htext
  · rintro rfl
    rfl

/-- The value of a key among members whose keys are texts. -/
lemma lookup_record {α : Type} (key : String) (members : List (String × α)) :
    lookup key (members.map fun member => (Str.ofText member.1.toList, member.2)) =
      (members.reverse.find? fun member => member.1 = key).map Prod.snd := by
  rw [lookup, ← List.map_reverse, List.find?_map, Option.map_map]
  simp only [Function.comp_def, Str.ofText_toList_inj]

/-- An object whose keys are texts is read back as it was written, if its values are. -/
lemma faithful_record {members : List (String × Json)}
    (h : ∀ member ∈ members, member.2.Faithful) : (record members).Faithful := by
  induction members with
  | nil => trivial
  | cons member members ih =>
    have hrest := ih fun other hother => h other (List.mem_cons_of_mem _ hother)
    exact ⟨⟨_, rfl⟩, h member List.mem_cons_self, hrest⟩

end Json

namespace Stored

/-! ### Members -/

/-- An object that says what it is stands for a position, a comment style or a node. -/
lemma ofJson_record {members : List (String × Json)} {type : String}
    (htype : (members.reverse.find? fun member => member.1 = "_type").map Prod.snd =
      some (.text type)) :
    ofJson (.record members) =
      if type = "PosInfo" then
        positionOfMembers (members.map fun member => (Json.Str.ofText member.1.toList, member.2))
      else if type = "Commenter" then
        styleOfMembers (members.map fun member => (Json.Str.ofText member.1.toList, member.2))
      else nodeOfJson (.record members) := by
  have hlookup := (Json.lookup_record "_type" members).trans htype
  have htext : ∀ name : String, (Json.text type).text? = some name.toList ↔ type = name := by
    intro name
    rw [Json.text, Json.chars, Json.text?, Json.Str.text?_ofText, Option.some.injEq,
      String.toList_inj]
  rw [Json.record, ofJson, ofMembers, hlookup, nodeOfJson, hlookup]
  simp only [← htext]
  rfl

/-- Each member of an object is read for itself. -/
lemma ofEach_eq_map (members : List (Json.Str × Json)) :
    ofEach members = members.map fun member => (member.1, ofJson member.2) := by
  induction members with
  | nil => rfl
  | cons member members ih => rw [ofEach, ih, List.map_cons]

/-- A member that can be read is found by its key. -/
lemma get?_ofEach {members : List (String × Json)} {key : String} {json : Json} {value : Stored}
    (hjson : (members.reverse.find? fun member => member.1 = key).map Prod.snd = some json)
    (hvalue : ofJson json = .ok value) :
    Members.get? (ofEach (members.map fun member => (Json.Str.ofText member.1.toList, member.2)))
      key = .ok (some value) := by
  have hmap : ofEach (members.map fun member => (Json.Str.ofText member.1.toList, member.2)) =
      (members.map fun member => (member.1, ofJson member.2)).map
        fun member => (Json.Str.ofText member.1.toList, member.2) := by
    rw [ofEach_eq_map, List.map_map, List.map_map]
    rfl
  have hread : Json.lookup key
      (ofEach (members.map fun member => (Json.Str.ofText member.1.toList, member.2))) =
        some (.ok value) := by
    rw [hmap, Json.lookup_record, ← List.map_reverse, List.find?_map, Option.map_map]
    obtain ⟨member, hfind, rfl⟩ := Option.map_eq_some_iff.1 hjson
    rw [← hvalue]
    exact Option.map_eq_some_iff.2 ⟨member, hfind, rfl⟩
  rw [Members.get?, hread]

/-- A text is read from its location and its content. -/
lemma textOfMembers_eq {members : Members} {location content : Stored}
    (hlocation : members.get? "location" = .ok (some location))
    (hcontent : members.get? "content" = .ok (some content)) :
    textOfMembers members = .ok (.text location content) := by
  rw [textOfMembers, hlocation, hcontent]
  rfl

/-- A comment is read from its location, its content and its style. -/
lemma commentOfMembers_eq {members : Members} {location content delimiters : Stored}
    (hlocation : members.get? "location" = .ok (some location))
    (hcontent : members.get? "content" = .ok (some content))
    (hstyle : members.get? "commenter" = .ok (some delimiters)) :
    commentOfMembers members = .ok (.comment location content delimiters) := by
  rw [commentOfMembers, hlocation, hcontent, hstyle]
  rfl

/-- A file is read from its location, its name, its path and its children. -/
lemma fileOfMembers_eq {members : Members} {location name path children : Stored}
    (hlocation : members.get? "location" = .ok (some location))
    (hname : members.get? "name" = .ok (some name))
    (hpath : members.get? "path" = .ok (some path))
    (hchildren : members.get? "children" = .ok (some children)) :
    fileOfMembers members = .ok (.file location name path children) := by
  rw [fileOfMembers, hlocation, hname, hpath, hchildren]
  rfl

end Stored

/-! ### Positions and comment styles -/

namespace Position

variable (p : Position)

/-- The JSON value of a position is read back as it was written. -/
lemma faithful_stored : p.stored.toJson.Faithful := by
  refine Json.faithful_record fun member hmember => ?_
  simp only [List.mem_cons, List.not_mem_nil, or_false] at hmember
  rcases hmember with rfl | rfl | rfl | rfl
  · exact ⟨_, rfl⟩
  · trivial
  · trivial
  · exact ⟨_, rfl⟩

/-- The JSON value of a position stands for what is stored. -/
lemma ofJson_stored : Stored.ofJson p.stored.toJson = .ok p.stored := by
  rw [stored, Stored.toJson, Stored.ofJson_record rfl, if_pos rfl, Stored.positionOfMembers]
  simp only [Json.lookup_record]
  rfl

/-- What is stored for a position is the position. -/
lemma position?_stored : p.stored.position? = some p := by
  obtain ⟨source, line, column⟩ := p
  simp [stored, Stored.position?, Json.text, Json.chars, Json.text?, Json.integer, Json.integer?]

end Position

namespace CommentStyle

/-- The JSON value of a comment style, or of none, is read back as it was written. -/
lemma faithful_stored? (style : Option CommentStyle) :
    (CommentStyle.stored? style).toJson.Faithful := by
  cases style with
  | none => trivial
  | some style =>
    refine Json.faithful_record fun member hmember => ?_
    simp only [List.mem_cons, List.not_mem_nil, or_false] at hmember
    rcases hmember with rfl | rfl | rfl | rfl
    · exact ⟨_, rfl⟩
    · exact ⟨_, rfl⟩
    · exact ⟨_, rfl⟩
    · trivial

/-- The JSON value of a comment style, or of none, stands for what is stored. -/
lemma ofJson_stored? (style : Option CommentStyle) :
    Stored.ofJson (CommentStyle.stored? style).toJson = .ok (CommentStyle.stored? style) := by
  cases style with
  | none => rfl
  | some style =>
    obtain ⟨opener, closer, strip, hopener⟩ := style
    have htruthy : (Json.chars opener).truthy = true := by
      simpa [Json.chars, Json.truthy, Json.Str.ofText] using hopener
    rw [stored?, stored, Stored.toJson, Stored.ofJson_record rfl, if_neg (by decide), if_pos rfl,
      Stored.styleOfMembers]
    simp only [Json.lookup_record]
    exact if_pos htruthy

/-- What is stored for a comment style, or for none, is the style, or none. -/
lemma optionalStyle?_stored? (style : Option CommentStyle) :
    (CommentStyle.stored? style).optionalStyle? = some style := by
  cases style with
  | none => rfl
  | some style =>
    obtain ⟨opener, closer, strip, hopener⟩ := style
    have hopener? : (Json.chars opener).text? = some opener := Json.Str.text?_ofText opener
    have hcloser? : (Json.chars closer).text? = some closer := Json.Str.text?_ofText closer
    have hmake : make? opener closer strip = some ⟨opener, closer, strip, hopener⟩ :=
      dif_neg hopener
    -- an empty closing delimiter counts as false, and is none to be restored
    cases closer with
    | nil =>
      have hfalsy : (Json.chars []).truthy = false := rfl
      simp [stored?, stored, Stored.optionalStyle?, Stored.style?, hfalsy, hopener?, hmake]
    | cons c closer =>
      have htruthy : (Json.chars (c :: closer)).truthy = true := rfl
      simp [stored?, stored, Stored.optionalStyle?, Stored.style?, htruthy, hopener?, hcloser?,
        hmake]

end CommentStyle

/-! ### Nodes -/

namespace Node

mutual

/-- The JSON value of a node is read back as it was written. -/
lemma faithful_stored : (node : Node) → node.stored.toJson.Faithful
  | text p s => by
    refine Json.faithful_record fun member hmember => ?_
    simp only [List.mem_cons, List.not_mem_nil, or_false] at hmember
    rcases hmember with rfl | rfl | rfl
    · exact ⟨_, rfl⟩
    · exact ⟨_, rfl⟩
    · exact p.faithful_stored
  | comment p s style => by
    refine Json.faithful_record fun member hmember => ?_
    simp only [List.mem_cons, List.not_mem_nil, or_false] at hmember
    rcases hmember with rfl | rfl | rfl | rfl
    · exact ⟨_, rfl⟩
    · exact CommentStyle.faithful_stored? style
    · exact ⟨_, rfl⟩
    · exact p.faithful_stored
  | file p name path children => by
    refine Json.faithful_record fun member hmember => ?_
    simp only [List.mem_cons, List.not_mem_nil, or_false] at hmember
    rcases hmember with rfl | rfl | rfl | rfl | rfl
    · exact ⟨_, rfl⟩
    · exact faithful_storedAll children
    · exact p.faithful_stored
    · exact ⟨_, rfl⟩
    · exact ⟨_, rfl⟩

/-- The JSON values of nodes in a row are read back as they were written. -/
lemma faithful_storedAll : (nodes : List Node) →
    Json.FaithfulItems (Stored.toJsonAll (storedAll nodes))
  | [] => trivial
  | node :: nodes => ⟨faithful_stored node, faithful_storedAll nodes⟩

end

/-- Among the values of a tree, a node is read as where a node is asked for. -/
lemma ofJson_eq_nodeOfJson (node : Node) :
    Stored.ofJson node.stored.toJson = Stored.nodeOfJson node.stored.toJson := by
  cases node with
  | text p s =>
    rw [stored, Stored.toJson, Stored.ofJson_record rfl, if_neg (by decide), if_neg (by decide)]
  | comment p s style =>
    rw [stored, Stored.toJson, Stored.ofJson_record rfl, if_neg (by decide), if_neg (by decide)]
  | file p name path children =>
    rw [stored, Stored.toJson, Stored.ofJson_record rfl, if_neg (by decide), if_neg (by decide)]

mutual

/-- The JSON value of a node stands for what is stored. -/
lemma nodeOfJson_stored : (node : Node) → Stored.nodeOfJson node.stored.toJson = .ok node.stored
  | text p s => by
    rw [stored, Stored.toJson, Json.record, Stored.nodeOfJson, Json.lookup_record]
    exact Stored.textOfMembers_eq (Stored.get?_ofEach rfl p.ofJson_stored)
      (Stored.get?_ofEach rfl rfl)
  | comment p s style => by
    rw [stored, Stored.toJson, Json.record, Stored.nodeOfJson, Json.lookup_record]
    exact Stored.commentOfMembers_eq (Stored.get?_ofEach rfl p.ofJson_stored)
      (Stored.get?_ofEach rfl rfl)
      (Stored.get?_ofEach rfl (CommentStyle.ofJson_stored? style))
  | file p name path children => by
    have hchildren : Stored.ofJson (.array (Stored.toJsonAll (storedAll children))) =
        .ok (.items (storedAll children)) := by
      rw [Stored.ofJson, ofItems_storedAll children]
      rfl
    rw [stored, Stored.toJson, Json.record, Stored.nodeOfJson, Json.lookup_record]
    exact Stored.fileOfMembers_eq (Stored.get?_ofEach rfl p.ofJson_stored)
      (Stored.get?_ofEach rfl rfl) (Stored.get?_ofEach rfl rfl)
      (Stored.get?_ofEach rfl hchildren)

/-- The JSON values of nodes in a row stand for what is stored. -/
lemma ofItems_storedAll : (nodes : List Node) →
    Stored.ofItems (Stored.toJsonAll (storedAll nodes)) = .ok (storedAll nodes)
  | [] => rfl
  | node :: nodes => by
    rw [storedAll, Stored.toJsonAll, Stored.ofItems, ofJson_eq_nodeOfJson, nodeOfJson_stored node,
      ofItems_storedAll nodes]
    rfl

end

mutual

/-- What is stored for a node is the node. -/
lemma node?_stored : (node : Node) → node.stored.node? = some node
  | text p s => by
    simp [stored, Stored.node?, p.position?_stored, Stored.ofText, Stored.text?, Json.chars,
      Json.text?]
  | comment p s style => by
    simp [stored, Stored.node?, p.position?_stored, Stored.ofText, Stored.text?, Json.chars,
      Json.text?, CommentStyle.optionalStyle?_stored?]
  | file p name path children => by
    simp [stored, Stored.node?, p.position?_stored, Stored.ofText, Stored.text?, Json.chars,
      Json.text?, Stored.nodes?, allNodes?_storedAll children]

/-- What is stored for nodes in a row are the nodes. -/
lemma allNodes?_storedAll : (nodes : List Node) →
    Stored.allNodes? (storedAll nodes) = some nodes
  | [] => rfl
  | node :: nodes => by
    simp [storedAll, Stored.allNodes?, node?_stored node, allNodes?_storedAll nodes]

end

end Node

/-- **Stored trees are restored.** The tree of a file that is written as a JSON text, on one line or
with any indentation, is read back from this text; and every node is what its JSON value stands
for. -/
theorem Node.restored_of_stored :
    (∀ location name path children indent,
      Node.ofText none ((Node.file location name path children).toText (.ofIndent indent)) =
        .ok (.file location name path children)) ∧
    (∀ node : Node, Node.ofJson node.toJson = .ok node) := by
  refine ⟨?_, ?_⟩
  · intro location name path children indent
    have hread := Json.read_print (faithful_stored (.file location name path children))
      (.ofIndent indent)
    have hstored : Stored.fileOfText none
        ((Node.file location name path children).stored.toText (.ofIndent indent)) =
          .ok (Node.file location name path children).stored := by
      rw [Stored.fileOfText, Stored.toText, hread]
      simp only [nodeOfJson_stored]
      rfl
    rw [ofText, toText, hstored]
    exact congrArg Stored.restored (node?_stored _)
  · intro node
    rw [ofJson, toJson, nodeOfJson_stored]
    exact congrArg Stored.restored (node?_stored node)

end Splice

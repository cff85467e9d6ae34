import Splice.Json.Reader
import Splice.Proofs.Json.Token

/-!
# Written values read back

A JSON value is written and read back in two stages, with its tokens (`Json.tokensOf`) between them.
Whatever the layout, the text that is written for a value has these tokens
(`Json.tokens_printAt`), if the strings of the value are texts and its numbers are whole
(`Json.Faithful`). And a reader that waits for a value takes these tokens to the value, whatever
containers are open around it (`Json.run_tokensOf`).
-/

namespace Splice.Json

/-! ### The tokens of a value -/

mutual

/-- The tokens that a value is written in. -/
def tokensOf : Json → List Token
  | null => [.constant .null]
  | bool b => [.constant (.bool b)]
  | number (.integer n) => [.integer n (Text.natural n.natAbs).length]
  | number (.float x) => [.float x]
  | string s => [.string s]
  | array [] => [.openBracket, .closeBracket]
  | array (item :: items) =>
    .openBracket :: (tokensOf item ++ (tokensOfItems items ++ [.closeBracket]))
  | object [] => [.openBrace, .closeBrace]
  | object ((key, value) :: members) =>
    .openBrace :: .string key :: .colon ::
      (tokensOf value ++ (tokensOfMembers members ++ [.closeBrace]))

/-- The tokens of the items of an array after its first one. -/
def tokensOfItems : List Json → List Token
  | [] => []
  | item :: items => .comma :: (tokensOf item ++ tokensOfItems items)

/-- The tokens of the members of an object after its first one. -/
def tokensOfMembers : List (Str × Json) → List Token
  | [] => []
  | (key, value) :: members =>
    .comma :: .string key :: .colon :: (tokensOf value ++ tokensOfMembers members)

end

mutual

/-- A value that is read back as it was written: its strings, keys included, are texts, and its
numbers are whole. -/
def Faithful : Json → Prop
  | number (.float _) => False
  | string s => ∃ text, s = .ofText text
  | array items => FaithfulItems items
  | object members => FaithfulMembers members
  | _ => True

/-- Values in a row, each of which is read back as it was written. -/
def FaithfulItems : List Json → Prop
  | [] => True
  | item :: items => item.Faithful ∧ FaithfulItems items

/-- Members whose keys are texts and whose values are read back as they were written. -/
def FaithfulMembers : List (Str × Json) → Prop
  | [] => True
  | (key, value) :: members =>
    (∃ text, key = .ofText text) ∧ value.Faithful ∧ FaithfulMembers members

end

/-! ### Writing -/

section Writing

variable (layout : Layout) (level : Nat)

/-- A line break is white space. -/
lemma tokens_lineBreak (s : Text) : tokens (layout.lineBreak level ++ s) = tokens s := by
  cases layout with
  | compact => rfl
  | indented width =>
    have hspaces : ∀ n, tokens (List.replicate n ' ' ++ s) = tokens s := by
      intro n
      induction n with
      | zero => rfl
      | succ n ih => rw [List.replicate_succ, List.cons_append, tokens_space (by decide), ih]
    rw [Layout.lineBreak, List.cons_append, tokens_space (by decide), hspaces]

/-- What stands between two items is a comma. -/
lemma tokens_separator (s : Text) : tokens (layout.separator ++ s) = .comma :: tokens s := by
  cases layout with
  | compact =>
    rw [Layout.separator, List.cons_append, List.singleton_append, tokens_comma,
      tokens_space (by decide)]
  | indented width => rw [Layout.separator, List.singleton_append, tokens_comma]

/-- What stands before a value is its key and a colon. -/
lemma tokens_key (key s : Text) :
    tokens (printString (.ofText key) ++ (':' :: ' ' :: s)) =
      .string (.ofText key) :: .colon :: tokens s := by
  rw [tokens_printString, tokens_colon, tokens_space (by decide)]

variable {layout level} {rest : Text}

/-- A number ends in front of a line break. -/
lemma Closed.lineBreak (h : Closed rest) : Closed (layout.lineBreak level ++ rest) := by
  cases layout with
  | compact => exact h
  | indented width => exact closed_cons (by decide) _

/-- A number ends in front of what stands between two items. -/
lemma closed_separator : Closed (layout.separator ++ rest) := by
  cases layout <;> exact closed_cons (by decide) _

/-- A number ends in front of more items. -/
lemma Closed.printItems (h : Closed rest) (items : List Json) :
    Closed (printItems layout level items ++ rest) := by
  cases items with
  | nil => exact h
  | cons item items =>
    rw [Json.printItems, List.append_assoc]
    exact closed_separator

/-- A number ends in front of more members. -/
lemma Closed.printMembers (h : Closed rest) (members : List (Str × Json)) :
    Closed (printMembers layout level members ++ rest) := by
  rcases members with _ | ⟨⟨key, value⟩, members⟩
  · exact h
  · rw [Json.printMembers, List.append_assoc]
    exact closed_separator

end Writing

mutual

/-- The text that is written for a value has the tokens of the value, whatever the layout. -/
lemma tokens_printAt (layout : Layout) (level : Nat) {rest : Text} (hrest : Closed rest) :
    (json : Json) → json.Faithful →
      tokens (printAt layout level json ++ rest) = tokensOf json ++ tokens rest
  | null, _ => tokens_null rest
  | bool b, _ => tokens_bool b rest
  | number (.integer n), _ => tokens_integer n hrest
  | number (.float x), h => h.elim
  | string s, ⟨text, htext⟩ => by
    subst htext
    exact tokens_printString text rest
  | array [], _ => by
    simp only [printAt, tokensOf, List.cons_append, List.nil_append, tokens_openBracket,
      tokens_closeBracket]
  | array (item :: items), ⟨hitem, hitems⟩ => by
    have hclose : Closed (layout.lineBreak level ++ ']' :: rest) :=
      (closed_cons (by decide) rest).lineBreak
    simp only [printAt, tokensOf, List.cons_append, List.append_assoc, List.nil_append,
      tokens_openBracket, tokens_lineBreak]
    rw [tokens_printAt layout (level + 1) (hclose.printItems items) item hitem,
      tokens_printItems layout (level + 1) hclose items hitems, tokens_lineBreak,
      tokens_closeBracket]
  | object [], _ => by
    simp only [printAt, tokensOf, List.cons_append, List.nil_append, tokens_openBrace,
      tokens_closeBrace]
  | object ((key, value) :: members), ⟨⟨name, hname⟩, hvalue, hmembers⟩ => by
    have hclose : Closed (layout.lineBreak level ++ '\x7d' :: rest) :=
      (closed_cons (by decide) rest).lineBreak
    subst hname
    simp only [printAt, tokensOf, List.cons_append, List.append_assoc, List.nil_append,
      tokens_openBrace, tokens_lineBreak, tokens_key]
    rw [tokens_printAt layout (level + 1) (hclose.printMembers members) value hvalue,
      tokens_printMembers layout (level + 1) hclose members hmembers, tokens_lineBreak,
      tokens_closeBrace]

/-- So has the text of items in a row. -/
lemma tokens_printItems (layout : Layout) (level : Nat) {rest : Text} (hrest : Closed rest) :
    (items : List Json) → FaithfulItems items →
      tokens (printItems layout level items ++ rest) = tokensOfItems items ++ tokens rest
  | [], _ => rfl
  | item :: items, ⟨hitem, hitems⟩ => by
    simp only [printItems, tokensOfItems, List.cons_append, List.append_assoc, tokens_separator,
      tokens_lineBreak]
    rw [tokens_printAt layout level (hrest.printItems items) item hitem,
      tokens_printItems layout level hrest items hitems]

/-- So has the text of members in a row. -/
lemma tokens_printMembers (layout : Layout) (level : Nat) {rest : Text} (hrest : Closed rest) :
    (members : List (Str × Json)) → FaithfulMembers members →
      tokens (printMembers layout level members ++ rest) = tokensOfMembers members ++ tokens rest
  | [], _ => rfl
  | (key, value) :: members, ⟨⟨name, hname⟩, hvalue, hmembers⟩ => by
    subst hname
    simp only [printMembers, tokensOfMembers, List.cons_append, List.append_assoc,
      tokens_separator, tokens_lineBreak, tokens_key]
    rw [tokens_printAt layout level (hrest.printMembers members) value hvalue,
      tokens_printMembers layout level hrest members hmembers]

end

/-! ### Reading -/

/-- A value can stand where the first item of an array may stand. -/
lemma run_firstItem (limit : Option Nat) (before : List Json) (outer : List Container) (json : Json)
    (tokens : List Token) :
    Reader.run limit .firstItem (.array before :: outer) (tokensOf json ++ tokens) =
      Reader.run limit .value (.array before :: outer) (tokensOf json ++ tokens) := by
  cases json with
  | number n => cases n <;> rfl
  | array items => cases items <;> rfl
  | object members => rcases members with _ | ⟨⟨key, value⟩, members⟩ <;> rfl
  | _ => rfl

mutual

/-- A reader that waits for a value takes the tokens of the value to the value. -/
lemma run_tokensOf (outer : List Container) (tokens : List Token) :
    (json : Json) → Reader.run none .value outer (tokensOf json ++ tokens) =
      Reader.run none (.done json) outer tokens
  | null => rfl
  | bool _ => rfl
  | number (.integer _) => rfl
  | number (.float _) => rfl
  | string _ => rfl
  | array [] => rfl
  | array (item :: items) => by
    have hopen : Reader.run none .value outer (tokensOf (array (item :: items)) ++ tokens) =
        Reader.run none .firstItem (.array [] :: outer)
          (tokensOf item ++ (tokensOfItems items ++ .closeBracket :: tokens)) := by
      simp only [tokensOf, List.cons_append, List.append_assoc, List.nil_append]
      rfl
    rw [hopen, run_firstItem, run_tokensOf _ _ item, run_tokensOfItems outer tokens [] item items]
    rfl
  | object [] => rfl
  | object ((key, value) :: members) => by
    have hopen :
        Reader.run none .value outer (tokensOf (object ((key, value) :: members)) ++ tokens) =
          Reader.run none .value (.object [] key :: outer)
            (tokensOf value ++ (tokensOfMembers members ++ .closeBrace :: tokens)) := by
      simp only [tokensOf, List.cons_append, List.append_assoc, List.nil_append]
      rfl
    rw [hopen, run_tokensOf _ _ value, run_tokensOfMembers outer tokens [] key value members]
    rfl

/-- A reader that has come to the end of an item takes the tokens of the other items to the array of
all of them. -/
lemma run_tokensOfItems (outer : List Container) (tokens : List Token) (before : List Json)
    (item : Json) :
    (items : List Json) → Reader.run none (.done item) (.array before :: outer)
        (tokensOfItems items ++ .closeBracket :: tokens) =
      Reader.run none (.done (.array (before.reverse ++ item :: items))) outer tokens
  | [] => by
    rw [tokensOfItems, List.nil_append, Reader.run, Reader.step, List.reverse_cons]
  | next :: items => by
    have hcomma : Reader.run none (.done item) (.array before :: outer)
        (tokensOfItems (next :: items) ++ .closeBracket :: tokens) =
          Reader.run none .value (.array (item :: before) :: outer)
            (tokensOf next ++ (tokensOfItems items ++ .closeBracket :: tokens)) := by
      simp only [tokensOfItems, List.cons_append, List.append_assoc]
      rfl
    rw [hcomma, run_tokensOf _ _ next, run_tokensOfItems outer tokens (item :: before) next items,
      List.reverse_cons, List.append_assoc, List.singleton_append]

/-- A reader that has come to the end of a member takes the tokens of the other members to the
object of all of them. -/
lemma run_tokensOfMembers (outer : List Container) (tokens : List Token)
    (before : List (Str × Json)) (key : Str) (value : Json) :
    (members : List (Str × Json)) → Reader.run none (.done value) (.object before key :: outer)
        (tokensOfMembers members ++ .closeBrace :: tokens) =
      Reader.run none (.done (.object (before.reverse ++ (key, value) :: members))) outer tokens
  | [] => by
    rw [tokensOfMembers, List.nil_append, Reader.run, Reader.step, List.reverse_cons]
  | (next, other) :: members => by
    have hcomma : Reader.run none (.done value) (.object before key :: outer)
        (tokensOfMembers ((next, other) :: members) ++ .closeBrace :: tokens) =
          Reader.run none .value (.object ((key, value) :: before) next :: outer)
            (tokensOf other ++ (tokensOfMembers members ++ .closeBrace :: tokens)) := by
      simp only [tokensOfMembers, List.cons_append, List.append_assoc]
      rfl
    rw [hcomma, run_tokensOf _ _ other,
      run_tokensOfMembers outer tokens ((key, value) :: before) next other members,
      List.reverse_cons, List.append_assoc, List.singleton_append]

end

/-- A value that is written is read back, whatever the layout. -/
theorem read_print {json : Json} (h : json.Faithful) (layout : Layout) :
    read none (json.print layout) = .ok json := by
  have htokens := tokens_printAt layout 0 closed_nil json h
  have hend : tokens [] = [] := by
    rw [tokens]
    rfl
  rw [List.append_nil, hend] at htokens
  rw [read, print, htokens, run_tokensOf]
  rfl

end Splice.Json

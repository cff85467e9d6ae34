import Splice.Json.Reader
import Splice.Node.Stored.Basic
import Splice.Text.Quoted

/-!
# Reading stored trees

A stored tree is read by the member `_type` of its objects: `Stored.ofJson` reads anything that can
stand in a tree, and `Stored.nodeOfJson` asks for a node. A node is read member by member, in a
fixed order, and the first member that cannot be read decides what is wrong with it; members that a
node does not have are not looked at. Nothing is asked of the values that are found.
-/

namespace Splice

/-- Why a JSON text or value is not a tree. -/
inductive FormatError where
  /-- The text is not JSON. -/
  | malformed
  /-- A whole number in the text has more digits than may be read. -/
  | tooManyDigits (limit digits : Nat)
  /-- The value is not an object. -/
  | notAnObject
  /-- The object does not say what it is. -/
  | missingType
  /-- The object says that it is something unknown, shown as in messages. -/
  | unknownType (shown : String)
  /-- What the object says it is cannot be looked up. -/
  | unusableType
  /-- A node lacks a member. -/
  | missingMember
  /-- A position or comment style lacks a member. -/
  | missingKey (key : String)
  /-- A comment style has an empty opening delimiter. -/
  | emptyOpener
  /-- A member holds something else than what belongs there. -/
  | wrongValue
  /-- The tree is not that of a file, but of the given kind. -/
  | notAFile (kind : String)
deriving DecidableEq

/-- The wording of a format error. -/
def FormatError.message : FormatError → String
  | malformed => "malformed JSON"
  | tooManyDigits limit digits =>
    "Exceeds the limit (" ++ Text.showInt limit ++ " digits) for integer string conversion: " ++
      "value has " ++ Text.showInt digits ++ " digits; use sys.set_int_max_str_digits() to " ++
      "increase the limit"
  | notAnObject => "not an object"
  | missingType => "Missing '_type' field in serialized node"
  | unknownType shown => "Unknown node type: " ++ shown
  | unusableType => "unusable node type"
  | missingMember => "missing member"
  | missingKey key => Text.showQuoted key.toList
  | emptyOpener => "Commenter begin delimiter must not be empty"
  | wrongValue => "wrong value"
  | notAFile kind => "Expected File, got " ++ kind

/-! ### Wording -/

/-- The words of messages for numbers that are not finite. -/
def Json.Number.words : Binary64.Words :=
  ⟨"nan".toList, "inf".toList⟩

/-- A number as messages show it. -/
def Json.Number.describe : Json.Number → String
  | .integer n => Text.showInt n
  | .float x => String.ofList (x.toText words)

/-- A symbol inside a string shown between `mark`s: half a surrogate pair is given by its code
unit. -/
def Json.Symbol.quote (mark : Char) : Json.Symbol → Text
  | .char c => Text.quoteChar mark c
  | .half n => '\\' :: 'u' :: Text.hex 4 n

/-- A string between quotes, as messages show it. -/
def Json.Str.showQuoted (s : Json.Str) : String :=
  let mark := Text.quoteMark (s.filterMap Json.Symbol.char?)
  String.ofList (mark :: (s.flatMap (Json.Symbol.quote mark) ++ [mark]))

namespace Stored

/-! ### Members -/

/-- The members of an object, each with what it was read as. -/
abbrev Members := List (Json.Str × Except FormatError Stored)

/-- What a member was read as, if there is one. -/
def Members.get? (members : Members) (key : String) : Except FormatError (Option Stored) :=
  match Json.lookup key members with
  | none => .ok none
  | some (.ok value) => .ok (some value)
  | some (.error e) => .error e

/-- The value of a member that a node cannot do without. -/
def required : Option Stored → Except FormatError Stored
  | some value => .ok value
  | none => .error .missingMember

/-- A position from its members. -/
def positionOfMembers (members : List (Json.Str × Json)) : Except FormatError Stored :=
  match Json.lookup "source_name" members, Json.lookup "line" members,
    Json.lookup "column" members with
  | none, _, _ => .error (.missingKey "source_name")
  | _, none, _ => .error (.missingKey "line")
  | _, _, none => .error (.missingKey "column")
  | some source, some line, some column => .ok (.position source line column)

/-- A comment style from its members: the closing delimiter and the flag may be left out, and the
opening one must not count as false. -/
def styleOfMembers (members : List (Json.Str × Json)) : Except FormatError Stored :=
  match Json.lookup "begin" members with
  | none => .error (.missingKey "begin")
  | some opener =>
    let closer := (Json.lookup "end" members).getD (.text "")
    let strip := (Json.lookup "strip" members).getD (.bool false)
    if opener.truthy then .ok (.style opener closer strip.truthy) else .error .emptyOpener

/-- A text node from its members. -/
def textOfMembers (members : Members) : Except FormatError Stored := do
  let location ← members.get? "location"
  let content ← members.get? "content"
  return .text (← required location) (← required content)

/-- A comment node from its members; the style may be left out. -/
def commentOfMembers (members : Members) : Except FormatError Stored := do
  let location ← members.get? "location"
  let content ← members.get? "content"
  let style ← members.get? "commenter"
  return .comment (← required location) (← required content) (style.getD (.plain .null))

/-- A file node from its members; the children may be left out. -/
def fileOfMembers (members : Members) : Except FormatError Stored := do
  let location ← members.get? "location"
  let name ← members.get? "name"
  let path ← members.get? "path"
  let children ← members.get? "children"
  return .file (← required location) (← required name) (← required path)
    (children.getD (.items []))

/-- A node from what it says it is, and its members. -/
def nodeOfMembers (type : Option Json) (members : Members) : Except FormatError Stored :=
  match type with
  | none | some .null => .error .missingType
  | some (.string s) =>
    if s.text? = some "Text".toList then textOfMembers members
    else if s.text? = some "Comment".toList then commentOfMembers members
    else if s.text? = some "File".toList then fileOfMembers members
    else .error (.unknownType s.showQuoted)
  | some (.bool b) => .error (.unknownType (if b then "True" else "False"))
  | some (.number n) => .error (.unknownType n.describe)
  | some (.array _) | some (.object _) => .error .unusableType

/-- What an object stands for, given its members and what each was read as. An object that does not
say what it is stands for itself. -/
def ofMembers (members : List (Json.Str × Json)) (values : Members) : Except FormatError Stored :=
  match Json.lookup "_type" members with
  | none | some .null => .ok (.plain (.object members))
  | some type =>
    if type.text? = some "PosInfo".toList then positionOfMembers members
    else if type.text? = some "Commenter".toList then styleOfMembers members
    else nodeOfMembers (some type) values

/-! ### Values -/

mutual

/-- What a JSON value stands for. -/
def ofJson : Json → Except FormatError Stored
  | .null => .ok (.plain .null)
  | .bool b => .ok (.plain (.bool b))
  | .number n => .ok (.plain (.number n))
  | .string s => .ok (.plain (.string s))
  | .array elements => (ofItems elements).map .items
  | .object members => ofMembers members (ofEach members)

/-- What JSON values in a row stand for; the first that cannot be read decides. -/
def ofItems : List Json → Except FormatError (List Stored)
  | [] => .ok []
  | element :: elements =>
    match ofJson element with
    | .ok value => (ofItems elements).map (value :: ·)
    | .error e => .error e

/-- What each member of an object stands for. -/
def ofEach : List (Json.Str × Json) → Members
  | [] => []
  | (key, json) :: members => (key, ofJson json) :: ofEach members

end

/-- The stored node that a JSON value stands for. -/
def nodeOfJson : Json → Except FormatError Stored
  | .object members => nodeOfMembers (Json.lookup "_type" members) (ofEach members)
  | _ => .error .notAnObject

/-! ### Texts -/

/-- A node, if it is a file. -/
def asFile : Stored → Except FormatError Stored
  | text .. => .error (.notAFile "Text")
  | comment .. => .error (.notAFile "Comment")
  | node => .ok node

/-- The error of a text that cannot be read as JSON. -/
def errorOf : Json.ReadError → FormatError
  | .malformed => .malformed
  | .tooManyDigits limit digits => .tooManyDigits limit digits

/-- The number of digits up to which whole numbers are usually read. -/
def digitLimit : Nat :=
  4300

/-- The stored file that a JSON text stands for. Where a limit is given, a text with a whole number
of more digits is refused. -/
def fileOfText (limit : Option Nat) (s : Text) : Except FormatError Stored :=
  match Json.read limit s with
  | .error e => .error (errorOf e)
  | .ok json => do asFile (← nodeOfJson json)

end Stored

end Splice

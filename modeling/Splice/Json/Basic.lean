import Splice.Binary64.Basic

/-!
# JSON values

Output trees are kept and handed on as JSON. An object is a list of members in the order in which
they are written; when a key is repeated, the last member with it counts.

A JSON text can give the half of a surrogate pair without the other half, which is no character. So
a string is a list of symbols, each a character or such a half, and only a string of characters is
text. The keys of members are such strings too.
-/

namespace Splice

namespace Json

/-- A number of a JSON text. -/
inductive Number where
  /-- A whole number, of any size. -/
  | integer (n : Int)
  /-- A number written with a fraction or an exponent, or one of the constants. -/
  | float (x : Binary64)
deriving DecidableEq

/-- What a string is made of: characters, and halves of surrogate pairs without the other half. -/
inductive Symbol where
  | char (c : Char)
  /-- The half with the given code unit. -/
  | half (unit : Nat)
deriving DecidableEq

namespace Symbol

/-- The character that a symbol is. -/
def char? : Symbol → Option Char
  | char c => some c
  | half _ => none

end Symbol

/-- What a JSON string holds. -/
abbrev Str := List Symbol

namespace Str

/-- The string of a text. -/
def ofText (s : Text) : Str :=
  s.map .char

/-- The text that a string is, if it is one. -/
def text? (s : Str) : Option Text :=
  s.mapM Symbol.char?

/-- A string of characters is the text that they make up. -/
@[simp] theorem text?_ofText (s : Text) : (ofText s).text? = some s := by
  induction s with
  | nil => rfl
  | cons c s ih => simp_all [ofText, text?, Symbol.char?]

end Str

end Json

/-- A JSON value. -/
inductive Json where
  | null
  | bool (value : Bool)
  | number (value : Json.Number)
  | string (value : Json.Str)
  | array (items : List Json)
  | object (members : List (Json.Str × Json))

namespace Json

/-- A whole number as a JSON value. -/
def integer (n : Int) : Json :=
  .number (.integer n)

/-- A text as a JSON value. -/
def chars (s : Text) : Json :=
  .string (.ofText s)

/-- A string of characters as a JSON value. -/
def text (s : String) : Json :=
  .chars s.toList

/-- An object of members whose keys are texts. -/
def record (members : List (String × Json)) : Json :=
  .object (members.map fun member => (.ofText member.1.toList, member.2))

/-- The text of a value, if the value is one. -/
def text? : Json → Option Text
  | string s => s.text?
  | _ => none

/-- The whole number that a value is, if it is one. -/
def integer? : Json → Option Int
  | number (.integer n) => some n
  | _ => none

/-- The value of a key in a list of members: that of the last member with the key. -/
def lookup {α : Type} (key : String) (members : List (Str × α)) : Option α :=
  (members.reverse.find? fun member => member.1 = .ofText key.toList).map Prod.snd

/-- The value of a key, if the value is an object that has it. -/
def field? (key : String) : Json → Option Json
  | object members => lookup key members
  | _ => none

/-- Whether a value counts as true where a flag is asked for: null, false, zero and everything empty
do not, all else does. -/
def truthy : Json → Bool
  | null => false
  | bool b => b
  | number (.integer n) => n != 0
  | number (.float x) => !x.isZero
  | string s => !s.isEmpty
  | array items => !items.isEmpty
  | object members => !members.isEmpty

end Json

end Splice

import Splice.Json.Token

/-!
# Reading JSON

The reader goes over the tokens of a text once. Containers that are not closed yet are kept in a
list, innermost first, each with the parts read so far in reverse; `Json.Reader.step` says what one
token does to them. A reader may be given a limit on the digits of whole numbers.
-/

namespace Splice.Json

/-- A container that is waiting for a value. -/
inductive Container where
  /-- An array and the items before the value, last one first. -/
  | array (items : List Json)
  /-- An object, the members before the value, last one first, and the key of the value. -/
  | object (members : List (Str × Json)) (key : Str)

/-- Why a text cannot be read. -/
inductive ReadError where
  /-- The text is not JSON. -/
  | malformed
  /-- A whole number has more digits than the reader takes. -/
  | tooManyDigits (limit digits : Nat)
deriving DecidableEq

namespace Reader

/-- What may come next. -/
inductive State where
  /-- A value. -/
  | value
  /-- The first item of an array, or its closing bracket. -/
  | firstItem
  /-- The first key of an object, or its closing brace. -/
  | firstKey
  /-- A further key of an object with the given members, last one first. -/
  | key (members : List (Str × Json))
  /-- The colon after a key. -/
  | colon (members : List (Str × Json)) (key : Str)
  /-- What follows a value that has been read. -/
  | done (value : Json)

/-- A whole number that is written with the given number of digits, within the limit. -/
def whole (limit : Option Nat) (n : Int) (digits : Nat) : Except ReadError Json :=
  match limit with
  | none => .ok (.integer n)
  | some limit => if limit < digits then .error (.tooManyDigits limit digits) else .ok (.integer n)

/-- What the first token of a value leads to. -/
def openValue (limit : Option Nat) (outer : List Container) :
    Token → Except ReadError (State × List Container)
  | .constant value => .ok (.done value, outer)
  | .integer n digits => (whole limit n digits).map fun value => (.done value, outer)
  | .float x => .ok (.done (.number (.float x)), outer)
  | .string value => .ok (.done (.string value), outer)
  | .openBracket => .ok (.firstItem, .array [] :: outer)
  | .openBrace => .ok (.firstKey, outer)
  | _ => .error .malformed

/-- What a token leads to. -/
def step (limit : Option Nat) :
    State → List Container → Token → Except ReadError (State × List Container)
  | .value, outer, token => openValue limit outer token
  | .firstItem, .array _ :: outer, .closeBracket => .ok (.done (.array []), outer)
  | .firstItem, outer, token => openValue limit outer token
  | .firstKey, outer, .closeBrace => .ok (.done (.object []), outer)
  | .firstKey, outer, .string key => .ok (.colon [] key, outer)
  | .key members, outer, .string key => .ok (.colon members key, outer)
  | .colon members key, outer, .colon => .ok (.value, .object members key :: outer)
  | .done value, .array items :: outer, .comma => .ok (.value, .array (value :: items) :: outer)
  | .done value, .array items :: outer, .closeBracket =>
    .ok (.done (.array (value :: items).reverse), outer)
  | .done value, .object members key :: outer, .comma =>
    .ok (.key ((key, value) :: members), outer)
  | .done value, .object members key :: outer, .closeBrace =>
    .ok (.done (.object ((key, value) :: members).reverse), outer)
  | _, _, _ => .error .malformed

/-- The value that a list of tokens leads to, if they make up one value and nothing else. -/
def run (limit : Option Nat) : State → List Container → List Token → Except ReadError Json
  | .done value, [], [] => .ok value
  | _, _, [] => .error .malformed
  | state, outer, token :: tokens =>
    match step limit state outer token with
    | .ok (state, outer) => run limit state outer tokens
    | .error e => .error e

end Reader

/-- The value of a JSON text, in which whole numbers have no more digits than the limit. -/
def read (limit : Option Nat) (s : Text) : Except ReadError Json :=
  Reader.run limit .value [] (tokens s)

end Splice.Json

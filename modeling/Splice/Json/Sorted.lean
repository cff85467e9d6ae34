import Splice.Json.Basic

/-!
# Members in order

The order of members means nothing, and a member whose key comes again counts for nothing. So every
value has a form in which each key comes once and the keys are in order: `Json.sorted`. Strings are
in order by the codes of their symbols.
-/

namespace Splice.Json

/-- The code of a symbol: the code point of a character, or the code unit of half a pair. -/
def Symbol.code : Symbol → Nat
  | char c => c.toNat
  | half n => n

/-- Whether a string comes before another: by the first symbol in which they differ, or because it
ends where the other goes on. -/
def Str.before : Str → Str → Bool
  | _, [] => false
  | [], _ :: _ => true
  | a :: s, b :: t => a.code < b.code || (a == b && Str.before s t)

/-- Puts a member in its place among members that are in order. It gives way to a member with the
same key. -/
def place (key : Str) (value : Json) : List (Str × Json) → List (Str × Json)
  | [] => [(key, value)]
  | (next, other) :: members =>
    if key = next then (next, other) :: members
    else if key.before next then (key, value) :: (next, other) :: members
    else (next, other) :: place key value members

mutual

/-- The same value with the members of each object in order, and only those that count. -/
def sorted : Json → Json
  | null => null
  | bool b => bool b
  | number n => number n
  | string s => string s
  | array items => array (sortedItems items)
  | object members => object (sortedMembers members)

/-- Values in a row, each with its members in order. -/
def sortedItems : List Json → List Json
  | [] => []
  | item :: items => item.sorted :: sortedItems items

/-- Members in order; of those with one key only the last is left. -/
def sortedMembers : List (Str × Json) → List (Str × Json)
  | [] => []
  | (key, value) :: members => place key value.sorted (sortedMembers members)

end

end Splice.Json

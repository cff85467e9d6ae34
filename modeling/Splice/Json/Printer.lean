import Splice.Binary64.Shortest
import Splice.Json.Basic

/-!
# Writing JSON

A JSON text is written in ASCII only: every other character is given by its UTF-16 code units. On
one line, members and items are followed by a comma and a space; in the indented layout each stands
on a line of its own, with a fixed number of spaces for each level.
-/

namespace Splice.Json

/-- How a JSON text is laid out. -/
inductive Layout where
  /-- Everything on one line. -/
  | compact
  /-- Each member and item on its own line, `width` spaces deeper for each level. -/
  | indented (width : Nat)

namespace Layout

/-- The layout for a requested indentation: a negative one gives lines without indentation. -/
def ofIndent : Option Int → Layout
  | none => compact
  | some n => indented n.toNat

/-- What stands before an item at a level, and before the bracket that closes the level above. -/
def lineBreak : Layout → Nat → Text
  | compact, _ => []
  | indented width, level => '\n' :: List.replicate (width * level) ' '

/-- What stands between two items, before the line break. -/
def separator : Layout → Text
  | compact => [',', ' ']
  | indented _ => [',']

end Layout

/-- A UTF-16 code unit as an escape. -/
def escapeUnit (n : Nat) : Text :=
  '\\' :: 'u' :: Text.hex 4 n

/-- A character inside a JSON string. -/
def escapeChar (c : Char) : Text :=
  if c == '"' then ['\\', '"']
  else if c == '\\' then ['\\', '\\']
  else if c == '\n' then ['\\', 'n']
  else if c == '\r' then ['\\', 'r']
  else if c == '\t' then ['\\', 't']
  else if c.toNat == 0x8 then ['\\', 'b']
  else if c.toNat == 0xC then ['\\', 'f']
  else if 0x20 ≤ c.toNat && c.toNat < 0x7F then [c]
  else if c.toNat < 0x10000 then escapeUnit c.toNat
  else
    let n := c.toNat - 0x10000
    escapeUnit (0xD800 + n / 0x400) ++ escapeUnit (0xDC00 + n % 0x400)

/-- A symbol inside a JSON string. -/
def escapeSymbol : Symbol → Text
  | .char c => escapeChar c
  | .half n => escapeUnit n

/-- A JSON string, quotes included. -/
def printString (s : Str) : Text :=
  '"' :: (s.flatMap escapeSymbol ++ ['"'])

/-- The constants of a JSON text that stand for numbers which are not finite. -/
def words : Binary64.Words :=
  ⟨"NaN".toList, "Infinity".toList⟩

/-- A JSON number. -/
def printNumber : Number → Text
  | .integer n => Text.integer n
  | .float x => x.toText words

mutual

/-- A value at a level of nesting. -/
def printAt (layout : Layout) (level : Nat) : Json → Text
  | null => "null".toList
  | bool b => (if b then "true" else "false").toList
  | number n => printNumber n
  | string s => printString s
  | array [] => ['[', ']']
  | array (item :: items) =>
    '[' :: (layout.lineBreak (level + 1) ++ printAt layout (level + 1) item ++
      (printItems layout (level + 1) items ++ (layout.lineBreak level ++ [']'])))
  | object [] => ['\x7b', '\x7d']
  | object ((key, value) :: members) =>
    '\x7b' :: (layout.lineBreak (level + 1) ++ (printString key ++ (':' :: ' ' ::
      printAt layout (level + 1) value)) ++
      (printMembers layout (level + 1) members ++ (layout.lineBreak level ++ ['\x7d'])))

/-- The items of an array after its first one. -/
def printItems (layout : Layout) (level : Nat) : List Json → Text
  | [] => []
  | item :: items =>
    layout.separator ++ (layout.lineBreak level ++ (printAt layout level item ++
      printItems layout level items))

/-- The members of an object after its first one. -/
def printMembers (layout : Layout) (level : Nat) : List (Str × Json) → Text
  | [] => []
  | (key, value) :: members =>
    layout.separator ++ (layout.lineBreak level ++ (printString key ++ (':' :: ' ' ::
      (printAt layout level value ++ printMembers layout level members))))

end

/-- The JSON text of a value. -/
def print (layout : Layout) (value : Json) : Text :=
  printAt layout 0 value

end Splice.Json

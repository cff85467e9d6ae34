import Splice.Position

/-!
# The log

A run keeps a log of what it does: the files it enters and leaves, the requests it skips, and what
the loader warns of.
-/

namespace Splice

namespace Log

/-- How much a record matters. -/
inductive Level where
  | debug
  | warning
deriving DecidableEq

/-- The part of the library that a record comes from. -/
inductive Origin where
  /-- The splicing of files. -/
  | session
  /-- The access to files. -/
  | loader
deriving DecidableEq

/-- One entry of a log. -/
inductive Record where
  /-- A file is entered; `depth` files are then under construction. -/
  | entering (name : String) (depth : Int)
  /-- A file is left. -/
  | leaving (name : String)
  /-- A request is skipped because the file was met before. -/
  | skipping (location : Position) (name : String)
  /-- The loader warns. -/
  | warning (message : String)
deriving DecidableEq

namespace Record

/-- How much a record matters. -/
def level : Record → Level
  | warning _ => .warning
  | _ => .debug

/-- The part of the library that a record comes from. -/
def origin : Record → Origin
  | warning _ => .loader
  | _ => .session

/-- The wording of a record. -/
def message : Record → String
  | entering name depth => "entering " ++ name ++ " (depth " ++ Text.showInt depth ++ ")"
  | leaving name => "leaving " ++ name
  | skipping location name =>
    location.describe ++ ": skipping " ++ name ++ ", already required"
  | warning message => message

end Record

/-- The full name of a channel below `root`: names that are not `root` itself or below it already
are put below it. -/
def qualify (root name : String) : String :=
  if name = root ∨ (root ++ ".").toList.isPrefixOf name.toList then name else root ++ "." ++ name

end Log

end Splice

import Splice.Encoding
import Splice.Loader.Basic
import Splice.Path

/-!
# Files on disk

A disk is a tree of directories, files and symbolic links, with a working directory. There are two
ways to follow a path on it.

* `Disk.follow` follows a path as the system does: it goes through links wherever it meets them, up
  to a fixed number, and every part that something follows must be a directory. Files are read and
  made in this way.
* `Disk.resolve` finds the path without links that is the identity of a file: each link is resolved
  on its own, and a step up takes back the part before it, whatever that is.
-/

namespace Splice

namespace Disk

/-- What stands at a location. -/
inductive Entry where
  | directory
  | file (octets : List UInt8)
  | link (target : String)

/-- The parts from the root directory to an entry. -/
abbrev Location := List Text

/-- Why a path cannot be followed, or nothing can be read from it or made at it. -/
inductive Trouble where
  | missing
  | notADirectory
  | isADirectory
  | tooManyLinks
  | nameTooLong
  /-- Something stands already where an entry is to be made. -/
  | occupied
  /-- There is a null character in the path. -/
  | nullCharacter
deriving DecidableEq

/-- The wording of a trouble. -/
def Trouble.message : Trouble → String
  | missing => "No such file or directory"
  | notADirectory => "Not a directory"
  | isADirectory => "Is a directory"
  | tooManyLinks => "Too many levels of symbolic links"
  | nameTooLong => "File name too long"
  | occupied => "File exists"
  | nullCharacter => "embedded null byte"

/-- The greatest number of links that are followed for one path. -/
def maxLinks : Nat :=
  40

/-- The greatest number of octets in the name of an entry. -/
def maxName : Nat :=
  255

/-- The greatest number of octets in a path. -/
def maxPath : Nat :=
  4095

/-- The number of octets that a text takes on disk. -/
def octetCount (s : Text) : Nat :=
  (String.ofList s).utf8ByteSize

/-- Whether a text has a null character, which no path can have. -/
def hasNull (s : Text) : Bool :=
  s.contains '\x00'

end Disk

/-- A disk: its entries, the first of which counts for a location, and its working directory. The
directories around the working directory are there without being listed. -/
structure Disk where
  entries : List (Disk.Location × Disk.Entry)
  workingDirectory : Disk.Location

namespace Disk

/-- What stands at a location. -/
def entry? (disk : Disk) (location : Location) : Option Entry :=
  match disk.entries.find? fun entry => entry.1 == location with
  | some entry => some entry.2
  | none => if location.isPrefixOf disk.workingDirectory then some .directory else none

/-- The disk with an entry put at a location. -/
def set (disk : Disk) (location : Location) (entry : Entry) : Disk :=
  { disk with
    entries := (location, entry) :: disk.entries.filter fun entry => entry.1 != location }

/-- Where a path or the target of a link starts, if it is met in the given directory. -/
def origin (directory : Location) (path : Text) : Location :=
  if path.head? = some '/' then [] else directory

/-- A part that stays where it is. -/
def isStay (part : Text) : Bool :=
  part == [] || part == ['.']

/-! ### Following a path -/

/-- What a path leads to. -/
inductive Found where
  /-- An entry that is no link, and its location. -/
  | entry (location : Location) (entry : Entry)
  /-- A location in a directory, with nothing at it. -/
  | vacancy (location : Location)

/-- Follows a path from a location as the system does, with a number of links left to follow. -/
def follow (disk : Disk) (links : Nat) (location : Location) (parts : List Text) :
    Except Trouble Found :=
  match disk.entry? location with
  | none | some (.link _) => .error .missing
  | some (.file octets) =>
    match parts with
    | [] => .ok (.entry location (.file octets))
    | _ :: _ => .error .notADirectory
  | some .directory =>
    match parts with
    | [] => .ok (.entry location .directory)
    | part :: rest =>
      if isStay part then disk.follow links location rest
      else if part = Path.up then disk.follow links location.dropLast rest
      else if maxName < octetCount part then .error .nameTooLong
      else
        match disk.entry? (location ++ [part]) with
        | none => if rest = [] then .ok (.vacancy (location ++ [part])) else .error .missing
        | some (.link target) =>
          match links with
          | 0 => .error .tooManyLinks
          | links + 1 =>
            disk.follow links (origin location target.toList) (Path.pieces target.toList ++ rest)
        | some _ => disk.follow links (location ++ [part]) rest
termination_by (links, parts.length)

/-- Follows parts from the working directory. -/
def find (disk : Disk) (parts : List Text) : Except Trouble Found :=
  disk.follow maxLinks disk.workingDirectory parts

/-- The octets of the file at a path. -/
def octets (disk : Disk) (path : String) : Except Trouble (List UInt8) :=
  let path := Path.parse path
  if maxPath < path.toString.utf8ByteSize then .error .nameTooLong
  else
    let start := if path.anchor = .relative then disk.workingDirectory else []
    match disk.follow maxLinks start path.parts with
    | .error trouble => .error trouble
    | .ok (.entry _ (.file octets)) => .ok octets
    | .ok (.entry ..) => .error .isADirectory
    | .ok (.vacancy _) => .error .missing

/-- The content of the file at a path. -/
def read (disk : Disk) (encoding : Encoding) (path : String) : Except LoadFailure Text :=
  if hasNull path.toList then .error (.unusable Trouble.nullCharacter.message)
  else
    match disk.octets path with
    | .error trouble =>
      .error (.unreadable ("cannot read " ++ path ++ ": " ++ trouble.message) none (some path))
    | .ok octets =>
      match encoding.decode octets with
      | .error fault =>
        .error (.unreadable
          ("cannot decode " ++ path ++ " as " ++ encoding.name ++ ": " ++ fault.reason) none
          (some path))
      | .ok content => .ok content

/-! ### Making entries -/

/-- The location in a directory that the last of some parts names, if nothing stands there. A link
at it is not followed. -/
def vacancy (disk : Disk) (parts : List Text) : Except Trouble Location :=
  match parts.getLast?, disk.find parts.dropLast with
  | none, _ => .error .occupied
  | some _, .error trouble => .error trouble
  | some _, .ok (.vacancy _) => .error .missing
  | some name, .ok (.entry directory .directory) =>
    if maxName < octetCount name then .error .nameTooLong
    else if name = Path.up ∨ (disk.entry? (directory ++ [name])).isSome then .error .occupied
    else .ok (directory ++ [name])
  | some _, .ok (.entry ..) => .error .notADirectory

/-- The disk with a directory at a path from the working directory, made unless it is there. -/
def makeDirectory (disk : Disk) (parts : List Text) : Except Trouble Disk :=
  match disk.vacancy parts with
  | .ok location => .ok (disk.set location .directory)
  | .error trouble =>
    match disk.find parts with
    | .ok (.entry _ .directory) => .ok disk
    | _ => .error trouble

/-- The disk with a directory at a path from the working directory, and with those around it that
are missing. -/
def makeDirectories (disk : Disk) (parts : List Text) : Except Trouble Disk :=
  match disk.makeDirectory parts with
  | .error .missing =>
    if parts = [] then .error .missing
    else
      match disk.makeDirectories parts.dropLast with
      | .ok disk => disk.makeDirectory parts
      | .error trouble => .error trouble
  | result => result
termination_by parts.length
decreasing_by
  have := List.length_pos_iff.2 ‹¬parts = []›
  simp only [List.length_dropLast]
  omega

/-- The disk with one more entry at a path from the working directory. The directories around it are
made. What is written to a link goes to where the link leads; a link is made only where there is
nothing. -/
def put (disk : Disk) (path : String) (entry : Entry) : Except Trouble Disk := do
  if hasNull path.toList then .error .nullCharacter
  else
    let parts := (Path.parse path).parts
    let disk ← disk.makeDirectories parts.dropLast
    match entry with
    | .directory => disk.makeDirectory parts
    | .file octets =>
      match ← disk.find parts with
      | .entry location (.file _) => .ok (disk.set location (.file octets))
      | .vacancy location => .ok (disk.set location (.file octets))
      | .entry .. => .error .isADirectory
    | .link target =>
      if target = "" then .error .missing
      else if hasNull target.toList then .error .nullCharacter
      else
        let location ← disk.vacancy parts
        .ok (disk.set location (.link target))

/-! ### Identities -/

/-- The links that were resolved, and where each leads. -/
abbrev Resolved := List (Location × Location)

/-- Resolves a path from a location part by part, where no more than `links` links may be open
inside one another; more than there are on the disk would be a loop. A link that was resolved before
is not resolved again. -/
def resolveFrom (disk : Disk) (links : Nat) (resolved : Resolved) (location : Location)
    (parts : List Text) : Except Trouble (Resolved × Location) :=
  match parts with
  | [] => .ok (resolved, location)
  | part :: rest =>
    if isStay part then disk.resolveFrom links resolved location rest
    else if part = Path.up then disk.resolveFrom links resolved location.dropLast rest
    else if hasNull part then .error .nullCharacter
    else
      match disk.entry? (location ++ [part]) with
      | none => .error .missing
      | some (.link target) =>
        match resolved.lookup (location ++ [part]) with
        | some goal => disk.resolveFrom links resolved goal rest
        | none =>
          match links with
          | 0 => .error .tooManyLinks
          | inner + 1 =>
            match disk.resolveFrom inner resolved (origin location target.toList)
                (Path.pieces target.toList) with
            | .error trouble => .error trouble
            | .ok (resolved, goal) =>
              disk.resolveFrom (inner + 1) ((location ++ [part], goal) :: resolved) goal rest
      | some _ => disk.resolveFrom links resolved (location ++ [part]) rest
termination_by (links, parts.length)

/-- The number of links on a disk. -/
def linkCount (disk : Disk) : Nat :=
  disk.entries.countP fun entry =>
    match entry.2 with
    | .link _ => true
    | _ => false

/-- The location of the file at a path, with all links resolved. -/
def resolve (disk : Disk) (path : String) : Except Trouble Location :=
  (disk.resolveFrom disk.linkCount [] (origin disk.workingDirectory path.toList)
    (Path.pieces path.toList)).map Prod.snd

/-- The path of a location. -/
def pathOf (location : Location) : String :=
  Path.toString ⟨.root, location⟩

/-- The normal form of a path from the root directory, links left as they are. -/
def absolute (disk : Disk) (path : String) : String :=
  let path := Path.parse path
  if path.anchor = .relative then
    (Path.normalize ⟨.root, disk.workingDirectory ++ path.parts⟩).toString
  else path.normalize.toString

/-- The identity of the file at a path, and what there is to warn of. The identity is the location
of the file; a path that cannot be resolved has its normal form for identity, and a warning tells
so, in which `note` words the trouble. There is none for a path with a null character, once the
resolution comes to it. -/
def identify (disk : Disk) (note : Trouble → String) (path : String) :
    Except Trouble (String × List String) :=
  match disk.resolve path with
  | .ok location => .ok (pathOf location, [])
  | .error .nullCharacter => .error .nullCharacter
  | .error trouble =>
    .ok (disk.absolute path,
      ["cannot resolve " ++ path ++ " (" ++ note trouble ++ "); using " ++ disk.absolute path])

/-- The loader of a disk. -/
def loader (disk : Disk) (encoding : Encoding) (note : Trouble → String) : Loader where
  read := disk.read encoding
  canonical path :=
    match disk.identify note path with
    | .ok (identity, _) => .ok identity
    | .error trouble => .error trouble.message
  warnings path :=
    match disk.identify note path with
    | .ok (_, warnings) => warnings
    | .error _ => []

end Disk

end Splice

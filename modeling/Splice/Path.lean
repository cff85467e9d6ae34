import Splice.Text.Basic

/-!
# Paths

A path is an anchor and a list of parts. Reading a path drops the parts that are empty or a single
dot. A path that starts with exactly two slashes keeps both; three or more count as one.

There are two uses of a path: it can be joined with a path that is given relative to its directory,
which keeps every step up (`Path.join`), and it can be normalized, which takes steps up back as far
as possible (`Path.normalize`).
-/

namespace Splice

namespace Path

/-- What a path starts from. -/
inductive Anchor where
  /-- No slash: the path is relative. -/
  | relative
  /-- The root directory. -/
  | root
  /-- Two slashes. -/
  | doubleRoot
deriving DecidableEq

/-- The slashes of an anchor. -/
def Anchor.mark : Anchor → Text
  | relative => []
  | root => ['/']
  | doubleRoot => ['/', '/']

/-- The part that is a step up. -/
def up : Text :=
  ['.', '.']

end Path

/-- A path: where it starts, and the steps from there. -/
structure Path where
  anchor : Path.Anchor
  parts : List Text
deriving DecidableEq

namespace Path

/-- The pieces of a text between its slashes. -/
def pieces : Text → List Text
  | [] => [[]]
  | c :: s =>
    if c = '/' then [] :: pieces s
    else
      match pieces s with
      | [] => [[c]]
      | piece :: more => (c :: piece) :: more

/-- The anchor of a path as it is written. -/
def anchorOf : Text → Anchor
  | '/' :: '/' :: '/' :: _ => .root
  | '/' :: '/' :: _ => .doubleRoot
  | '/' :: _ => .root
  | _ => .relative

/-- A piece that is a step of the path. -/
def isPart (piece : Text) : Bool :=
  piece != [] && piece != ['.']

/-- Reads a path. -/
def parse (s : String) : Path :=
  ⟨anchorOf s.toList, (pieces s.toList).filter isPart⟩

/-- The parts of a path with slashes between them. -/
def joinParts : List Text → Text
  | [] => []
  | [part] => part
  | part :: parts => part ++ '/' :: joinParts parts

/-- A path as it is written; the path without anchor and parts is a single dot. -/
def toString (path : Path) : String :=
  if path.anchor = .relative ∧ path.parts = [] then "."
  else String.ofList (path.anchor.mark ++ joinParts path.parts)

/-- The directory of a path; a path without parts is its own. -/
def parent (path : Path) : Path :=
  ⟨path.anchor, path.parts.dropLast⟩

/-- The path reached from `base` by `target`: a target that is not relative stands for itself. -/
def join (base target : Path) : Path :=
  if target.anchor = .relative then ⟨base.anchor, base.parts ++ target.parts⟩ else target

/-- One more step after the steps so far, the last of which comes first. A step up takes back the
step before it; it is dropped at the root, and kept at the start of a relative path and after
another that was kept. -/
def collapse (anchor : Anchor) (taken : List Text) (part : Text) : List Text :=
  if part = up then
    match taken with
    | [] => if anchor = .relative then [up] else []
    | last :: before => if last = up then up :: last :: before else before
  else part :: taken

/-- The path with steps up taken back as far as possible. -/
def normalize (path : Path) : Path :=
  ⟨path.anchor, (path.parts.foldl (collapse path.anchor) []).reverse⟩

/-- The normal form of a path as it is written. -/
def normalForm (s : String) : String :=
  (parse s).normalize.toString

/-- The name of a file that is asked for by `target` in the file named `name`. -/
def relativeTo (name target : String) : String :=
  ((parse name).parent.join (parse target)).toString

end Path

end Splice

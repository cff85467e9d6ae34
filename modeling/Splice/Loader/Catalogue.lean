import Splice.Loader.Basic
import Splice.Path

/-!
# Files in memory

A catalogue holds files by path. Paths are compared in normal form, so that a file is found under
every spelling of its path, and the normal form is its identity.
-/

namespace Splice

/-- Files by path, in order. -/
structure Catalogue where
  entries : List (String × Text)

namespace Catalogue

/-- The entries with the content of `path` replaced in its place, or added at the end. -/
def put : List (String × Text) → String → Text → List (String × Text)
  | [], path, content => [(path, content)]
  | entry :: entries, path, content =>
    if entry.1 = path then (path, content) :: entries else entry :: put entries path content

/-- The catalogue of a list of files. A path that is spelled the same way twice keeps its first
place and takes its last content. -/
def ofList (files : List (String × Text)) : Catalogue :=
  ⟨files.foldl (fun entries file => put entries file.1 file.2) []⟩

/-- The content of a path: that of the last entry whose path has the same normal form. -/
def get? (catalogue : Catalogue) (path : String) : Option Text :=
  (catalogue.entries.reverse.find? fun entry =>
    Path.normalForm entry.1 == Path.normalForm path).map Prod.snd

/-- The failure to find a path. -/
def absent (path : String) : LoadFailure :=
  .unreadable ("cannot read " ++ path ++ ": no such file") none (some path)

/-- The loader of a catalogue. -/
def loader (catalogue : Catalogue) : Loader where
  read path :=
    match catalogue.get? path with
    | some content => .ok content
    | none => .error (absent path)
  canonical path := .ok (Path.normalForm path)
  warnings _ := []

end Catalogue

end Splice

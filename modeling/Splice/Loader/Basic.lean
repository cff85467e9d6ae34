import Splice.Position

/-!
# Loaders

A run reads files through a loader. A loader gives the content of a path, or says why it cannot, and
it gives each path an identity, by which a run tells whether it has met a file before. When the
identity is uncertain, the loader warns; there is none only where there can be no such path.
-/

namespace Splice

/-- Why there is no content for a path. -/
inductive LoadFailure where
  /-- The file cannot be read. The location says where the problem lies, if the loader knows; else
  it is the directive that asked. -/
  | unreadable (text : String) (location : Option Position) (path : Option String)
  /-- There can be no such path, so that the loader does not even look for a file. -/
  | unusable (text : String)

/-- A source of files. -/
structure Loader where
  /-- The content of a path. -/
  read : String → Except LoadFailure Text
  /-- The identity of a path, or why there can be no such path. -/
  canonical : String → Except String String
  /-- What there is to warn of when the identity of a path is asked for. -/
  warnings : String → List String

namespace Loader

/-- The loader that fails at the given paths, whatever it holds; of two failures for one path the
last one counts. -/
def withFailures (loader : Loader) (failures : List (String × LoadFailure)) : Loader :=
  { loader with
    read := fun path =>
      match failures.reverse.find? fun failure => failure.1 == path with
      | some failure => .error failure.2
      | none => loader.read path }

/-- The loader that gives the paths in the list the identities beside them; of two identities for
one path the last one counts. -/
def withAliases (loader : Loader) (aliases : List (String × String)) : Loader :=
  { loader with
    canonical := fun path =>
      match aliases.reverse.find? fun entry => entry.1 == path with
      | some entry => .ok entry.2
      | none => loader.canonical path }

end Loader

end Splice

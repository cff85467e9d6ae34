import Mathlib.Data.List.Induction
import Mathlib.Data.List.Nodup
import Splice.Loader.Catalogue
import Splice.Proofs.Path

/-!
# Files in memory and their identities

A catalogue finds a file under every spelling of its path. The identity of a path is its normal
form, which is its own normal form, so that a file can be asked for by its identity as well as by
its name, and so can a name that was read as a path and written out again.

Several entries of a catalogue may have one identity, and then the last of them counts
(`Catalogue.get?_eq_some_iff`). This is what is left if the entries are put into a table by identity
one after the other, each in the place of the one before it (`Catalogue.lookup_table`).
-/

namespace Splice

namespace Catalogue

variable {catalogue : Catalogue} {path : String} {content : Text}

/-- In a catalogue, the identity of a path is its normal form. -/
lemma canonical_loader (catalogue : Catalogue) (path : String) :
    catalogue.loader.canonical path = .ok (Path.normalForm path) :=
  rfl

/-! ### The last entry -/

/-- The content is that of the last entry with the identity. -/
def LastAt (catalogue : Catalogue) (identity : String) (content : Text) : Prop :=
  ∃ before path after, catalogue.entries = before ++ (path, content) :: after ∧
    Path.normalForm path = identity ∧ ∀ entry ∈ after, Path.normalForm entry.1 ≠ identity

/-- The last entry is one of the entries. -/
lemma LastAt.exists_mem {identity : String} (h : catalogue.LastAt identity content) :
    ∃ path, (path, content) ∈ catalogue.entries ∧ Path.normalForm path = identity := by
  obtain ⟨before, path, after, hentries, hpath, -⟩ := h
  refine ⟨path, ?_, hpath⟩
  rw [hentries]
  exact List.mem_append_right before List.mem_cons_self

/-- A path has the content of the last entry with its identity. -/
lemma get?_eq_some_iff :
    catalogue.get? path = some content ↔ catalogue.LastAt (Path.normalForm path) content := by
  rw [get?, Option.map_eq_some_iff]
  constructor
  · rintro ⟨⟨key, other⟩, hfind, rfl⟩
    obtain ⟨hkey, after, before, hentries, hafter⟩ := List.find?_eq_some_iff_append.1 hfind
    refine ⟨before.reverse, key, after.reverse, ?_, by simpa using hkey, ?_⟩
    · rw [← List.reverse_reverse catalogue.entries, hentries]
      simp
    · intro entry hentry
      simpa using hafter entry (List.mem_reverse.1 hentry)
  · rintro ⟨before, key, after, hentries, hkey, hafter⟩
    refine ⟨(key, content), List.find?_eq_some_iff_append.2 ⟨by simpa using hkey, after.reverse,
      before.reverse, by rw [hentries]; simp, ?_⟩, rfl⟩
    intro entry hentry
    simpa using hafter entry (List.mem_reverse.1 hentry)

/-- A path has no content exactly if no entry has its identity. -/
lemma get?_eq_none_iff :
    catalogue.get? path = none ↔
      ∀ entry ∈ catalogue.entries, Path.normalForm entry.1 ≠ Path.normalForm path := by
  rw [get?, Option.map_eq_none_iff, List.find?_eq_none]
  simp

/-! ### Reading -/

/-- What is read is the content of the path. -/
lemma read_eq_ok_iff :
    catalogue.loader.read path = .ok content ↔ catalogue.get? path = some content := by
  cases hget : catalogue.get? path <;> simp [loader, hget]

/-- Reading fails exactly if the path has no content, and the failure names the path. -/
lemma read_eq_error_iff {failure : LoadFailure} :
    catalogue.loader.read path = .error failure ↔
      catalogue.get? path = none ∧ failure = absent path := by
  cases hget : catalogue.get? path <;> simp [loader, hget, eq_comm]

/-- What is read is the content, if there is any. -/
lemma toOption_read (catalogue : Catalogue) (path : String) :
    (catalogue.loader.read path).toOption = catalogue.get? path := by
  cases hget : catalogue.get? path with
  | none => rw [read_eq_error_iff.2 ⟨hget, rfl⟩, Except.toOption]
  | some content => rw [read_eq_ok_iff.2 hget, Except.toOption]

/-- A path has the same content under all spellings. -/
lemma get?_congr {other : String} (h : Path.normalForm path = Path.normalForm other) :
    catalogue.get? path = catalogue.get? other := by
  rw [get?, get?, h]

/-! ### The table of a catalogue -/

/-- The files of a catalogue by identity. -/
def table (catalogue : Catalogue) : List (String × Text) :=
  (ofList (catalogue.entries.map fun entry => (Path.normalForm entry.1, entry.2))).entries

/-- After a content was put at a path, it is found there, and all other paths have what they had. -/
lemma lookup_put (entries : List (String × Text)) (path : String) (content : Text) (key : String) :
    (put entries path content).lookup key =
      if key = path then some content else entries.lookup key := by
  induction entries with
  | nil => by_cases hkey : key = path <;> simp [put, hkey]
  | cons entry entries ih =>
    obtain ⟨other, previous⟩ := entry
    rw [put]
    by_cases hkey : key = other
    · subst hkey
      by_cases hpath : key = path <;> simp [hpath]
    · have hmiss : (key == other) = false := beq_eq_false_iff_ne.2 hkey
      by_cases hother : other = path
      · subst hother
        simp [hkey, hmiss, List.lookup_cons]
      · simp [hother, hmiss, List.lookup_cons, ih]

/-- The last file is put into the catalogue of the others. -/
lemma entries_ofList_concat (files : List (String × Text)) (file : String × Text) :
    (ofList (files ++ [file])).entries = put (ofList files).entries file.1 file.2 := by
  simp [ofList]

/-- Of files that are put into a catalogue under one path, the last is found. The induction is on
the files from the last one on. -/
lemma lookup_ofList (files : List (String × Text)) (key : String) :
    (ofList files).entries.lookup key =
      (files.reverse.find? fun file => file.1 == key).map Prod.snd := by
  induction files using List.reverseRecOn with
  | nil => rfl
  | append_singleton files file ih =>
    rw [entries_ofList_concat, lookup_put, ih, List.reverse_append, List.reverse_singleton,
      List.singleton_append]
    by_cases hkey : key = file.1
    · rw [if_pos hkey, List.find?_cons_of_pos (by simp [hkey]), Option.map_some]
    · rw [if_neg hkey, List.find?_cons_of_neg (by simpa using fun heq => hkey heq.symm)]

/-- The table has the content of a path at its identity. -/
lemma lookup_table (catalogue : Catalogue) (path : String) :
    catalogue.table.lookup (Path.normalForm path) = catalogue.get? path := by
  rw [table, lookup_ofList, ← List.map_reverse, List.find?_map, Option.map_map]
  rfl

/-- A content that is put at a new path is added at the end. -/
lemma put_of_notMem {entries : List (String × Text)} {path : String}
    (h : path ∉ entries.map Prod.fst) (content : Text) :
    put entries path content = entries ++ [(path, content)] := by
  induction entries with
  | nil => rfl
  | cons entry entries ih =>
    rw [List.map_cons, List.mem_cons, not_or] at h
    rw [put, if_neg (fun heq => h.1 heq.symm), ih h.2, List.cons_append]

/-- Files whose paths are all spelled differently are the entries of their catalogue. -/
lemma entries_ofList {files : List (String × Text)} (h : (files.map Prod.fst).Nodup) :
    (ofList files).entries = files := by
  induction files using List.reverseRecOn with
  | nil => rfl
  | append_singleton files file ih =>
    rw [List.map_append, List.nodup_append'] at h
    obtain ⟨hfiles, -, hdisjoint⟩ := h
    have hnew : file.1 ∉ files.map Prod.fst := fun hmem => hdisjoint hmem (by simp)
    rw [entries_ofList_concat, ih hfiles, put_of_notMem hnew]

/-! ### Identities -/

/-- **Identities are stable.** For every catalogue and every path:

* the path has an identity, which is its own identity, and reading either gives the same;
* the path as it is written out after it was read has the same identity;
* reading gives the content of the last entry with the identity of the path, which is what a table
  with one content for each identity has, and it fails exactly if there is none, with a failure that
  names the path as it is spelled.

The entries of a catalogue are the files it is made of, in order, if their paths are all spelled
differently. -/
theorem identities_are_stable (catalogue : Catalogue) (path : String) :
    (∃ identity, catalogue.loader.canonical path = .ok identity ∧
      catalogue.loader.canonical identity = .ok identity ∧
      (∀ content, catalogue.loader.read identity = .ok content ↔
        catalogue.loader.read path = .ok content) ∧
      catalogue.loader.canonical (Path.parse path).toString = .ok identity ∧
      (∀ content, catalogue.loader.read path = .ok content ↔
        catalogue.LastAt identity content) ∧
      (∀ failure, catalogue.loader.read path = .error failure ↔
        failure = .unreadable ("cannot read " ++ path ++ ": no such file") none (some path) ∧
          ∀ entry ∈ catalogue.entries, Path.normalForm entry.1 ≠ identity) ∧
      (catalogue.loader.read path).toOption = catalogue.table.lookup identity) ∧
    ∀ files : List (String × Text), (files.map Prod.fst).Nodup →
      (ofList files).entries = files := by
  have hidentity := Path.normalForm_normalForm path
  have hwritten := Path.normalForm_toString_parse path
  refine ⟨⟨Path.normalForm path, rfl, ?_, ?_, ?_, ?_, ?_, ?_⟩, fun _ => entries_ofList⟩
  · rw [canonical_loader, hidentity]
  · intro content
    rw [read_eq_ok_iff, read_eq_ok_iff, get?_congr hidentity]
  · rw [canonical_loader, hwritten]
  · intro content
    rw [read_eq_ok_iff, get?_eq_some_iff]
  · intro failure
    rw [read_eq_error_iff, get?_eq_none_iff, and_comm, absent]
  · rw [toOption_read, lookup_table]

/-- Files of which two have one identity under different spellings. -/
def respelled : List (String × Text) :=
  [("lib/../m", "old".toList), ("./m", "new".toList), ("lib//a", "text".toList)]

/-- Under a third spelling, the later of the two is found. -/
theorem identities_are_stable_respelled :
    ((respelled.map Prod.fst).Nodup ∧ (ofList respelled).entries = respelled) ∧
      (ofList respelled).loader.read "lib/.././m" = .ok "new".toList ∧
      ∃ identity, (ofList respelled).loader.canonical "lib/.././m" = .ok identity ∧
        (ofList respelled).LastAt identity "new".toList ∧
        (ofList respelled).loader.read identity = .ok "new".toList := by
  obtain ⟨⟨identity, hcanonical, -, hidentity, -, hlast, -, -⟩, hentries⟩ :=
    identities_are_stable (ofList respelled) "lib/.././m"
  obtain rfl : Path.normalForm "lib/.././m" = identity := Except.ok.inj hcanonical
  have hkeys : (respelled.map Prod.fst).Nodup := by decide
  have hsame : Path.normalForm "./m" = Path.normalForm "lib/.././m" := by decide +kernel
  have hother : Path.normalForm "lib//a" ≠ Path.normalForm "lib/.././m" := by decide +kernel
  have hfound : (ofList respelled).LastAt (Path.normalForm "lib/.././m") "new".toList :=
    ⟨[("lib/../m", "old".toList)], "./m", [("lib//a", "text".toList)], hentries respelled hkeys,
      hsame, by simpa using hother⟩
  have hread := (hlast _).2 hfound
  exact ⟨⟨hkeys, hentries respelled hkeys⟩, hread, _, hcanonical, hfound, (hidentity _).2 hread⟩

end Catalogue

end Splice

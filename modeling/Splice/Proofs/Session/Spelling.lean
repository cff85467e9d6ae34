import Splice.Proofs.Catalogue
import Splice.Proofs.Expansion.Refinement
import Splice.Proofs.Path

/-!
# Relative paths and the spelling of a name

A relative path in a file is joined to the directory of the name under which the file was found, and
the name may be any spelling of a path. Joining keeps steps up as they are, and only the identity of
the joined path takes them back. That both together do not depend on the spelling is what makes it
sound to skip a file that was met before: the same request in the same file asks for the same
identity.

The identity can also be had from the identity of the file alone, without any path algebra: it is
that of the text through the last slash (`Path.directory`) with the relative path written after it
(`Path.normalForm_relativeTo_eq_directory`).
-/

namespace Splice

namespace Path

/-! ### The directory of a written path -/

/-- The directory of a path as it is written, with its slash: the text through the last slash. -/
def directory (s : String) : String :=
  String.ofList (s.toList.reverse.dropWhile (· != '/')).reverse

/-- Parts as they are written in front of more parts: a slash after each. -/
def leadParts (parts : List Text) : Text :=
  parts.flatMap (· ++ ['/'])

/-- The last part comes after the others. -/
lemma joinParts_concat (init : List Text) (last : Text) :
    joinParts (init ++ [last]) = leadParts init ++ last := by
  induction init with
  | nil => rfl
  | cons part init ih =>
    have hsplit : joinParts (part :: (init ++ [last])) =
        part ++ '/' :: joinParts (init ++ [last]) := by
      rw [joinParts]
      simp
    rw [List.cons_append, hsplit, ih]
    simp [leadParts]

/-- Parts in front end with a slash. -/
lemma head?_reverse_leadParts {anchor : Anchor} {parts : List Text} {c : Char}
    (h : (anchor.mark ++ leadParts parts).reverse.head? = some c) : c = '/' := by
  rcases List.eq_nil_or_concat parts with rfl | ⟨init, last, rfl⟩
  · cases anchor <;> simp [Anchor.mark, leadParts] at h <;> exact h.symm
  · simp [leadParts] at h
    exact h.symm

/-- A text that ends with a slash, or is empty, is the directory of what is written after it without
a slash. -/
lemma directory_append {lead last : Text} (hlead : ∀ c, lead.reverse.head? = some c → c = '/')
    (hlast : '/' ∉ last) : directory (String.ofList (lead ++ last)) = String.ofList lead := by
  have hskip : ∀ c ∈ last.reverse, (c != '/') = true := by
    intro c hc
    have hne : c ≠ '/' := by
      rintro rfl
      exact hlast (List.mem_reverse.1 hc)
    simpa using hne
  have hstop : lead.reverse.dropWhile (· != '/') = lead.reverse := by
    cases hreverse : lead.reverse with
    | nil => rfl
    | cons c s =>
      have hc : c = '/' := hlead c (by rw [hreverse]; rfl)
      rw [List.dropWhile_cons_of_neg (by simp [hc])]
  rw [directory, String.toList_ofList, List.reverse_append, List.dropWhile_append_of_pos hskip,
    hstop, List.reverse_reverse]

/-- The directory of a path that is written out has the anchor and all parts but the last. -/
lemma directory_toString {path : Path} (h : path.IsProper) :
    directory path.toString =
      String.ofList (path.anchor.mark ++ leadParts path.parts.dropLast) := by
  obtain ⟨anchor, parts⟩ := path
  rcases List.eq_nil_or_concat parts with rfl | ⟨init, last, rfl⟩
  · cases anchor <;> decide
  · have hlast : '/' ∉ last := (h last (by simp)).2
    have hwritten : toString ⟨anchor, init.concat last⟩ =
        String.ofList (anchor.mark ++ leadParts init ++ last) := by
      rw [toString, if_neg (by simp), List.concat_eq_append, joinParts_concat, List.append_assoc]
    rw [hwritten, directory_append (fun c => head?_reverse_leadParts) hlast]
    simp

/-- The pieces of a text with parts in front of it are the parts and then those of the text. -/
lemma pieces_leadParts_append {parts : List Text} (h : ∀ part ∈ parts, '/' ∉ part) (s : Text) :
    pieces (leadParts parts ++ s) = parts ++ pieces s := by
  induction parts with
  | nil => rfl
  | cons part parts ih =>
    have hsplit : leadParts (part :: parts) ++ s = part ++ '/' :: (leadParts parts ++ s) := by
      simp [leadParts]
    rw [hsplit, pieces_append_slash (h part List.mem_cons_self),
      ih fun other hother => h other (List.mem_cons_of_mem _ hother), List.cons_append]

/-- A text with proper parts in front of it starts with a slash only if there are none and the text
does. -/
lemma head?_leadParts_append {parts : List Text}
    (h : ∀ part ∈ parts, isPart part = true ∧ '/' ∉ part) {s : Text} (hs : s.head? ≠ some '/') :
    (leadParts parts ++ s).head? ≠ some '/' := by
  rcases parts with _ | ⟨part, parts⟩
  · exact hs
  obtain ⟨hproper, hslash⟩ := h part List.mem_cons_self
  rcases part with _ | ⟨c, part⟩
  · simp [isPart] at hproper
  have hc : c ≠ '/' := fun heq => hslash (heq ▸ List.mem_cons_self)
  simpa [leadParts] using hc

/-- A text that does not start with a slash is a relative path. -/
lemma anchorOf_of_head? {s : Text} (h : s.head? ≠ some '/') : anchorOf s = .relative :=
  anchorOf_mark_append .relative h

/-- A relative path that is written after a directory is joined to it. -/
lemma parse_directory_append {path : Path} (h : path.IsProper) {target : String}
    (htarget : target.toList.head? ≠ some '/') :
    parse (directory path.toString ++ target) = path.parent.join (parse target) := by
  have hparts : ∀ part ∈ path.parts.dropLast, isPart part = true ∧ '/' ∉ part := h.parent
  have hrelative : (parse target).anchor = .relative := anchorOf_of_head? htarget
  have hfilter : path.parts.dropLast.filter isPart = path.parts.dropLast :=
    List.filter_eq_self.2 fun part hpart => (hparts part hpart).1
  rw [directory_toString h, join, if_pos hrelative, parse, String.toList_append,
    String.toList_ofList, List.append_assoc,
    anchorOf_mark_append _ (head?_leadParts_append hparts htarget), filter_pieces_mark_append,
    pieces_leadParts_append fun part hpart => (hparts part hpart).2, List.filter_append, hfilter]
  rfl

/-- The normal form of a relative path in a file is that of the path written after the directory of
the normal form of its name, if the name does not end with a step up. -/
lemma normalForm_relativeTo_eq_directory {name target : String}
    (hlast : (parse name).parts.getLast? ≠ some up) (htarget : target.toList.head? ≠ some '/') :
    normalForm (relativeTo name target) = normalForm (directory (normalForm name) ++ target) := by
  have hrelative : (parse target).anchor = .relative := anchorOf_of_head? htarget
  have hdirectory : (parse name).normalize.parts.dropLast.foldl (collapse (parse name).anchor) [] =
      (parse name).parts.dropLast.foldl (collapse (parse name).anchor) [] := by
    rw [normalize]
    rcases List.eq_nil_or_concat (parse name).parts with hnone | ⟨init, last, hparts⟩
    · rw [hnone]
      rfl
    · rw [hparts, List.concat_eq_append] at hlast ⊢
      rw [foldl_collapse_concat _ hlast, List.reverse_cons, List.dropLast_concat,
        List.dropLast_concat]
      exact foldl_collapse_reverse (isReduced_foldl_collapse init trivial)
  rw [normalForm, parse_relativeTo, normalForm, normalForm,
    parse_directory_append (isProper_parse name).normalize htarget]
  congr 1
  rw [join, join, if_pos hrelative, if_pos hrelative, normalize, normalize, parent, parent]
  simp only
  rw [List.foldl_append, List.foldl_append, ← hdirectory]
  rfl

end Path

namespace Session

/-- **Relative paths do not depend on spelling.** Two files under construction may have different
names for one identity in a catalogue, of which neither ends with a step up. Then a path that is
asked for, relative or not, stands for the same identity in both. If it is relative, this is the
identity of the path written after the directory of the identity of the file. -/
theorem identity_of_spellings (catalogue : Catalogue) {session session' : Session}
    {name name' : String} (hname : session.current?.map Frame.name = some name)
    (hname' : session'.current?.map Frame.name = some name')
    (hsame : catalogue.loader.canonical name = catalogue.loader.canonical name')
    (hlast : (Path.parse name).parts.getLast? ≠ some Path.up)
    (hlast' : (Path.parse name').parts.getLast? ≠ some Path.up) (target : String) :
    catalogue.loader.canonical (session.resolve target) =
        catalogue.loader.canonical (session'.resolve target) ∧
      ∃ identity, catalogue.loader.canonical name = .ok identity ∧
        (target.toList.head? ≠ some '/' →
          catalogue.loader.canonical (session.resolve target) =
            catalogue.loader.canonical (Path.directory identity ++ target)) := by
  rw [resolve_of_name hname, resolve_of_name hname']
  have hnormal : Path.normalForm name = Path.normalForm name' := Except.ok.inj hsame
  refine ⟨?_, Path.normalForm name, rfl, ?_⟩
  · rw [Catalogue.canonical_loader, Catalogue.canonical_loader,
      Path.normalForm_relativeTo hnormal hlast hlast' target]
  · intro hrelative
    rw [Catalogue.canonical_loader, Catalogue.canonical_loader,
      Path.normalForm_relativeTo_eq_directory hlast hrelative]

/-- A session with one file under construction, which has the given name. -/
def within (name : String) : Session :=
  (Session.start .default none).push ⟨.start name, name, name, []⟩

/-- Under two spellings of the name of a file, a path that goes up further than there are levels
asks for the same file. -/
theorem identity_of_spellings_up :
    (Catalogue.mk []).loader.canonical "/a/b/../c/./m" =
        (Catalogue.mk []).loader.canonical "/a//c/m" ∧
      (Catalogue.mk []).loader.canonical ((within "/a/b/../c/./m").resolve "../../../d//e") =
        (Catalogue.mk []).loader.canonical ((within "/a//c/m").resolve "../../../d//e") ∧
      (∃ identity, (Catalogue.mk []).loader.canonical "/a/b/../c/./m" = .ok identity ∧
        (Catalogue.mk []).loader.canonical ((within "/a/b/../c/./m").resolve "../../../d//e") =
          (Catalogue.mk []).loader.canonical (Path.directory identity ++ "../../../d//e")) ∧
      (Catalogue.mk []).loader.canonical ((within "/a/b/../c/./m").resolve "../../../d//e") =
        .ok "/d/e" := by
  have hsame : (Catalogue.mk []).loader.canonical "/a/b/../c/./m" =
      (Catalogue.mk []).loader.canonical "/a//c/m" := by
    decide +kernel
  obtain ⟨hspellings, identity, hidentity, hdirectory⟩ := @identity_of_spellings ⟨[]⟩
    (within "/a/b/../c/./m") (within "/a//c/m") _ _ rfl rfl hsame (by decide +kernel)
    (by decide +kernel) "../../../d//e"
  exact ⟨hsame, hspellings, ⟨identity, hidentity, hdirectory (by decide +kernel)⟩,
    by decide +kernel⟩

end Session

end Splice

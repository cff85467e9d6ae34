import Mathlib.Tactic.Common
import Splice.Path

/-!
# Paths and their spellings

A path that is written out can be read back (`Path.parse_toString`), so that two paths have the same
normal form as texts only if they are normalized to the same path. The normal form of a file that is
asked for depends on the name of the file that asks only through the normal form of this name, as
long as the name does not end with a step up (`Path.normalForm_relativeTo`).
-/

namespace Splice.Path

/-! ### Reading back -/

/-- The parts of a path are proper: none is empty, a single dot, or holds a slash. -/
def IsProper (path : Path) : Prop :=
  ∀ part ∈ path.parts, isPart part = true ∧ '/' ∉ part

/-- A text without slashes is one piece. -/
lemma pieces_of_no_slash {s : Text} (h : '/' ∉ s) : pieces s = [s] := by
  induction s with
  | nil => rfl
  | cons c s ih =>
    have hc : c ≠ '/' := fun heq => h (heq ▸ List.mem_cons_self)
    have hs : '/' ∉ s := fun hmem => h (List.mem_cons_of_mem c hmem)
    rw [pieces, if_neg hc, ih hs]

/-- The pieces on both sides of a slash. -/
lemma pieces_append_slash {s : Text} (h : '/' ∉ s) (t : Text) :
    pieces (s ++ '/' :: t) = s :: pieces t := by
  induction s with
  | nil => simp [pieces]
  | cons c s ih =>
    have hc : c ≠ '/' := fun heq => h (heq ▸ List.mem_cons_self)
    have hs : '/' ∉ s := fun hmem => h (List.mem_cons_of_mem c hmem)
    rw [List.cons_append, pieces, if_neg hc, ih hs]

/-- No piece holds a slash. -/
lemma slash_notMem_of_mem_pieces {s piece : Text} (h : piece ∈ pieces s) : '/' ∉ piece := by
  induction s generalizing piece with
  | nil =>
    rw [List.mem_singleton.1 h]
    exact List.not_mem_nil
  | cons c s ih =>
    rw [pieces] at h
    by_cases hc : c = '/'
    · rw [if_pos hc] at h
      rcases List.mem_cons.1 h with rfl | h
      · exact List.not_mem_nil
      · exact ih h
    · rw [if_neg hc] at h
      have hc' : '/' ≠ c := fun heq => hc heq.symm
      split at h
      · rw [List.mem_singleton.1 h]
        simpa using hc'
      · rename_i first more hpieces
        rw [hpieces] at ih
        rcases List.mem_cons.1 h with rfl | h
        · simp [hc', ih List.mem_cons_self]
        · exact ih (List.mem_cons_of_mem _ h)

/-- The pieces of parts that are written out are the parts, if there are any. The induction is on
the parts. -/
lemma pieces_joinParts {parts : List Text} (hne : parts ≠ []) (h : ∀ part ∈ parts, '/' ∉ part) :
    pieces (joinParts parts) = parts := by
  induction parts with
  | nil => exact absurd rfl hne
  | cons part parts ih =>
    have hpart := h part List.mem_cons_self
    cases parts with
    | nil => exact pieces_of_no_slash hpart
    | cons next parts =>
      rw [joinParts, pieces_append_slash hpart,
        ih (List.cons_ne_nil _ _) fun other hother => h other (List.mem_cons_of_mem _ hother)]
      exact List.cons_ne_nil _ _

/-- Proper parts that are written out do not start with a slash. -/
lemma head?_joinParts {parts : List Text} (h : ∀ part ∈ parts, isPart part = true ∧ '/' ∉ part) :
    (joinParts parts).head? ≠ some '/' := by
  rcases parts with _ | ⟨part, parts⟩
  · simp [joinParts]
  obtain ⟨hproper, hslash⟩ := h part List.mem_cons_self
  rcases part with _ | ⟨c, part⟩
  · simp [isPart] at hproper
  have hc : c ≠ '/' := fun heq => hslash (heq ▸ List.mem_cons_self)
  rcases parts with _ | ⟨next, parts⟩ <;> simpa [joinParts] using hc

/-- The anchor of a text that goes on after its mark without a slash. -/
lemma anchorOf_mark_append (anchor : Anchor) {s : Text} (h : s.head? ≠ some '/') :
    anchorOf (anchor.mark ++ s) = anchor := by
  rcases s with _ | ⟨c, s⟩
  · cases anchor <;> rfl
  · have hc : c ≠ '/' := by simpa using h
    cases anchor <;> simp [Anchor.mark, anchorOf, hc]

/-- The mark of an anchor has no parts of its own. -/
lemma filter_pieces_mark_append (anchor : Anchor) (s : Text) :
    (pieces (anchor.mark ++ s)).filter isPart = (pieces s).filter isPart := by
  cases anchor <;> simp [Anchor.mark, pieces, isPart]

/-- A path with proper parts that is written out is read back. -/
lemma parse_toString {path : Path} (h : path.IsProper) : parse path.toString = path := by
  obtain ⟨anchor, parts⟩ := path
  rw [toString]
  split
  · rename_i hdot
    obtain ⟨rfl, rfl⟩ := hdot
    decide
  · have hhead := head?_joinParts h
    have hparts : (pieces (joinParts parts)).filter isPart = parts := by
      by_cases hnone : parts = []
      · subst hnone
        rfl
      · rw [pieces_joinParts hnone fun part hpart => (h part hpart).2]
        exact List.filter_eq_self.2 fun part hpart => (h part hpart).1
    rw [parse, String.toList_ofList, anchorOf_mark_append anchor hhead,
      filter_pieces_mark_append, hparts]

/-! ### Proper paths -/

/-- The parts of a path that is read are proper. -/
lemma isProper_parse (s : String) : (parse s).IsProper := by
  intro part hpart
  obtain ⟨hmem, hproper⟩ := List.mem_filter.1 hpart
  exact ⟨hproper, slash_notMem_of_mem_pieces hmem⟩

/-- So are those of its directory. -/
lemma IsProper.parent {path : Path} (h : path.IsProper) : path.parent.IsProper :=
  fun part hpart => h part (List.dropLast_subset _ hpart)

/-- So are those of a path that is reached from another one. -/
lemma IsProper.join {base target : Path} (hbase : base.IsProper) (htarget : target.IsProper) :
    (base.join target).IsProper := by
  rw [Path.join]
  split
  · intro part hpart
    rcases List.mem_append.1 hpart with hpart | hpart
    · exact hbase part hpart
    · exact htarget part hpart
  · exact htarget

/-- A step that is none up is added. -/
lemma collapse_of_ne_up (anchor : Anchor) (taken : List Text) {part : Text} (h : part ≠ up) :
    collapse anchor taken part = part :: taken := by
  unfold collapse
  rw [if_neg h]

/-- A step adds no other part than its own. -/
lemma mem_collapse {anchor : Anchor} {taken : List Text} {part other : Text}
    (h : other ∈ collapse anchor taken part) : other = part ∨ other ∈ taken := by
  unfold collapse at h
  split at h
  · rename_i hup
    rcases taken with _ | ⟨last, before⟩
    · simp only at h
      split at h
      · exact Or.inl ((List.mem_singleton.1 h).trans hup.symm)
      · cases h
    · simp only at h
      split at h
      · rcases List.mem_cons.1 h with rfl | h
        · exact Or.inl hup.symm
        · exact Or.inr h
      · exact Or.inr (List.mem_cons_of_mem _ h)
  · exact List.mem_cons.1 h

/-- Steps add no other parts than their own. The induction is on the steps. -/
lemma mem_foldl_collapse {anchor : Anchor} {parts taken : List Text} {other : Text}
    (h : other ∈ parts.foldl (collapse anchor) taken) : other ∈ parts ∨ other ∈ taken := by
  induction parts generalizing taken with
  | nil => exact Or.inr h
  | cons part parts ih =>
    rcases ih h with hparts | htaken
    · exact Or.inl (List.mem_cons_of_mem _ hparts)
    · rcases mem_collapse htaken with rfl | htaken
      · exact Or.inl List.mem_cons_self
      · exact Or.inr htaken

/-- Normalizing a path keeps its parts proper. -/
lemma IsProper.normalize {path : Path} (h : path.IsProper) : path.normalize.IsProper := by
  intro part hpart
  rcases mem_foldl_collapse (List.mem_reverse.1 hpart) with hmem | hnone
  · exact h part hmem
  · cases hnone

/-! ### Normal paths -/

/-- Steps so far, the last one first, of which none can be taken back: below a step up there are
steps up only, and there is none at all unless the path is relative. -/
def IsReduced (anchor : Anchor) : List Text → Prop
  | [] => True
  | part :: taken =>
    (part = up → anchor = .relative ∧ ∀ other ∈ taken, other = up) ∧ IsReduced anchor taken

/-- A step up at the start is kept if the path is relative. -/
lemma collapse_up_nil (anchor : Anchor) :
    collapse anchor [] up = if anchor = .relative then [up] else [] :=
  rfl

/-- A step up takes back the step before it, unless that is a step up. -/
lemma collapse_up_cons (anchor : Anchor) (last : Text) (before : List Text) :
    collapse anchor (last :: before) up = if last = up then up :: last :: before else before :=
  rfl

/-- One more step leaves none that can be taken back. -/
lemma isReduced_collapse {anchor : Anchor} {taken : List Text} (h : IsReduced anchor taken)
    (part : Text) : IsReduced anchor (collapse anchor taken part) := by
  by_cases hup : part = up
  · subst hup
    rcases taken with _ | ⟨last, before⟩
    · rw [collapse_up_nil]
      split
      · rename_i hrelative
        exact ⟨fun _ => ⟨hrelative, by simp⟩, trivial⟩
      · trivial
    · obtain ⟨hlast, hbefore⟩ := h
      rw [collapse_up_cons]
      split
      · rename_i heq
        obtain ⟨hrelative, hall⟩ := hlast heq
        refine ⟨fun _ => ⟨hrelative, ?_⟩, hlast, hbefore⟩
        simpa [heq] using hall
      · exact hbefore
  · rw [collapse_of_ne_up anchor taken hup]
    exact ⟨fun heq => absurd heq hup, h⟩

/-- Steps leave none that can be taken back. The induction is on the steps. -/
lemma isReduced_foldl_collapse {anchor : Anchor} (parts : List Text) {taken : List Text}
    (h : IsReduced anchor taken) : IsReduced anchor (parts.foldl (collapse anchor) taken) := by
  induction parts generalizing taken with
  | nil => exact h
  | cons part parts ih => exact ih (isReduced_collapse h part)

/-- A step that cannot be taken back, after others that cannot, is added. -/
lemma collapse_of_isReduced {anchor : Anchor} {taken : List Text} {part : Text}
    (h : IsReduced anchor (part :: taken)) : collapse anchor taken part = part :: taken := by
  by_cases hup : part = up
  · subst hup
    obtain ⟨hrelative, hall⟩ := h.1 rfl
    rcases taken with _ | ⟨last, before⟩
    · rw [collapse_up_nil, if_pos hrelative]
    · rw [collapse_up_cons, if_pos (hall last List.mem_cons_self)]
  · exact collapse_of_ne_up anchor taken hup

/-- Steps of which none can be taken back come to themselves. The induction is on the last step. -/
lemma foldl_collapse_reverse {anchor : Anchor} {taken : List Text} (h : IsReduced anchor taken) :
    taken.reverse.foldl (collapse anchor) [] = taken := by
  induction taken with
  | nil => rfl
  | cons part taken ih =>
    rw [List.reverse_cons, List.foldl_append, ih h.2, List.foldl_cons, List.foldl_nil,
      collapse_of_isReduced h]

/-- A path is normalized once and for all. -/
lemma normalize_normalize (path : Path) : path.normalize.normalize = path.normalize := by
  have hreduced : IsReduced path.anchor (path.parts.foldl (collapse path.anchor) []) :=
    isReduced_foldl_collapse path.parts trivial
  simp only [normalize, foldl_collapse_reverse hreduced]

/-! ### Spellings -/

/-- The normal form of a path that is written out is that of the path. -/
lemma normalForm_toString {path : Path} (h : path.IsProper) :
    normalForm path.toString = path.normalize.toString := by
  rw [normalForm, parse_toString h]

/-- A path that was read and is written out has the same normal form. -/
lemma normalForm_toString_parse (s : String) : normalForm (parse s).toString = normalForm s :=
  normalForm_toString (isProper_parse s)

/-- A normal form is its own normal form. -/
lemma normalForm_normalForm (s : String) : normalForm (normalForm s) = normalForm s := by
  have hwritten := normalForm_toString (isProper_parse s).normalize
  rwa [normalize_normalize] at hwritten

/-- Texts with the same normal form are paths that are normalized to the same path. -/
lemma normalize_eq_of_normalForm_eq {s t : String} (h : normalForm s = normalForm t) :
    (parse s).normalize = (parse t).normalize := by
  rw [← parse_toString (isProper_parse s).normalize, ← parse_toString (isProper_parse t).normalize]
  exact congrArg parse h

/-- The path of a file that is asked for starts at the directory of the file that asks. -/
lemma parse_relativeTo (name target : String) :
    parse (relativeTo name target) = (parse name).parent.join (parse target) :=
  parse_toString ((isProper_parse name).parent.join (isProper_parse target))

/-- A last step that is none up comes on top of the steps before it. -/
lemma foldl_collapse_concat (anchor : Anchor) {init : List Text} {last : Text}
    (hlast : (init ++ [last]).getLast? ≠ some up) :
    (init ++ [last]).foldl (collapse anchor) [] = last :: init.foldl (collapse anchor) [] := by
  rw [List.foldl_append, List.foldl_cons, List.foldl_nil]
  exact collapse_of_ne_up anchor _ (by simpa using hlast)

/-- Steps that come to the same, and of which the last is none up, come to the same without the last
one. -/
lemma foldl_collapse_dropLast {anchor : Anchor} {parts parts' : List Text}
    (h : parts.foldl (collapse anchor) [] = parts'.foldl (collapse anchor) [])
    (hlast : parts.getLast? ≠ some up) (hlast' : parts'.getLast? ≠ some up) :
    parts.dropLast.foldl (collapse anchor) [] = parts'.dropLast.foldl (collapse anchor) [] := by
  rcases List.eq_nil_or_concat parts with rfl | ⟨init, last, rfl⟩
  · rcases List.eq_nil_or_concat parts' with rfl | ⟨init', last', rfl⟩
    · rfl
    · rw [List.concat_eq_append] at h hlast'
      rw [foldl_collapse_concat anchor hlast'] at h
      cases h
  · rw [List.concat_eq_append] at h hlast ⊢
    rw [foldl_collapse_concat anchor hlast] at h
    rcases List.eq_nil_or_concat parts' with rfl | ⟨init', last', rfl⟩
    · cases h
    · rw [List.concat_eq_append] at h hlast' ⊢
      rw [foldl_collapse_concat anchor hlast'] at h
      rw [List.dropLast_concat, List.dropLast_concat]
      exact (List.cons.inj h).2

/-- The normal form of a file that is asked for is the same under all spellings of the name of the
file that asks, if they do not end with a step up. -/
lemma normalForm_relativeTo {name name' : String} (h : normalForm name = normalForm name')
    (hlast : (parse name).parts.getLast? ≠ some up)
    (hlast' : (parse name').parts.getLast? ≠ some up) (target : String) :
    normalForm (relativeTo name target) = normalForm (relativeTo name' target) := by
  have hnormal := normalize_eq_of_normalForm_eq h
  have hanchor : (parse name).anchor = (parse name').anchor :=
    congrArg (fun path => path.anchor) hnormal
  have hparts : (parse name).parts.foldl (collapse (parse name).anchor) [] =
      (parse name').parts.foldl (collapse (parse name).anchor) [] := by
    have hreverse := congrArg (fun path => path.parts) hnormal
    simp only [Path.normalize, ← hanchor] at hreverse
    exact List.reverse_inj.1 hreverse
  have hdirectory := foldl_collapse_dropLast hparts hlast hlast'
  rw [normalForm, normalForm, parse_relativeTo, parse_relativeTo]
  congr 1
  rw [Path.join, Path.join]
  split
  · rw [Path.normalize, Path.normalize, Path.parent, Path.parent, ← hanchor]
    simp only
    rw [List.foldl_append, List.foldl_append, hdirectory]
  · rfl

end Splice.Path

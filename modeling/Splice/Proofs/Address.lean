import Splice.Proofs.Place

/-!
# Lines and columns of offsets

An offset of a text stands on a line and column (`Text.StandsOn`): the line is counted by the line
ends before the offset, and the column from the last of them. This is the place that is reached by
going over the text up to the offset (`Text.standsOn_skip`), and it is also what a lookup of the
line and column leads back to: the lookup finds an offset exactly if the offset stands there
(`Text.offsetAt?_eq_some_iff`).
-/

namespace Splice

namespace Text

/-- The index of the last line end of a text, and -1 if it has none. -/
def lastNewline : Text → Int
  | [] => -1
  | c :: s => if '\n' ∈ s then lastNewline s + 1 else if c = '\n' then 0 else -1

/-- An offset of a text stands on a line and column, both counted from one. The end of the text is
such an offset too. -/
structure StandsOn (s : Text) (offset : Nat) (line column : Int) : Prop where
  le_length : offset ≤ s.length
  line_eq : line = 1 + newlines (s.take offset)
  column_eq : column = offset - lastNewline (s.take offset)

/-- A text has no line ends exactly when none is in it. -/
lemma newlines_eq_zero_iff (s : Text) : s.newlines = 0 ↔ '\n' ∉ s :=
  List.count_eq_zero

/-- The line ends of a text with one more character in front. -/
lemma newlines_cons (c : Char) (s : Text) :
    newlines (c :: s) = s.newlines + if c = '\n' then 1 else 0 := by
  simp [newlines, List.count_cons]

/-- A line end in front of a text is not part of its last line. -/
lemma lastLine_newline_cons (s : Text) : lastLine ('\n' :: s) = s.lastLine := by
  by_cases hs : s.newlines = 0
  · have hsplit := lastLine_append_of_newlines_eq_zero ['\n'] hs
    rw [lastLine_of_newlines_eq_zero hs]
    exact hsplit
  · exact lastLine_append_of_newlines_ne_zero ['\n'] hs

/-- The last line of a text is all that comes after its last line end. -/
lemma lastNewline_eq (s : Text) : s.lastNewline = s.length - s.lastLine.length - 1 := by
  induction s with
  | nil => rfl
  | cons c s ih =>
    rw [lastNewline]
    split
    · rename_i hmem
      have hs : newlines s ≠ 0 := fun hzero => (newlines_eq_zero_iff s).1 hzero hmem
      have hlast : lastLine (c :: s) = lastLine s := lastLine_append_of_newlines_ne_zero [c] hs
      rw [ih, hlast, List.length_cons]
      omega
    · rename_i hmem
      have hs : newlines s = 0 := (newlines_eq_zero_iff s).2 hmem
      split
      · rename_i hc
        rw [hc, lastLine_newline_cons, lastLine_of_newlines_eq_zero hs, List.length_cons]
        omega
      · rename_i hc
        have hall : newlines (c :: s) = 0 := by rw [newlines_cons, hs, if_neg hc]
        rw [lastLine_of_newlines_eq_zero hall]
        omega

/-- A line and column, counted from zero, that are found are those of the offset. The induction
follows the lookup, which uses up the lines first and then the columns. -/
lemma locate_eq_some {s : Text} {line column offset : Nat}
    (h : locate s line column = some offset) :
    offset ≤ s.length ∧ line = newlines (s.take offset) ∧
      column = (lastLine (s.take offset)).length := by
  fun_induction locate s line column generalizing offset with
  | case1 s =>
    cases h
    simp [newlines, lastLine]
  | case2 => cases h
  | case3 => cases h
  | case4 c s column hc ih =>
    obtain ⟨found, hfound, rfl⟩ := Option.map_eq_some_iff.1 h
    obtain ⟨hle, hline, hcolumn⟩ := ih hfound
    have hall : newlines (c :: s.take found) = 0 := by rw [newlines_cons, ← hline, if_neg hc]
    rw [lastLine_of_newlines_eq_zero hline.symm] at hcolumn
    rw [List.take_succ_cons, hall, lastLine_of_newlines_eq_zero hall, List.length_cons,
      List.length_cons, ← hcolumn]
    exact ⟨by omega, rfl, rfl⟩
  | case5 c s line column ihline ihlater =>
    obtain ⟨found, hfound, rfl⟩ := Option.map_eq_some_iff.1 h
    rw [List.take_succ_cons, newlines_cons, List.length_cons]
    split at hfound
    · rename_i hc
      obtain ⟨hle, hline, hcolumn⟩ := ihline hfound
      rw [hc, if_pos rfl, lastLine_newline_cons, ← hline, ← hcolumn]
      exact ⟨by omega, rfl, rfl⟩
    · rename_i hc
      obtain ⟨hle, hline, hcolumn⟩ := ihlater hfound
      have hlast : lastLine (c :: s.take found) = lastLine (s.take found) :=
        lastLine_append_of_newlines_ne_zero [c] (by omega)
      rw [if_neg hc, hlast, ← hline, ← hcolumn]
      exact ⟨by omega, rfl, rfl⟩

/-- Going over a text up to an offset leads to the line and column on which the offset stands. -/
lemma standsOn_skip (s : Text) {offset : Nat} (h : offset ≤ s.length) :
    s.StandsOn offset (Place.start.skip (s.take offset)).line
      (Place.start.skip (s.take offset)).column := by
  refine ⟨h, rfl, ?_⟩
  rw [Place.start_skip_column, lastNewline_eq, List.length_take, Nat.min_eq_left h]
  omega

/-- **Lines and columns address offsets.** The lookup of a line and column finds an offset exactly
if the offset stands there. -/
lemma offsetAt?_eq_some_iff {s : Text} {line column : Int} {offset : Nat} :
    s.offsetAt? line column = some offset ↔ s.StandsOn offset line column := by
  constructor
  · intro h
    rw [offsetAt?] at h
    split at h
    · cases h
    · rename_i hcounted
      obtain ⟨hle, hline, hcolumn⟩ := locate_eq_some h
      refine ⟨hle, by omega, ?_⟩
      rw [lastNewline_eq, ← hcolumn, List.length_take, Nat.min_eq_left hle]
      omega
  · rintro ⟨hle, rfl, rfl⟩
    have hplace := s.standsOn_skip hle
    have hfound := offsetAt?_skip (s.take offset) (s.drop offset)
    rw [List.take_append_drop, hplace.line_eq, hplace.column_eq, List.length_take,
      Nat.min_eq_left hle] at hfound
    exact hfound

/-- The end of a line has an offset, and there is none after it on the line. -/
example : offsetAt? "ab\nc".toList 1 3 = some 2 ∧ offsetAt? "ab\nc".toList 1 4 = none ∧
    offsetAt? "ab\nc".toList 2 2 = some 4 := by
  decide

end Text

end Splice

import Mathlib.Data.List.TakeWhile
import Mathlib.Tactic.Common
import Splice.Place

/-!
# Places and addresses

A place is reached by going over a text, and going over two texts in turn is the same as going over
both at once (`Place.skip_append`). Hence a place of a scan is determined by the part of the source
before it, `Place.start.skip before`, and so are the line and column that it stands on.

The line and column of such a place address it: looking them up in the source gives back the number
of characters before the place (`Text.offsetAt?_skip`). Positions of characters in a span are places
too (`Place.within?_position`), so that every position the library computes by counting line ends
leads back to one character of the source.
-/

namespace Splice

namespace Text

/-- The line ends of two texts in a row. -/
@[simp] lemma newlines_append (s t : Text) : newlines (s ++ t) = s.newlines + t.newlines :=
  List.count_append

/-- A text without a line end that follows another goes on with its last line. -/
lemma lastLine_append_of_newlines_eq_zero (s : Text) {t : Text} (h : t.newlines = 0) :
    lastLine (s ++ t) = s.lastLine ++ t := by
  have hmem : '\n' ∉ t := List.count_eq_zero.1 h
  have hall : ∀ c ∈ t.reverse, (c != '\n') = true := by
    intro c hc
    have hne : c ≠ '\n' := by
      rintro rfl
      exact hmem (List.mem_reverse.1 hc)
    simpa using hne
  unfold lastLine
  rw [List.reverse_append, List.takeWhile_append_of_pos hall, List.reverse_append,
    List.reverse_reverse]

/-- A text without line ends is its own last line. -/
lemma lastLine_of_newlines_eq_zero {s : Text} (h : s.newlines = 0) : s.lastLine = s :=
  lastLine_append_of_newlines_eq_zero [] h

/-- The last line of a text with a line end does not depend on what comes before the text. -/
lemma lastLine_append_of_newlines_ne_zero (s : Text) {t : Text} (h : t.newlines ≠ 0) :
    lastLine (s ++ t) = t.lastLine := by
  have hmem : '\n' ∈ t := by
    by_contra hnot
    exact h (List.count_eq_zero.2 hnot)
  obtain ⟨c, hc, hstop⟩ : ∃ c ∈ t.reverse, ¬ (c != '\n') = true :=
    ⟨'\n', List.mem_reverse.2 hmem, by simp⟩
  have hshort : (t.reverse.takeWhile (· != '\n')).length ≠ t.reverse.length := by
    intro hlen
    have hself : t.reverse.takeWhile (· != '\n') = t.reverse :=
      (List.takeWhile_prefix _).eq_of_length hlen
    exact hstop (List.takeWhile_eq_self_iff.1 hself c hc)
  unfold lastLine
  rw [List.reverse_append, List.takeWhile_append, if_neg hshort]

/-- A text ends at the start of a line when it is empty or ends with a line end. -/
def EndsLine (s : Text) : Prop :=
  s = [] ∨ s.getLast? = some '\n'

instance (s : Text) : Decidable s.EndsLine :=
  inferInstanceAs (Decidable (s = [] ∨ s.getLast? = some '\n'))

/-- The last line of a text is empty exactly when the text ends at the start of a line. -/
lemma lastLine_eq_nil_iff (s : Text) : s.lastLine = [] ↔ s.EndsLine := by
  rcases List.eq_nil_or_concat s with rfl | ⟨t, c, rfl⟩
  · simp [lastLine, EndsLine]
  · by_cases hc : c = '\n' <;> simp [lastLine, EndsLine, hc]

/-- The offset of the line and column that are reached by going over `s` is the length of `s`. The
induction is on `s`; the lines before the last one are used up by its line ends. -/
lemma locate_append (s t : Text) :
    locate (s ++ t) s.newlines (lastLine s).length = some s.length := by
  induction s with
  | nil => simp [newlines, lastLine, locate]
  | cons c s ih =>
    have hsplit : c :: s = [c] ++ s := rfl
    by_cases hs : newlines s = 0
    · rw [hs, lastLine_of_newlines_eq_zero hs] at ih
      by_cases hc : c = '\n'
      · subst hc
        have hlines : newlines ('\n' :: s) = 1 := by simp [newlines] at hs ⊢; exact hs
        have hlast : lastLine ('\n' :: s) = s := by
          rw [hsplit, lastLine_append_of_newlines_eq_zero _ hs]
          simp [lastLine]
        rw [hlines, hlast, List.cons_append, locate, if_pos rfl, ih]
        simp
      · have hlines : newlines (c :: s) = 0 := by
          simp [newlines, hc] at hs ⊢
          exact hs
        rw [hlines, lastLine_of_newlines_eq_zero hlines, List.length_cons, List.cons_append, locate,
          if_neg hc, ih]
        simp
    · obtain ⟨lines, hlines⟩ := Nat.exists_eq_succ_of_ne_zero hs
      rw [hsplit, lastLine_append_of_newlines_ne_zero _ hs, newlines_append]
      by_cases hc : c = '\n'
      · have hone : newlines [c] = 1 := by simp [newlines, hc]
        rw [hone, Nat.add_comm, List.append_assoc, List.singleton_append, locate, if_pos hc, ih]
        simp
      · have hzero : newlines [c] = 0 := by simp [newlines, hc]
        rw [hlines] at ih
        rw [hzero, Nat.zero_add, hlines, List.append_assoc, List.singleton_append, locate,
          if_neg hc, ih]
        simp

end Text

namespace Place

@[simp] lemma skip_nil (p : Place) : p.skip [] = p := by
  simp [skip, Text.newlines]

@[simp] lemma skip_offset (p : Place) (s : Text) : (p.skip s).offset = p.offset + s.length := rfl

/-- Going over two texts in turn is the same as going over both at once. -/
lemma skip_append (p : Place) (s t : Text) : p.skip (s ++ t) = (p.skip s).skip t := by
  by_cases ht : t.newlines = 0
  · by_cases hs : s.newlines = 0
    · simp [skip, hs, ht]
      omega
    · have hlast := Text.lastLine_append_of_newlines_eq_zero s ht
      simp [skip, hs, ht, hlast]
      omega
  · have hlast := Text.lastLine_append_of_newlines_ne_zero s ht
    simp [skip, ht, hlast]
    omega

/-- The column after a text, counted from the start of a source: one more than the length of the
last line. -/
lemma start_skip_column (s : Text) : (start.skip s).column = s.lastLine.length + 1 := by
  by_cases hs : s.newlines = 0
  · rw [Text.lastLine_of_newlines_eq_zero hs]
    simp [skip, start, hs]
    omega
  · simp [skip, hs]

/-- A place of a source is the start of a line when nothing or a line end comes before it. -/
lemma isLineStart_start_skip (s : Text) : (start.skip s).isLineStart = true ↔ s.EndsLine := by
  have hcolumn := start_skip_column s
  rw [← Text.lastLine_eq_nil_iff, ← List.length_eq_zero_iff, isLineStart, beq_iff_eq, hcolumn]
  omega

/-- Only the first place of a source stands on the first column of the first line. -/
lemma eq_nil_of_first_line {s : Text} (hline : (start.skip s).line = 1)
    (hstart : (start.skip s).isLineStart = true) : s = [] := by
  have hs : s.newlines = 0 := by
    have hcount : (start.skip s).line = 1 + s.newlines := rfl
    omega
  have hnil := (Text.lastLine_eq_nil_iff s).2 ((isLineStart_start_skip s).1 hstart)
  rwa [Text.lastLine_of_newlines_eq_zero hs] at hnil

/-- The position after a text that starts at a place is that of the place after the text. -/
lemma after_position (p : Place) (source : String) (s : Text) :
    (p.position source).after s = (p.skip s).position source := by
  by_cases hs : s.newlines = 0 <;> simp [Position.after, position, skip, hs]

/-- The position of a character in a span is that of the place before the character. -/
lemma within?_position (p : Place) (source : String) (span : Text) {n : Nat}
    (hn : n < span.length) :
    (p.position source).within? span n = some ((p.skip (span.take n)).position source) := by
  have hin : ¬ ((n : Int) < 0 ∨ (span.length : Int) ≤ n) := by omega
  rw [Position.within?, if_neg hin, Int.toNat_natCast, after_position]

end Place

/-- The line and column of a place of a source address the place. -/
theorem Text.offsetAt?_skip (before after : Text) :
    (before ++ after).offsetAt? (Place.start.skip before).line (Place.start.skip before).column =
      some before.length := by
  have hcolumn := Place.start_skip_column before
  have hline : (Place.start.skip before).line = 1 + before.newlines := rfl
  have hin : ¬ ((1 + before.newlines : Int) < 1 ∨ (before.lastLine.length + 1 : Int) < 1) := by
    omega
  have hlines : ((1 + before.newlines : Int) - 1).toNat = before.newlines := by omega
  have hcolumns : ((before.lastLine.length + 1 : Int) - 1).toNat = before.lastLine.length := by
    omega
  rw [hcolumn, hline, Text.offsetAt?, if_neg hin, hlines, hcolumns, Text.locate_append]

end Splice

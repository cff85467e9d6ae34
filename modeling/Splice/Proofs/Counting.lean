import Mathlib.Logic.Function.Iterate
import Splice.Proofs.Address
import Splice.Proofs.Order

/-!
# Counting lines and columns

Lines and columns are counted in three ways. A place goes over one character at a time, or over a
whole text at once, with the column counted from the last line end of the text; a position of a span
is counted from the start of the span; and a line and column are looked up by going from line to
line. This module says that all of them agree.

Going over a text at once is going over its characters one by one, from any line and column
(`Place.skip_eq_foldl_next`), and in a source it does not matter where a stop is made on the way
(`Place.skipTo_skipTo`). The positions of a span go up with the offset, whatever position the span
starts at (`Position.exists_before_of_lt`), and a span can be cut in two: the second part is counted
from the position of its first character (`Position.within?_append`). The lookup finds an offset
exactly at its own line and column (`Text.offsetAt?_eq_some_iff`), so that each offset has one.
-/

namespace Splice

/-! ### Single steps -/

namespace Place

/-- The place after the character that stands at a place of the source, and the same place at the
end of the source. -/
def advance (source : Text) (place : Place) : Place :=
  match source[place.offset]? with
  | some c => place.next c
  | none => place

/-- The place moved on to an offset of the source: the lines go up by the line ends on the way, and
the column is counted from the last of them. A place is not moved back. -/
def skipTo (source : Text) (place : Place) (target : Nat) : Place :=
  if target ≤ place.offset then place
  else { place.skip ((source.take target).drop place.offset) with offset := target }

/-- Going over one character is going over a text with only this character. -/
lemma next_eq_skip (place : Place) (c : Char) : place.next c = place.skip [c] := by
  by_cases hc : c = '\n' <;> simp [next, skip, Text.newlines, Text.lastLine, hc]

/-- Going over a text at once is going over its characters one by one. -/
lemma skip_eq_foldl_next (place : Place) (passed : Text) :
    place.skip passed = passed.foldl next place := by
  induction passed generalizing place with
  | nil => exact skip_nil place
  | cons c passed ih =>
    rw [List.foldl_cons, next_eq_skip, ← ih, ← skip_append, List.singleton_append]

/-- Stepping through the source goes over the characters that stand at the place. -/
lemma iterate_advance {source : Text} {place : Place} {passed : Text}
    (h : passed <+: source.drop place.offset) :
    (advance source)^[passed.length] place = passed.foldl next place := by
  induction passed generalizing place with
  | nil => rfl
  | cons c passed ih =>
    have hc : source[place.offset]? = some c := by
      obtain ⟨after, hafter⟩ := h
      rw [← List.head?_drop, ← hafter, List.cons_append, List.head?_cons]
    have hnext : advance source place = place.next c := by rw [advance, hc]
    have hrest : passed <+: source.drop (place.next c).offset := by
      obtain ⟨after, hafter⟩ := h
      rw [next_eq_skip, skip_offset, ← List.drop_drop, ← hafter]
      exact List.prefix_append passed after
    rw [List.length_cons, Function.iterate_succ_apply, hnext, ih hrest, List.foldl_cons]

/-- Going over the characters that stand at a place at once is stepping through the source. -/
lemma skip_eq_iterate_advance {source : Text} {place : Place} {passed : Text}
    (h : passed <+: source.drop place.offset) :
    place.skip passed = (advance source)^[passed.length] place := by
  rw [skip_eq_foldl_next, iterate_advance h]

/-- A place is moved on by going over the characters before the target. -/
lemma skipTo_eq_skip {source : Text} {place : Place} {target : Nat} (hle : place.offset ≤ target)
    (htarget : target ≤ source.length) :
    place.skipTo source target =
      place.skip ((source.drop place.offset).take (target - place.offset)) := by
  rw [skipTo, List.drop_take]
  split
  · rename_i hback
    have hnone : target - place.offset = 0 := by omega
    rw [hnone, List.take_zero, skip_nil]
  · have hoffset : place.offset + ((source.drop place.offset).take (target - place.offset)).length =
        target := by
      rw [List.length_take, List.length_drop]
      omega
    simp only [skip, hoffset]

/-- A place is moved on by single steps. -/
lemma skipTo_eq_iterate_advance {source : Text} {place : Place} {target : Nat}
    (hle : place.offset ≤ target) (htarget : target ≤ source.length) :
    place.skipTo source target = (advance source)^[target - place.offset] place := by
  have hlength : ((source.drop place.offset).take (target - place.offset)).length =
      target - place.offset := by
    rw [List.length_take, List.length_drop]
    omega
  rw [skipTo_eq_skip hle htarget, skip_eq_iterate_advance (List.take_prefix _ _), hlength]

/-- A place that is moved on stands at the target. -/
lemma skipTo_offset (source : Text) {place : Place} {target : Nat} (hle : place.offset ≤ target) :
    (place.skipTo source target).offset = target := by
  rw [skipTo]
  split
  · omega
  · rfl

/-- A stop on the way does not matter. -/
lemma skipTo_skipTo {source : Text} {place : Place} {middle target : Nat}
    (hle : place.offset ≤ middle) (hmiddle : middle ≤ target) (htarget : target ≤ source.length) :
    (place.skipTo source middle).skipTo source target = place.skipTo source target := by
  have hoffset := skipTo_offset source hle
  have hsplit : target - place.offset = (target - middle) + (middle - place.offset) := by omega
  rw [skipTo_eq_iterate_advance (by rwa [hoffset]) htarget, hoffset,
    skipTo_eq_iterate_advance hle (hmiddle.trans htarget),
    skipTo_eq_iterate_advance (hle.trans hmiddle) htarget, hsplit, Function.iterate_add_apply]

/-- **Going over a text at once is going over it step by step.** From every place of a source,
whatever line and column it says it stands on:

* going over any text that stands there leads to the same offset, line and column as stepping over
  it character by character;
* so does moving on to any later offset of the source;
* and a stop on the way does not matter. -/
theorem skips_are_single_steps (source : Text) (place : Place) :
    (∀ passed, passed <+: source.drop place.offset →
        place.skip passed = (advance source)^[passed.length] place) ∧
      (∀ target, place.offset ≤ target → target ≤ source.length →
        place.skipTo source target = (advance source)^[target - place.offset] place) ∧
      ∀ middle target, place.offset ≤ middle → middle ≤ target → target ≤ source.length →
        (place.skipTo source middle).skipTo source target = place.skipTo source target :=
  ⟨fun _ h => skip_eq_iterate_advance h, fun _ hle htarget => skipTo_eq_iterate_advance hle htarget,
    fun _ _ hle hmiddle htarget => skipTo_skipTo hle hmiddle htarget⟩

/-- From a place that says it stands on another line and column than it does, over a text with line
ends at both ends. -/
theorem skips_are_single_steps_lineEnds :
    ("\nb\n".toList <+: "a\nb\nc".toList.drop 1 ∧
        skip ⟨1, -2, 7⟩ "\nb\n".toList =
          (advance "a\nb\nc".toList)^["\nb\n".toList.length] ⟨1, -2, 7⟩) ∧
      skipTo "a\nb\nc".toList ⟨1, -2, 7⟩ 4 = (advance "a\nb\nc".toList)^[4 - 1] ⟨1, -2, 7⟩ ∧
      skipTo "a\nb\nc".toList (skipTo "a\nb\nc".toList ⟨1, -2, 7⟩ 2) 4 = ⟨4, 0, 1⟩ := by
  obtain ⟨htext, htarget, hstop⟩ := skips_are_single_steps "a\nb\nc".toList ⟨1, -2, 7⟩
  have hpassed : "\nb\n".toList <+: "a\nb\nc".toList.drop 1 := by decide
  refine ⟨⟨hpassed, htext _ hpassed⟩, htarget 4 (by decide) (by decide), ?_⟩
  rw [hstop 2 4 (by decide) (by decide) (by decide)]
  decide

end Place

/-! ### Positions in a span -/

namespace Position

/-- The position after a text is that of the place after it, if counting starts at the position. -/
lemma after_eq_skip (p : Position) (passed : Text) :
    p.after passed = ((Place.mk 0 p.line p.column).skip passed).position p.source :=
  Place.after_position ⟨0, p.line, p.column⟩ p.source passed

/-- The position after two texts in turn. -/
lemma after_append (p : Position) (s t : Text) : p.after (s ++ t) = (p.after s).after t := by
  rw [after_eq_skip, Place.skip_append, ← Place.after_position, ← after_eq_skip]

/-- The position of a character of a span is that after the characters before it. -/
lemma within?_eq_some (p : Position) {span : Text} {o : Int} (hle : 0 ≤ o) (hlt : o < span.length) :
    p.within? span o = some (p.after (span.take o.toNat)) := by
  rw [within?, if_neg (by omega)]

/-- In a span, a greater offset has a later position. -/
lemma exists_before_of_lt (p : Position) {span : Text} {o o' : Int} (hle : 0 ≤ o) (hlt : o < o')
    (hend : o' < span.length) :
    ∃ q q', p.within? span o = some q ∧ p.within? span o' = some q' ∧ q.Before q' := by
  refine ⟨_, _, p.within?_eq_some hle (by omega), p.within?_eq_some (by omega) hend, ?_⟩
  rw [after_eq_skip, after_eq_skip]
  exact Place.before_take _ p.source (by omega) (by omega)

/-- The characters of a span have different positions. -/
lemma within?_inj (p : Position) {span : Text} {o o' : Int} (hle : 0 ≤ o) (hlt : o < span.length)
    (hle' : 0 ≤ o') (hlt' : o' < span.length) (h : p.within? span o = p.within? span o') :
    o = o' := by
  rcases Int.lt_trichotomy o o' with hless | heq | hgreater
  · obtain ⟨q, q', hq, hq', hbefore⟩ := p.exists_before_of_lt hle hless hlt'
    rw [hq, hq'] at h
    cases h
    exact absurd hbefore (Position.not_before_self _)
  · exact heq
  · obtain ⟨q', q, hq', hq, hbefore⟩ := p.exists_before_of_lt hle' hgreater hlt
    rw [hq, hq'] at h
    cases h
    exact absurd hbefore (Position.not_before_self _)

/-- The characters after the first part of a span are counted from the position of the first of
them. -/
lemma within?_append (p : Position) (s t : Text) {k : Int} (hle : 0 ≤ k) (hlt : k < t.length) :
    ∃ q, p.within? (s ++ t) s.length = some q ∧
      p.within? (s ++ t) (s.length + k) = q.within? t k := by
  have hlength : ((s ++ t).length : Int) = s.length + t.length := by
    rw [List.length_append, Int.natCast_add]
  have hcount : ((s.length : Int) + k).toNat = s.length + k.toNat := by omega
  refine ⟨p.after s, ?_, ?_⟩
  · rw [p.within?_eq_some (by omega) (by omega), Int.toNat_natCast, List.take_left]
  · rw [p.within?_eq_some (by omega) (by omega), within?_eq_some _ hle hlt, hcount,
      List.take_length_add_append, after_append]

end Position

/-! ### Lines and columns -/

namespace Text

/-- The lookup of a line and column finds nothing exactly if no offset stands there. -/
lemma offsetAt?_eq_none_iff {s : Text} {line column : Int} :
    s.offsetAt? line column = none ↔ ∀ offset, ¬ s.StandsOn offset line column := by
  rw [Option.eq_none_iff_forall_ne_some]
  exact forall_congr' fun offset => not_congr offsetAt?_eq_some_iff

/-- Every offset of a text, the end included, stands on one line and column only. -/
lemma existsUnique_address (s : Text) {offset : Nat} (h : offset ≤ s.length) :
    ∃! address : Int × Int, s.offsetAt? address.1 address.2 = some offset := by
  refine ⟨(1 + newlines (s.take offset), offset - lastNewline (s.take offset)),
    offsetAt?_eq_some_iff.2 ⟨h, rfl, rfl⟩, ?_⟩
  rintro ⟨line, column⟩ hfound
  obtain ⟨-, hline, hcolumn⟩ := offsetAt?_eq_some_iff.1 hfound
  exact Prod.ext hline hcolumn

/-- **Lines and columns address characters one to one.** For every text:

* looking up a line and column gives an offset exactly if this is an offset of the text, the end
  included, the line is one more than the number of line ends before it, and the column is how far
  it is from the last of them; else it gives nothing;
* so each offset has one line and column.

For every position at which the text may start as a span:

* the positions of its characters go up with the offset, by line and then by column, so that no two
  are the same;
* the characters of its second part are counted from the position of the first of them. -/
theorem addresses_one_to_one (text : Text) (p : Position) :
    (∀ line column o : Int, (text.offsetAt? line column).map Int.ofNat = some o ↔
        0 ≤ o ∧ o ≤ text.length ∧ line = 1 + newlines (text.take o.toNat) ∧
          column = o - lastNewline (text.take o.toNat)) ∧
      (∀ line column : Int, text.offsetAt? line column = none ↔
        ∀ offset, ¬ text.StandsOn offset line column) ∧
      (∀ offset ≤ text.length,
        ∃! address : Int × Int, text.offsetAt? address.1 address.2 = some offset) ∧
      (∀ o o' : Int, 0 ≤ o → o < o' → o' < text.length →
        ∃ q q', p.within? text o = some q ∧ p.within? text o' = some q' ∧ q.Before q') ∧
      (∀ o o' : Int, 0 ≤ o → o < text.length → 0 ≤ o' → o' < text.length →
        p.within? text o = p.within? text o' → o = o') ∧
      ∀ (a b : Text) (k : Int), text = a ++ b → 0 ≤ k → k < b.length →
        ∃ q, p.within? text a.length = some q ∧
          p.within? text (a.length + k) = q.within? b k := by
  refine ⟨?_, fun _ _ => offsetAt?_eq_none_iff, fun _ h => text.existsUnique_address h,
    fun _ _ => p.exists_before_of_lt, fun _ _ => p.within?_inj, ?_⟩
  · intro line column o
    constructor
    · intro hfound
      obtain ⟨offset, hoffset, rfl⟩ := Option.map_eq_some_iff.1 hfound
      obtain ⟨hle, hline, hcolumn⟩ := offsetAt?_eq_some_iff.1 hoffset
      exact ⟨Int.natCast_nonneg offset, Int.ofNat_le.2 hle, hline, hcolumn⟩
    · rintro ⟨hnonneg, hle, hline, hcolumn⟩
      obtain ⟨offset, rfl⟩ := Int.eq_ofNat_of_zero_le hnonneg
      refine Option.map_eq_some_iff.2 ⟨offset, offsetAt?_eq_some_iff.2 ?_, rfl⟩
      exact ⟨Int.ofNat_le.1 hle, hline, hcolumn⟩
  · rintro a b k rfl hle hlt
    exact p.within?_append a b hle hlt

/-- Two positions of a span that starts in the middle of a line and goes on to the next, the second
of which is that of the second part of the span. -/
theorem addresses_one_to_one_two_lines :
    (2 ≤ "ab\nc".toList.length ∧
        ∃! address : Int × Int, offsetAt? "ab\nc".toList address.1 address.2 = some 2) ∧
      (∃ q q', Position.within? ⟨"m", 4, 9⟩ "ab\nc".toList 2 = some q ∧
        Position.within? ⟨"m", 4, 9⟩ "ab\nc".toList 3 = some q' ∧ q.Before q') ∧
      (∃ q, Position.within? ⟨"m", 4, 9⟩ "ab\nc".toList 1 = some q ∧
        Position.within? ⟨"m", 4, 9⟩ "ab\nc".toList 3 = q.within? "b\nc".toList 2) ∧
      Position.within? ⟨"m", 4, 9⟩ "ab\nc".toList 3 = some ⟨"m", 5, 1⟩ ∧
      (Position.within? ⟨"m", 4, 9⟩ "ab\nc".toList 3 ≠
        Position.within? ⟨"m", 4, 9⟩ "ab\nc".toList 2) := by
  obtain ⟨-, -, hunique, horder, hinj, hparts⟩ :=
    addresses_one_to_one "ab\nc".toList ⟨"m", 4, 9⟩
  refine ⟨⟨by decide, hunique 2 (by decide)⟩, horder 2 3 (by decide) (by decide) (by decide),
    hparts "a".toList "b\nc".toList 2 rfl (by decide) (by decide), by decide, ?_⟩
  intro hsame
  have heq := hinj 3 2 (by decide) (by decide) (by decide) (by decide) hsame
  omega

end Text

end Splice

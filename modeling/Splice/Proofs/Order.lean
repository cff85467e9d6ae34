import Splice.Proofs.Item

/-!
# The order of items

Positions of a source are ordered by line and column, and a greater offset has a later position
(`Text.positionAt_before`). The items of a source stand in it one after the other (`Item.Ordered`):
each starts at an offset that no item before it reaches, text and comments cover what they keep, and
a request starts at the trigger of its directive line (`Dialect.ordered_items`).
-/

namespace Splice

/-! ### Positions in order -/

/-- One position comes before another in a source: on an earlier line, or on the same line at a
smaller column. -/
def Position.Before (p q : Position) : Prop :=
  p.line < q.line ∨ p.line = q.line ∧ p.column < q.column

/-- No position comes before itself. -/
lemma Position.not_before_self (p : Position) : ¬ p.Before p := by
  rintro (hline | ⟨-, hcolumn⟩)
  · exact Int.lt_irrefl _ hline
  · exact Int.lt_irrefl _ hcolumn

/-- Going over a text leads to a later position. -/
lemma Place.before_skip (place : Place) (source : String) {passed : Text} (h : passed ≠ []) :
    (place.position source).Before ((place.skip passed).position source) := by
  have hpos := List.length_pos_iff.2 h
  by_cases hlines : passed.newlines = 0
  · refine Or.inr ⟨?_, ?_⟩
    · simp [position, skip, hlines]
    · simp only [position, skip, if_pos hlines]
      omega
  · refine Or.inl ?_
    simp only [position, skip]
    omega

/-- Going over more of a text leads to a later position. -/
lemma Place.before_take (place : Place) (source : String) {s : Text} {k l : Nat} (hkl : k < l)
    (hl : l ≤ s.length) :
    ((place.skip (s.take k)).position source).Before ((place.skip (s.take l)).position source) := by
  obtain ⟨d, rfl⟩ := Nat.exists_eq_add_of_lt hkl
  have hpassed : (s.drop k).take (d + 1) ≠ [] := by
    rw [← List.length_pos_iff, List.length_take, List.length_drop]
    omega
  rw [Nat.add_assoc, List.take_add, Place.skip_append]
  exact Place.before_skip _ source hpassed

namespace Text

/-- The position of an offset of the named source. -/
def positionAt (source : Text) (name : String) (offset : Nat) : Position :=
  (Place.start.skip (source.take offset)).position name

@[simp] lemma positionAt_source (source : Text) (name : String) (offset : Nat) :
    (source.positionAt name offset).source = name := rfl

/-- The position after the first part of a source. -/
lemma positionAt_length (before after : Text) (name : String) :
    positionAt (before ++ after) name before.length = (Place.start.skip before).position name := by
  rw [positionAt, List.take_left]

/-- A greater offset has a later position. -/
lemma positionAt_before (source : Text) (name : String) {k l : Nat} (hkl : k < l)
    (hl : l ≤ source.length) :
    (source.positionAt name k).Before (source.positionAt name l) :=
  Place.start.before_take name hkl hl

/-- The characters of a piece of a source stand at the offsets from that of the piece on. -/
lemma within?_positionAt {source content : Text} {offset n : Nat} (name : String)
    (hpiece : content <+: source.drop offset) (hn : n < content.length) :
    (source.positionAt name offset).within? content n =
      some (source.positionAt name (offset + n)) := by
  have htake : (source.drop offset).take n = content.take n := by
    obtain ⟨after, hafter⟩ := hpiece
    rw [← hafter, List.take_append_of_le_length hn.le]
  rw [positionAt, Place.within?_position _ name content hn, positionAt, List.take_add, htake,
    Place.skip_append]

end Text

/-! ### Items in order -/

/-- A directive line of the named source makes a request, and its trigger stands at the offset. -/
def Dialect.AsksAt (dialect : Dialect) (name : String) (source : Text) (offset : Nat)
    (request : Request) : Prop :=
  dialect.trigger <+: source.drop offset ∧ ∃ place content tokens,
    .directive place content tokens ∈ (dialect.scan source).segments ∧
      tokens.head? = some ⟨.trigger dialect.trigger, Place.start.skip (source.take offset)⟩ ∧
      Request.ofLine? name tokens = some request

/-- The items of the named source stand in it one after the other, from an offset on. -/
inductive Item.Ordered (dialect : Dialect) (name : String) (source : Text) :
    Nat → List Item → Prop where
  /-- No items. -/
  | nil (start : Nat) : Ordered dialect name source start []
  /-- Text that is kept is the text of the source from its offset on. -/
  | text {start offset : Nat} {content : Text} {items : List Item} (hstart : start ≤ offset)
    (hcontent : content ≠ []) (hpiece : content <+: source.drop offset)
    (htail : Ordered dialect name source (offset + content.length) items) :
    Ordered dialect name source start (.text (source.positionAt name offset) content :: items)
  /-- So is a comment that is kept. -/
  | comment {start offset : Nat} {content : Text} {items : List Item} (hstart : start ≤ offset)
    (hcontent : content ≠ []) (hpiece : content <+: source.drop offset)
    (htail : Ordered dialect name source (offset + content.length) items) :
    Ordered dialect name source start (.comment (source.positionAt name offset) content :: items)
  /-- A request stands at the trigger of its directive line. -/
  | request {start offset : Nat} {request : Request} {items : List Item} (hstart : start ≤ offset)
    (hoffset : offset < source.length) (hasks : dialect.AsksAt name source offset request)
    (hlocation : request.location = source.positionAt name offset)
    (htail : Ordered dialect name source (offset + 1) items) :
    Ordered dialect name source start (.request request :: items)
  /-- Nothing comes after a failure. -/
  | failure (start : Nat) (diagnostic : Diagnostic) :
    Ordered dialect name source start [.failure diagnostic]

/-- Items that stand in order from an offset on do so from any smaller one on. -/
lemma Item.Ordered.of_le {dialect : Dialect} {name : String} {source : Text} {start later : Nat}
    {items : List Item} (h : Ordered dialect name source later items) (hle : start ≤ later) :
    Ordered dialect name source start items := by
  cases h with
  | nil => exact .nil start
  | text hstart hcontent hpiece htail => exact .text (hle.trans hstart) hcontent hpiece htail
  | comment hstart hcontent hpiece htail => exact .comment (hle.trans hstart) hcontent hpiece htail
  | request hstart hoffset hasks hlocation htail =>
    exact .request (hle.trans hstart) hoffset hasks hlocation htail
  | failure _ diagnostic => exact .failure start diagnostic

/-- A request is located at the trigger of its line. -/
lemma Request.location_of_ofLine? {name : String} {tokens : List Token} {request : Request}
    {mark : Text} {place : Place} (h : Request.ofLine? name tokens = some request)
    (hhead : tokens.head? = some ⟨.trigger mark, place⟩) :
    request.location = place.position name := by
  unfold Request.ofLine? at h
  split at h
  · cases hhead
    split at h <;> cases h <;> rfl
  · cases h

namespace Dialect

variable {dialect : Dialect} {source : Text}

/-- The trigger of a directive line of a source stands in the line before its line end, and the
tokens of the line start with it. -/
lemma exists_trigger_of_segments_eq {earlier later : List Segment} {place : Place} {content : Text}
    {tokens : List Token}
    (h : (dialect.scan source).segments = earlier ++ .directive place content tokens :: later) :
    ∃ offset, (earlier.flatMap Segment.content).length ≤ offset ∧
      offset < (earlier.flatMap Segment.content).length + content.length ∧
      offset < source.length ∧ dialect.trigger <+: source.drop offset ∧
      tokens.head? = some ⟨.trigger dialect.trigger, Place.start.skip (source.take offset)⟩ := by
  obtain ⟨rest, hsource, hstep⟩ := exists_step_of_segments_eq h
  obtain ⟨-, blanks, body, mark, arguments, -, -, hmark, rfl, rfl, -⟩ := step_directive hstep
  have hlast : 0 < mark.length := by rcases hmark with rfl | rfl <;> simp
  generalize earlier.flatMap Segment.content = before at *
  have hsplit : source = (before ++ blanks) ++ (dialect.trigger ++ (body ++ mark ++ rest)) := by
    rw [← hsource]
    simp [Segment.content]
  have htake : source.take (before ++ blanks).length = before ++ blanks := by
    rw [hsplit, List.take_left]
  refine ⟨(before ++ blanks).length, ?_, ?_, ?_, ?_, ?_⟩
  · simp
  · simp
    omega
  · rw [hsplit]
    simp
    omega
  · rw [hsplit, List.drop_left]
    exact List.prefix_append _ _
  · have hhere : Place.start.skip (before ++ blanks) = (Place.start.skip before).skip blanks :=
      Place.skip_append _ _ _
    rw [htake, hhere]
    rfl

/-- A directive line of a source that makes a request makes it at its trigger, which stands in the
line before its line end. -/
lemma asksAt_of_step {earlier later : List Segment} {place : Place} {content : Text}
    {tokens : List Token} {name : String} {request : Request}
    (h : (dialect.scan source).segments = earlier ++ .directive place content tokens :: later)
    (hrequest : Request.ofLine? name tokens = some request) :
    ∃ offset, (earlier.flatMap Segment.content).length ≤ offset ∧
      offset < (earlier.flatMap Segment.content).length + content.length ∧
      offset < source.length ∧ dialect.AsksAt name source offset request ∧
      request.location = source.positionAt name offset := by
  have hmem : .directive place content tokens ∈ (dialect.scan source).segments := by
    rw [h]
    exact List.mem_append_right _ List.mem_cons_self
  obtain ⟨offset, hlow, hhigh, hoffset, htrigger, hhead⟩ := exists_trigger_of_segments_eq h
  refine ⟨offset, hlow, hhigh, hoffset, ⟨htrigger, place, content, tokens, hmem, hhead, hrequest⟩,
    ?_⟩
  exact Request.location_of_ofLine? hrequest hhead

/-- The items of the segments that are left of a scan stand in order from the end of the other
segments on. The induction is on the segments that are left. -/
lemma ordered_ofSegments (dialect : Dialect) (name : String) (source : Text)
    {earlier later : List Segment} (h : (dialect.scan source).segments = earlier ++ later) :
    Item.Ordered dialect name source (earlier.flatMap Segment.content).length
      (Item.ofSegments name (Item.ofTokens name (dialect.scan source).ending.tokens) later) := by
  induction later generalizing earlier with
  | nil =>
    rw [Item.ofSegments]
    rcases dialect.ofTokens_ending name .start source with ⟨-, hnil⟩ | ⟨diagnostic, hfailure⟩
    · rw [scan, hnil]
      exact .nil _
    · rw [scan, hfailure]
      exact .failure _ diagnostic
  | cons segment later ih =>
    have hnext : (dialect.scan source).segments = (earlier ++ [segment]) ++ later := by
      rw [h, List.append_assoc, List.singleton_append]
    have htail := ih hnext
    rw [List.flatMap_append, List.flatMap_singleton, List.length_append] at htail
    obtain ⟨rest, hsource, hstep⟩ := exists_step_of_segments_eq h
    have hstart := start_of_step hstep
    have hcontent := (step_eq_segment hstep).2
    have hposition := Text.positionAt_length (earlier.flatMap Segment.content)
      (segment.content ++ rest) name
    have hpiece : segment.content <+: source.drop (earlier.flatMap Segment.content).length := by
      rw [← hsource, List.drop_left]
      exact List.prefix_append _ _
    rw [hsource] at hposition
    cases segment with
    | text place content =>
      obtain rfl : place = _ := hstart
      rw [Item.ofSegments, ← hposition]
      exact .text le_rfl hcontent hpiece htail
    | comment place style content =>
      obtain rfl : place = _ := hstart
      rw [Item.ofSegments]
      split
      · exact htail.of_le (Nat.le_add_right _ _)
      · rw [← hposition]
        exact .comment le_rfl hcontent hpiece htail
    | directive place content tokens =>
      rw [Item.ofSegments]
      split
      · rename_i request hrequest
        obtain ⟨offset, hlow, hhigh, hoffset, hasks, hlocation⟩ := asksAt_of_step h hrequest
        exact .request hlow hoffset hasks hlocation (htail.of_le hhigh)
      · rename_i hnone
        obtain ⟨diagnostic, hfailure⟩ :=
          Item.ofTokens_of_no_request (isWhole_of_step hstep) hnone
        rw [hfailure]
        exact .failure _ diagnostic
    | shebang place content => exact htail.of_le (Nat.le_add_right _ _)

/-- The items of a source stand in it one after the other. -/
lemma ordered_items (dialect : Dialect) (name : String) (source : Text) :
    Item.Ordered dialect name source 0 (dialect.items name source) := by
  rw [items_eq_ofSegments]
  exact dialect.ordered_ofSegments name source (List.nil_append _).symm

end Dialect

/-- A piece of a source that is not empty ends inside the source. -/
lemma Text.length_le_of_piece {source content : Text} {offset : Nat} (hcontent : content ≠ [])
    (hpiece : content <+: source.drop offset) : offset + content.length ≤ source.length := by
  have hlength := hpiece.length_le
  have hpos := List.length_pos_iff.2 hcontent
  rw [List.length_drop] at hlength
  omega

end Splice

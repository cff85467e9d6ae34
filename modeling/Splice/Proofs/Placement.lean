import Splice.Proofs.Order

/-!
# Where tokens and failures stand

Every token of a source stands at an offset of the source, the end of the source included: its place
is reached by going over a first part of the source (`Place.Reaches`). One step of reading a
directive line stops after the blanks, whatever it finds there, and one step of a scan stops where
its segment starts or inside it; both loops only put text in front. So the failure of a file, which
is located at a token, has the position of an offset (`Dialect.exists_offset_of_failure`), and an
error that the file asks for has that of the trigger of its line
(`Dialect.exists_trigger_of_requested`).
-/

namespace Splice

/-! ### Places that are reached -/

/-- A place of a text that starts at the first place: it is reached by going over a first part of
the text. -/
def Place.Reaches (place : Place) (source : Text) (other : Place) : Prop :=
  ∃ passed, passed <+: source ∧ other = place.skip passed

namespace Place.Reaches

variable {place other : Place} {source : Text}

/-- The first place. -/
lemma self (place : Place) (source : Text) : place.Reaches source place :=
  ⟨[], List.nil_prefix, (place.skip_nil).symm⟩

/-- A place of the rest of a text is one of the text. -/
lemma append {rest : Text} (passed : Text) (h : (place.skip passed).Reaches rest other) :
    place.Reaches (passed ++ rest) other := by
  obtain ⟨more, hmore, rfl⟩ := h
  refine ⟨passed ++ more, (List.prefix_append_right_inj passed).2 hmore, ?_⟩
  rw [skip_append]

/-- The place after the blanks that a text starts with. -/
lemma indent (place : Place) (source : Text) : place.Reaches source (place.skip source.indent) :=
  ⟨source.indent, List.takeWhile_prefix _, rfl⟩

/-- A place of a whole source is that of an offset. -/
lemma exists_offset (h : Place.start.Reaches source place) :
    ∃ offset ≤ source.length, place = Place.start.skip (source.take offset) := by
  obtain ⟨passed, hpassed, rfl⟩ := h
  refine ⟨passed.length, hpassed.length_le, ?_⟩
  rw [← List.prefix_iff_eq_take.1 hpassed]

end Place.Reaches

/-! ### Directive lines -/

namespace Line

/-- The place at which one step of reading a directive line finds something. -/
def Step.place : Step → Place
  | token found _ _ => found.place
  | close found _ _ => found.place
  | fault _ here => here

/-- Whatever one step finds stands after the blanks. -/
lemma place_step (place : Place) (source : Text) :
    (step place source).place = place.skip source.indent := by
  unfold step
  split
  · rfl
  · rfl
  · rfl
  · rfl
  · split <;> rfl
  · split <;> rfl

/-- The places at which a reading of a directive line found something. -/
def Reading.places : Reading → List Place
  | complete tokens _ _ => tokens.map Token.place
  | broken tokens _ place => tokens.map Token.place ++ [place]

/-- A token in front adds its place. -/
lemma Reading.places_cons (token : Token) (cover : Text) (reading : Reading) :
    (reading.cons token cover).places = token.place :: reading.places := by
  cases reading <;> rfl

/-- Whatever is found in a directive line stands in its text. The induction is on the steps, each of
which puts text in front of the places found later. -/
lemma reaches_of_mem_places {place : Place} {source : Text} {other : Place}
    (h : other ∈ (read place source).places) : place.Reaches source other := by
  have hplace := place_step place source
  fun_induction read place source with
  | case1 place source token cover rest hstep ih =>
    rw [hstep] at hplace
    rw [Reading.places_cons] at h
    rcases List.mem_cons.1 h with rfl | hlater
    · have hhere : token.place = place.skip source.indent := hplace
      rw [hhere]
      exact .indent place source
    · rw [← (step_eq_token hstep).1]
      exact (ih hlater (place_step _ _)).append cover
  | case2 place source token cover rest hstep =>
    rw [hstep] at hplace
    obtain rfl : other = token.place := List.mem_singleton.1 h
    have hhere : token.place = place.skip source.indent := hplace
    rw [hhere]
    exact .indent place source
  | case3 place source fault here hstep =>
    rw [hstep] at hplace
    obtain rfl : other = here := List.mem_singleton.1 h
    have hhere : other = place.skip source.indent := hplace
    rw [hhere]
    exact .indent place source

end Line

/-! ### Scans -/

namespace Dialect

variable {dialect : Dialect} {place : Place} {source : Text} {token : Token}

/-- The tokens of a step of a scan. -/
def Step.tokens : Step → List Token
  | segment cut _ => cut.tokens
  | ending stop => stop.tokens

/-- The trigger of a directive line, and what is found after it, stand in the text of the line. -/
lemma reaches_of_line {after : Text} (hafter : source.unindent = dialect.trigger ++ after)
    {other : Place}
    (h : other = place.skip source.indent ∨
      other ∈ (Line.read ((place.skip source.indent).skip dialect.trigger) after).places) :
    place.Reaches source other := by
  have hsource : source = source.indent ++ (dialect.trigger ++ after) := by
    rw [← hafter, Text.indent_append_unindent]
  rcases h with rfl | hmem
  · exact .indent place source
  · rw [hsource]
    exact ((Line.reaches_of_mem_places hmem).append dialect.trigger).append source.indent

/-- The tokens of one step stand in the text that is left. -/
lemma reaches_of_mem_step (h : token ∈ (dialect.step place source).tokens) :
    place.Reaches source token.place := by
  have hcuts := dialect.cuts_step place source
  generalize dialect.step place source = step at h hcuts
  cases hcuts with
  | text hevent hsource =>
    rw [List.mem_singleton.1 h]
    exact .self place source
  | comment style hevent =>
    rw [Step.tokens, Segment.tokens] at h
    split at h
    · cases h
    · rw [List.mem_singleton.1 h]
      exact .self place source
  | directive after tokens content rest hstart hafter hread =>
    refine reaches_of_line hafter ?_
    rw [hread]
    rcases List.mem_cons.1 h with rfl | hmem
    · exact Or.inl rfl
    · exact Or.inr (List.mem_map_of_mem hmem)
  | shebang after hstart hfirst hafter => cases h
  | complete hsource =>
    rw [List.mem_singleton.1 h]
    exact .self place source
  | misplaced after hstart hafter =>
    rw [List.mem_singleton.1 h]
    exact .indent place source
  | broken after tokens fault there hstart hafter hread =>
    refine reaches_of_line hafter ?_
    rw [hread]
    rw [Step.tokens, Ending.tokens, List.cons_append] at h
    rcases List.mem_cons.1 h with rfl | hmem
    · exact Or.inl rfl
    · refine Or.inr ?_
      rcases List.mem_append.1 hmem with hbefore | hthere
      · exact List.mem_append_left _ (List.mem_map_of_mem hbefore)
      · rw [List.mem_singleton.1 hthere]
        exact List.mem_append_right _ List.mem_cons_self

/-- The tokens of a scan stand in its text. The induction is on the steps of the scan. -/
lemma reaches_of_mem_scanFrom (h : token ∈ (dialect.scanFrom place source).tokens) :
    place.Reaches source token.place := by
  fun_induction scanFrom dialect place source with
  | case1 place source segment rest hstep ih =>
    rw [Scan.tokens_cons] at h
    rcases List.mem_append.1 h with hhere | hlater
    · apply reaches_of_mem_step
      rw [hstep]
      exact hhere
    · rw [← (step_eq_segment hstep).1]
      exact (ih hlater).append segment.content
  | case2 place source ending hstep =>
    apply reaches_of_mem_step
    rw [hstep]
    exact h

/-- Every token of a source stands at an offset of it. -/
lemma exists_offset_of_mem_tokens (h : token ∈ dialect.tokens source) :
    ∃ offset ≤ source.length, token.place = Place.start.skip (source.take offset) :=
  (reaches_of_mem_scanFrom h).exists_offset

end Dialect

/-! ### Failures -/

namespace Item

/-- The failure at the end of the items of a file is located at one of its tokens. -/
lemma locatedAt_of_failure_mem {source : String} {tokens : List Token} {diagnostic : Diagnostic}
    (h : .failure diagnostic ∈ ofTokens source tokens) : LocatedAt source tokens diagnostic := by
  cases comesFrom_of_mem h with
  | requested message hmem => exact Or.inr ⟨_, hmem, rfl⟩
  | fault hkind hlocated => exact hlocated

/-- An error that a directive line asks for is located at the trigger of the line. -/
lemma location_of_requested {source : String} {tokens : List Token} {mark : Text} {place : Place}
    {diagnostic : Diagnostic} (h : ofTokens source tokens = [.failure diagnostic])
    (hhead : tokens.head? = some ⟨.trigger mark, place⟩) (hkind : diagnostic.kind = .requested) :
    diagnostic.location = some (place.position source) := by
  fun_cases ofTokens source tokens with
  | case4 _ _ _ _ _ _ _ _ _ _ hcommand =>
    simp only [ofTokens, hcommand] at h
    cases h
  | case5 _ _ _ _ _ _ _ _ _ _ hcommand =>
    simp only [ofTokens, hcommand] at h
    cases h
  | case6 _ _ _ _ _ _ _ _ _ _ hcommand =>
    simp only [ofTokens, hcommand] at h
    cases h
    cases hhead
    rfl
  | case7 _ _ _ _ _ _ _ _ _ hcommand =>
    simp only [ofTokens, hcommand] at h
    cases h
    cases hkind
  | case8 _ _ rest hshape =>
    rw [ofTokens] at h
    · cases h
      rcases kind_fault source rest with hother | hother
      all_goals
        rw [hkind] at hother
        cases hother
    · exact hshape
  | case11 _ _ _ _ _ htrigger =>
    have hhere := Option.some.inj hhead
    exact absurd hhere (htrigger mark place)
  | _ => cases hhead

end Item

namespace Dialect

variable {dialect : Dialect} {name : String} {source : Text} {diagnostic : Diagnostic}

/-- A directive line of the named source asks for an item, and its trigger stands at the offset. -/
def TriggersAt (dialect : Dialect) (name : String) (source : Text) (offset : Nat) (item : Item) :
    Prop :=
  dialect.trigger <+: source.drop offset ∧ ∃ place content tokens,
    .directive place content tokens ∈ (dialect.scan source).segments ∧
      tokens.head? = some ⟨.trigger dialect.trigger, Place.start.skip (source.take offset)⟩ ∧
      (Item.ofTokens name tokens).head? = some item

/-- A request that comes next among the items of a source is made by a directive line, and is
located at its trigger. -/
lemma exists_trigger_of_request {request : Request} {items : List Item}
    (h : .request request :: items <:+ dialect.items name source) :
    ∃ offset ≤ source.length, dialect.TriggersAt name source offset (.request request) ∧
      request.location = source.positionAt name offset := by
  obtain ⟨before, place, content, tokens, after, hsegments, hrequest, -⟩ :=
    exists_line_of_suffix_items h
  obtain ⟨offset, -, -, hoffset, hasks, hlocation⟩ := asksAt_of_step hsegments hrequest
  obtain ⟨htrigger, place, content, tokens, hmem, hhead, hrequest⟩ := hasks
  refine ⟨offset, hoffset.le, ⟨htrigger, place, content, tokens, hmem, hhead, ?_⟩, hlocation⟩
  have hitems := Item.ofTokens_append_of_request hrequest []
  rw [List.append_nil] at hitems
  rw [hitems]
  rfl

/-- The failure of a file has the position of an offset of the file. -/
lemma exists_offset_of_failure (h : .failure diagnostic ∈ dialect.items name source) :
    ∃ offset ≤ source.length, diagnostic.location = some (source.positionAt name offset) := by
  rcases Item.locatedAt_of_failure_mem h with hstart | ⟨token, hmem, hlocation⟩
  · refine ⟨0, Nat.zero_le _, ?_⟩
    rw [hstart]
    rfl
  · obtain ⟨offset, hoffset, hplace⟩ := exists_offset_of_mem_tokens hmem
    refine ⟨offset, hoffset, ?_⟩
    rw [hlocation, hplace]
    rfl

/-- A failure among the items of segments is that of a directive line, or else comes after the
segments. The induction is on the segments. -/
lemma exists_line_of_failure {rest : List Item} {segments : List Segment}
    (h : .failure diagnostic ∈ Item.ofSegments name rest segments) :
    .failure diagnostic ∈ rest ∨ ∃ before place content tokens after,
      segments = before ++ .directive place content tokens :: after ∧
        Request.ofLine? name tokens = none ∧ .failure diagnostic ∈ Item.ofTokens name tokens := by
  induction segments with
  | nil => exact Or.inl h
  | cons segment segments ih =>
    have hlater (htail : .failure diagnostic ∈ Item.ofSegments name rest segments) :
        .failure diagnostic ∈ rest ∨ ∃ before place content tokens after,
          segment :: segments = before ++ .directive place content tokens :: after ∧
            Request.ofLine? name tokens = none ∧
            .failure diagnostic ∈ Item.ofTokens name tokens := by
      rcases ih htail with hrest | ⟨before, place, content, tokens, after, rfl, hline⟩
      · exact Or.inl hrest
      · exact Or.inr ⟨segment :: before, place, content, tokens, after, rfl, hline⟩
    cases segment with
    | text place content =>
      rcases List.mem_cons.1 h with hnone | htail
      · cases hnone
      · exact hlater htail
    | comment place style content =>
      rw [Item.ofSegments] at h
      split at h
      · exact hlater h
      · rcases List.mem_cons.1 h with hnone | htail
        · cases hnone
        · exact hlater htail
    | directive place content tokens =>
      rw [Item.ofSegments] at h
      split at h
      · rcases List.mem_cons.1 h with hnone | htail
        · cases hnone
        · exact hlater htail
      · rename_i hnone
        exact Or.inr ⟨[], place, content, tokens, segments, rfl, hnone, h⟩
    | shebang place content => exact hlater h

/-- No error is asked for at the end of a scan, where a directive line cannot be read on. -/
lemma kind_of_failure_ending {place : Place}
    (h : .failure diagnostic ∈
      Item.ofTokens name (dialect.scanFrom place source).ending.tokens) :
    diagnostic.kind ≠ .requested := by
  obtain ⟨rest, -, hstep⟩ := dialect.exists_step_ending place source
  generalize (dialect.scanFrom place source).ending = ending at h hstep
  cases ending with
  | complete p => cases h
  | broken tokens fault there =>
    rcases step_broken hstep with rfl | ⟨arguments, harguments, rfl⟩
    · cases List.mem_singleton.1 h
      exact fun hkind => by cases hkind
    · rw [Ending.tokens, Item.ofTokens_of_broken harguments] at h
      cases List.mem_singleton.1 h
      rcases Item.kind_fault name (arguments ++ [⟨.invalid fault, there⟩]) with hkind | hkind
      all_goals
        rw [hkind]
        exact fun hrequested => by cases hrequested

/-- An error that a file asks for is located at the trigger of the directive line that asks. -/
lemma exists_trigger_of_requested (h : .failure diagnostic ∈ dialect.items name source)
    (hkind : diagnostic.kind = .requested) :
    ∃ offset ≤ source.length, dialect.TriggersAt name source offset (.failure diagnostic) ∧
      diagnostic.location = some (source.positionAt name offset) := by
  rw [items_eq_ofSegments] at h
  rcases exists_line_of_failure h with hending |
    ⟨before, place, content, tokens, after, hsegments, hnone, hmem⟩
  · exact absurd hkind (kind_of_failure_ending hending)
  · have hline : .directive place content tokens ∈ (dialect.scan source).segments := by
      rw [hsegments]
      exact List.mem_append_right _ List.mem_cons_self
    obtain ⟨offset, -, -, hoffset, htrigger, hhead⟩ := exists_trigger_of_segments_eq hsegments
    obtain ⟨other, hitems⟩ := Item.ofTokens_of_no_request (isWhole_of_mem_segments hline) hnone
    rw [hitems] at hmem
    cases List.mem_singleton.1 hmem
    refine ⟨offset, hoffset.le, ⟨htrigger, place, content, tokens, hline, hhead, ?_⟩, ?_⟩
    · rw [hitems]
      rfl
    · exact Item.location_of_requested hitems hhead hkind

end Dialect

end Splice

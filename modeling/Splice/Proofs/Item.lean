import Splice.Item
import Splice.Proofs.Segment

/-!
# The items of the segments

The items of a source are read off its tokens. Since a scan puts out the tokens of one segment after
the other, the items can as well be read off the segments (`Dialect.items_eq_ofSegments`): plain
text and kept comments are items, shebang lines and stripped comments are none, and a directive line
is a request or, if its tokens make none, the failure at which the items end. Each item comes from
one of the tokens (`Item.comesFrom_of_mem`).
-/

namespace Splice

/-- The request that the tokens of a whole directive line make, if they make one: a command for
files, and one string. -/
def Request.ofLine? (source : String) : List Token → Option Request
  | [⟨.trigger _, place⟩, ⟨.word name, _⟩, ⟨.quoted argument, _⟩, ⟨.lineEnd _, _⟩] =>
    match Command.ofName? name with
    | some .splice => some ⟨String.ofList argument, place.position source, false⟩
    | some .spliceOnce => some ⟨String.ofList argument, place.position source, true⟩
    | _ => none
  | _ => none

/-- The tokens of a whole directive line: a trigger, words and strings, and a line end. -/
def Line.IsWhole (tokens : List Token) : Prop :=
  ∃ trigger arguments lineEnd, tokens = trigger :: arguments ++ [lineEnd] ∧
    (∃ mark, trigger.lexeme = .trigger mark) ∧ (∃ mark, lineEnd.lexeme = .lineEnd mark) ∧
    ∀ token ∈ arguments, token.isArgument = true

namespace Item

/-- The words and strings are the only tokens between the trigger and the line end. -/
lemma lexeme_of_isArgument {token : Token} (h : token.isArgument = true) :
    (∃ name, token.lexeme = .word name) ∨ ∃ content, token.lexeme = .quoted content := by
  obtain ⟨lexeme, place⟩ := token
  cases lexeme with
  | word name => exact Or.inl ⟨name, rfl⟩
  | quoted content => exact Or.inr ⟨content, rfl⟩
  | _ => simp [Token.isArgument] at h

/-- A directive line that makes a request is one item, and the other tokens are read after it. -/
lemma ofTokens_append_of_request {source : String} {tokens : List Token} {request : Request}
    (h : Request.ofLine? source tokens = some request) (rest : List Token) :
    ofTokens source (tokens ++ rest) = .request request :: ofTokens source rest := by
  unfold Request.ofLine? at h
  split at h
  · split at h
    · rename_i hcommand
      cases h
      simp [ofTokens, hcommand]
    · rename_i hcommand
      cases h
      simp [ofTokens, hcommand]
    · simp at h
  · simp at h

/-- A word after the trigger that is no command is a failure, whatever comes after it. -/
lemma ofTokens_of_unknown {source : String} {name : Text} (h : Command.ofName? name = none)
    (mark : Text) (start p : Place) (rest : List Token) :
    ofTokens source (⟨.trigger mark, start⟩ :: ⟨.word name, p⟩ :: rest) =
      [.failure (.ofDirectiveFault (.unknownCommand name) (p.position source))] := by
  rcases rest with _ | ⟨⟨second, q⟩, rest⟩
  · simp [ofTokens, fault, h]
  · cases second with
    | quoted content =>
      -- only a string that is followed by the line end makes a directive
      rcases rest with _ | ⟨⟨third, r⟩, rest⟩
      · simp [ofTokens, fault, h]
      · cases third <;> simp [ofTokens, fault, h]
    | _ => simp [ofTokens, fault, h]

/-- A whole directive line that makes no request is a failure, whatever comes after it. The cases
follow the words and strings of the line: the failure is decided by the first two of them and by
what comes next, which is still on the line. -/
lemma ofTokens_append_of_no_request {source : String} {tokens : List Token}
    (hwhole : Line.IsWhole tokens) (h : Request.ofLine? source tokens = none) :
    ∃ diagnostic, ∀ rest, ofTokens source (tokens ++ rest) = [.failure diagnostic] := by
  obtain ⟨⟨_, start⟩, arguments, ⟨_, stop⟩, rfl, ⟨mark, rfl⟩, ⟨tail, rfl⟩, harguments⟩ := hwhole
  rcases arguments with _ | ⟨⟨first, p⟩, arguments⟩
  · exact ⟨.ofDirectiveFault .missingCommand (stop.position source),
      fun rest => by simp [ofTokens, fault]⟩
  rcases lexeme_of_isArgument (harguments _ List.mem_cons_self) with ⟨name, rfl⟩ | ⟨content, rfl⟩
  swap
  · exact ⟨.ofDirectiveFault .missingCommand (p.position source),
      fun rest => by simp [ofTokens, fault]⟩
  cases hcommand : Command.ofName? name with
  | none =>
    exact ⟨.ofDirectiveFault (.unknownCommand name) (p.position source),
      fun rest => ofTokens_of_unknown hcommand mark start p _⟩
  | some command =>
    rcases arguments with _ | ⟨⟨second, q⟩, arguments⟩
    · exact ⟨.ofDirectiveFault (.missingArgument name) (stop.position source),
        fun rest => by simp [ofTokens, fault, hcommand]⟩
    have hsecond := lexeme_of_isArgument
      (harguments ⟨second, q⟩ (List.mem_cons_of_mem _ List.mem_cons_self))
    rcases arguments with _ | ⟨⟨third, r⟩, arguments⟩
    · rcases hsecond with ⟨other, rfl⟩ | ⟨content, rfl⟩
      · exact ⟨.ofDirectiveFault (.notOneString name) (q.position source),
          fun rest => by simp [ofTokens, fault, hcommand]⟩
      · cases command with
        | splice => simp [Request.ofLine?, hcommand] at h
        | spliceOnce => simp [Request.ofLine?, hcommand] at h
        | stop =>
          exact ⟨.requested content (start.position source),
            fun rest => by simp [ofTokens, hcommand]⟩
    · have hthird := lexeme_of_isArgument (harguments ⟨third, r⟩
        (List.mem_cons_of_mem _ (List.mem_cons_of_mem _ List.mem_cons_self)))
      refine ⟨.ofDirectiveFault (.notOneString name) (q.position source), fun rest => ?_⟩
      rcases hsecond with ⟨other, rfl⟩ | ⟨content, rfl⟩ <;>
        rcases hthird with ⟨other', rfl⟩ | ⟨content', rfl⟩ <;>
        simp [ofTokens, fault, hcommand]

/-- A whole directive line that makes no request is a failure by itself. -/
lemma ofTokens_of_no_request {source : String} {tokens : List Token}
    (hwhole : Line.IsWhole tokens) (h : Request.ofLine? source tokens = none) :
    ∃ diagnostic, ofTokens source tokens = [.failure diagnostic] := by
  obtain ⟨diagnostic, hfailure⟩ := ofTokens_append_of_no_request hwhole h
  have halone := hfailure []
  rw [List.append_nil] at halone
  exact ⟨diagnostic, halone⟩

/-- A directive line that cannot be read to its end is a failure: no line end comes after its words
and strings. -/
lemma ofTokens_of_broken {source : String} {mark : Text} {start there : Place}
    {arguments : List Token} (harguments : ∀ token ∈ arguments, token.isArgument = true)
    (problem : LexicalFault) :
    ofTokens source (⟨.trigger mark, start⟩ :: arguments ++ [⟨.invalid problem, there⟩]) =
      [.failure (fault source (arguments ++ [⟨.invalid problem, there⟩]))] := by
  rw [List.cons_append, ofTokens]
  intro name p content q tail r rest hrest
  have hmem : (⟨.lineEnd tail, r⟩ : Token) ∈ arguments ++ [⟨.invalid problem, there⟩] := by
    rw [hrest]
    simp
  rcases List.mem_append.1 hmem with hmem | hmem
  · simpa [Token.isArgument] using harguments _ hmem
  · simp at hmem

/-- The items of segments in a row; `rest` are those of what comes after them. Nothing is read after
a directive line that makes no request. -/
def ofSegments (source : String) (rest : List Item) : List Segment → List Item
  | [] => rest
  | .text place content :: segments =>
    .text (place.position source) content :: ofSegments source rest segments
  | .comment place style content :: segments =>
    if style.strip then ofSegments source rest segments
    else .comment (place.position source) content :: ofSegments source rest segments
  | .directive _ _ tokens :: segments =>
    match Request.ofLine? source tokens with
    | some asked => .request asked :: ofSegments source rest segments
    | none => ofTokens source tokens
  | .shebang _ _ :: segments => ofSegments source rest segments

end Item

namespace Dialect

variable {dialect : Dialect} {place : Place} {source rest : Text}

/-- The tokens of a directive line that a step cuts off are those of a whole line. -/
lemma isWhole_of_step {p : Place} {content : Text} {tokens : List Token}
    (h : dialect.step place source = .segment (.directive p content tokens) rest) :
    Line.IsWhole tokens := by
  obtain ⟨-, blanks, body, mark, arguments, -, -, -, -, rfl, harguments⟩ := step_directive h
  exact ⟨_, arguments, _, rfl, ⟨_, rfl⟩, ⟨_, rfl⟩, fun token htoken => (harguments token htoken).1⟩

/-- The directive lines of a scan are whole lines. -/
lemma isWhole_of_mem_segments {dialect : Dialect} {source : Text} {place : Place} {content : Text}
    {tokens : List Token}
    (h : .directive place content tokens ∈ (dialect.scan source).segments) :
    Line.IsWhole tokens := by
  obtain ⟨here, text, rest, hstep⟩ := exists_step_of_mem h
  exact isWhole_of_step hstep

/-- The items of the tokens of a scan are those of its segments, and then those of its ending. The
induction is on the steps of the scan. -/
lemma ofTokens_scanFrom (dialect : Dialect) (name : String) (place : Place) (source : Text) :
    Item.ofTokens name (dialect.scanFrom place source).tokens =
      Item.ofSegments name (Item.ofTokens name (dialect.scanFrom place source).ending.tokens)
        (dialect.scanFrom place source).segments := by
  fun_induction scanFrom dialect place source with
  | case1 place source segment rest hstep ih =>
    rw [Scan.tokens_cons]
    cases segment with
    | text p content =>
      rw [Segment.tokens, List.singleton_append, Item.ofTokens, ih]
      rfl
    | comment p style content =>
      rw [Segment.tokens, Scan.cons, Item.ofSegments]
      split
      · rw [List.nil_append, ih]
      · rw [List.singleton_append, Item.ofTokens, ih]
    | directive p content tokens =>
      rw [Segment.tokens, Scan.cons, Item.ofSegments]
      split
      · rename_i request hrequest
        rw [Item.ofTokens_append_of_request hrequest, ih]
      · rename_i hnone
        obtain ⟨diagnostic, hfailure⟩ :=
          Item.ofTokens_append_of_no_request (isWhole_of_step hstep) hnone
        have halone := hfailure []
        rw [List.append_nil] at halone
        rw [hfailure, halone]
    | shebang p content =>
      rw [Segment.tokens, List.nil_append, ih]
      rfl
  | case2 place source ending hstep => rfl

/-- The items of a source are those of its segments, and then those of the end of its scan. -/
lemma items_eq_ofSegments (dialect : Dialect) (name : String) (source : Text) :
    dialect.items name source =
      Item.ofSegments name (Item.ofTokens name (dialect.scan source).ending.tokens)
        (dialect.scan source).segments :=
  dialect.ofTokens_scanFrom name .start source

/-- The end of a scan has no items if the scan came to the end of the source, and is a failure
otherwise. -/
lemma ofTokens_ending (dialect : Dialect) (name : String) (place : Place) (source : Text) :
    (∃ p, (dialect.scanFrom place source).ending = .complete p) ∧
        Item.ofTokens name (dialect.scanFrom place source).ending.tokens = [] ∨
      ∃ diagnostic, Item.ofTokens name (dialect.scanFrom place source).ending.tokens =
        [.failure diagnostic] := by
  obtain ⟨rest, -, hstep⟩ := dialect.exists_step_ending place source
  cases hending : (dialect.scanFrom place source).ending with
  | complete p => exact Or.inl ⟨⟨p, rfl⟩, rfl⟩
  | broken tokens fault there =>
    rw [hending] at hstep
    rcases step_broken hstep with rfl | ⟨arguments, harguments, rfl⟩
    · exact Or.inr ⟨_, rfl⟩
    · exact Or.inr ⟨_, Item.ofTokens_of_broken harguments fault⟩

/-- A request that comes next among the items of segments is that of a directive line, and what
comes after it is that of the segments after the line; or else it comes after the segments. The
induction is on the segments. -/
lemma exists_line_of_suffix_ofSegments {name : String} {rest items : List Item}
    {segments : List Segment} {request : Request}
    (hwhole : ∀ place content tokens, .directive place content tokens ∈ segments →
      Line.IsWhole tokens)
    (h : .request request :: items <:+ Item.ofSegments name rest segments) :
    .request request :: items <:+ rest ∨ ∃ before place content tokens after,
      segments = before ++ .directive place content tokens :: after ∧
        Request.ofLine? name tokens = some request ∧
        items = Item.ofSegments name rest after := by
  induction segments with
  | nil => exact Or.inl h
  | cons segment segments ih =>
    have htail (hlater : .request request :: items <:+ Item.ofSegments name rest segments) :
        .request request :: items <:+ rest ∨ ∃ before place content tokens after,
          segment :: segments = before ++ .directive place content tokens :: after ∧
            Request.ofLine? name tokens = some request ∧
            items = Item.ofSegments name rest after := by
      rcases ih (fun place content tokens hmem =>
          hwhole place content tokens (List.mem_cons_of_mem _ hmem)) hlater with
        hrest | ⟨before, place, content, tokens, after, rfl, hrequest, hitems⟩
      · exact Or.inl hrest
      · exact Or.inr ⟨segment :: before, place, content, tokens, after, rfl, hrequest, hitems⟩
    cases segment with
    | text place content =>
      rcases List.suffix_cons_iff.1 h with hnone | hlater
      · cases hnone
      · exact htail hlater
    | comment place style content =>
      rw [Item.ofSegments] at h
      split at h
      · exact htail h
      · rcases List.suffix_cons_iff.1 h with hnone | hlater
        · cases hnone
        · exact htail hlater
    | directive place content tokens =>
      rw [Item.ofSegments] at h
      split at h
      · rename_i asked hasked
        rcases List.suffix_cons_iff.1 h with hhere | hlater
        · cases hhere
          exact Or.inr ⟨[], place, content, tokens, segments, rfl, hasked, rfl⟩
        · exact htail hlater
      · rename_i hnone
        obtain ⟨diagnostic, hfailure⟩ := Item.ofTokens_of_no_request
          (hwhole place content tokens List.mem_cons_self) hnone
        rw [hfailure] at h
        have hmem := h.subset List.mem_cons_self
        simp at hmem
    | shebang place content => exact htail h

/-- A request that comes next among the items of a source is that of a directive line of the source,
and what comes after it is that of the rest of the source. -/
lemma exists_line_of_suffix_items {dialect : Dialect} {name : String} {source : Text}
    {request : Request} {items : List Item}
    (h : .request request :: items <:+ dialect.items name source) :
    ∃ before place content tokens after,
      (dialect.scan source).segments = before ++ .directive place content tokens :: after ∧
        Request.ofLine? name tokens = some request ∧
        items = Item.ofSegments name (Item.ofTokens name (dialect.scan source).ending.tokens)
          after := by
  rw [items_eq_ofSegments] at h
  rcases exists_line_of_suffix_ofSegments
      (fun place content tokens hmem => isWhole_of_mem_segments hmem) h with hrest | hline
  · have hmem := hrest.subset List.mem_cons_self
    rcases dialect.ofTokens_ending name .start source with ⟨-, hnil⟩ | ⟨diagnostic, hfailure⟩
    · rw [scan, hnil] at hmem
      cases hmem
    · rw [scan, hfailure] at hmem
      simp at hmem
  · exact hline

end Dialect

namespace Item

/-- What is wrong with a directive line is a matter of its characters or of its tokens. -/
lemma kind_fault (source : String) (tokens : List Token) :
    (fault source tokens).kind = .lexical ∨ (fault source tokens).kind = .directive := by
  unfold fault
  split
  · exact Or.inl rfl
  · exact Or.inl rfl
  · split
    · exact Or.inr rfl
    · split
      · exact Or.inl rfl
      · exact Or.inl rfl
      · exact Or.inr rfl
      · split
        · exact Or.inl rfl
        · exact Or.inl rfl
        · exact Or.inr rfl
  · exact Or.inr rfl

/-- A failure is located at the start of the named source or at one of the tokens. -/
def LocatedAt (source : String) (tokens : List Token) (diagnostic : Diagnostic) : Prop :=
  diagnostic.location = some (.start source) ∨
    ∃ token ∈ tokens, diagnostic.location = some (token.place.position source)

/-- More tokens in front do not matter. -/
lemma LocatedAt.append {source : String} {tokens : List Token} {diagnostic : Diagnostic}
    (h : LocatedAt source tokens diagnostic) (before : List Token) :
    LocatedAt source (before ++ tokens) diagnostic := by
  rcases h with hstart | ⟨token, hmem, hlocation⟩
  · exact Or.inl hstart
  · exact Or.inr ⟨token, List.mem_append_right before hmem, hlocation⟩

/-- What is wrong with a directive line is located at one of its tokens. -/
lemma locatedAt_fault (source : String) (tokens : List Token) :
    LocatedAt source tokens (fault source tokens) := by
  unfold fault
  split
  · exact Or.inl rfl
  · exact Or.inr ⟨_, List.mem_cons_self, rfl⟩
  · split
    · exact Or.inr ⟨_, List.mem_cons_self, rfl⟩
    · split
      · exact Or.inl rfl
      · exact Or.inr ⟨_, List.mem_cons_of_mem _ List.mem_cons_self, rfl⟩
      · exact Or.inr ⟨_, List.mem_cons_of_mem _ List.mem_cons_self, rfl⟩
      · split
        · exact Or.inl rfl
        · exact Or.inr ⟨_, List.mem_cons_of_mem _ (List.mem_cons_of_mem _ List.mem_cons_self), rfl⟩
        · exact Or.inr ⟨_, List.mem_cons_of_mem _ List.mem_cons_self, rfl⟩
  · exact Or.inr ⟨_, List.mem_cons_self, rfl⟩

/-- What an item of tokens comes from: text and comments come from their tokens, a command from the
trigger of its line, and any other failure says what is wrong with characters or tokens. -/
inductive ComesFrom (source : String) (tokens : List Token) : Item → Prop where
  /-- Plain text. -/
  | text {content : Text} {place : Place} (hmem : ⟨.text content, place⟩ ∈ tokens) :
    ComesFrom source tokens (.text (place.position source) content)
  /-- A comment. -/
  | comment {content : Text} {place : Place} (hmem : ⟨.comment content, place⟩ ∈ tokens) :
    ComesFrom source tokens (.comment (place.position source) content)
  /-- A request for a file. -/
  | request {mark : Text} {place : Place} (target : String) (once : Bool)
    (hmem : ⟨.trigger mark, place⟩ ∈ tokens) :
    ComesFrom source tokens (.request ⟨target, place.position source, once⟩)
  /-- An error that is asked for. -/
  | requested {mark : Text} {place : Place} (message : Text)
    (hmem : ⟨.trigger mark, place⟩ ∈ tokens) :
    ComesFrom source tokens (.failure (.requested message (place.position source)))
  /-- Any other failure. -/
  | fault {diagnostic : Diagnostic}
    (hkind : diagnostic.kind = .lexical ∨ diagnostic.kind = .directive)
    (hlocated : LocatedAt source tokens diagnostic) :
    ComesFrom source tokens (.failure diagnostic)

/-- More tokens in front do not matter. -/
lemma ComesFrom.append {source : String} {tokens : List Token} {item : Item}
    (h : ComesFrom source tokens item) (before : List Token) :
    ComesFrom source (before ++ tokens) item := by
  cases h with
  | text hmem => exact .text (List.mem_append_right before hmem)
  | comment hmem => exact .comment (List.mem_append_right before hmem)
  | request target once hmem => exact .request target once (List.mem_append_right before hmem)
  | requested message hmem => exact .requested message (List.mem_append_right before hmem)
  | fault hkind hlocated => exact .fault hkind (hlocated.append before)

/-- Each item of tokens comes from one of them. The induction is on the tokens as they are read. -/
lemma comesFrom_of_mem {source : String} {tokens : List Token} {item : Item}
    (h : item ∈ ofTokens source tokens) : ComesFrom source tokens item := by
  fun_induction ofTokens source tokens with
  | case1 =>
    rw [List.mem_singleton.1 h]
    exact .fault (Or.inl rfl) (Or.inl rfl)
  | case2 content place rest ih =>
    rcases List.mem_cons.1 h with rfl | h
    · exact .text List.mem_cons_self
    · exact (ih h).append [_]
  | case3 content place rest ih =>
    rcases List.mem_cons.1 h with rfl | h
    · exact .comment List.mem_cons_self
    · exact (ih h).append [_]
  | case4 _ _ _ _ _ _ _ _ rest _ _ ih =>
    rcases List.mem_cons.1 h with rfl | h
    · exact .request _ _ List.mem_cons_self
    · exact (ih h).append [_, _, _, _]
  | case5 _ _ _ _ _ _ _ _ rest _ _ ih =>
    rcases List.mem_cons.1 h with rfl | h
    · exact .request _ _ List.mem_cons_self
    · exact (ih h).append [_, _, _, _]
  | case6 =>
    rw [List.mem_singleton.1 h]
    exact .requested _ List.mem_cons_self
  | case7 =>
    rw [List.mem_singleton.1 h]
    exact .fault (Or.inr rfl) (Or.inr ⟨_, List.mem_cons_of_mem _ List.mem_cons_self, rfl⟩)
  | case8 mark place rest =>
    rw [List.mem_singleton.1 h]
    exact .fault (kind_fault source rest) ((locatedAt_fault source rest).append [_])
  | case9 =>
    rw [List.mem_singleton.1 h]
    exact .fault (Or.inl rfl) (Or.inr ⟨_, List.mem_cons_self, rfl⟩)
  | case10 => cases h
  | case11 =>
    rw [List.mem_singleton.1 h]
    exact .fault (Or.inr rfl) (Or.inr ⟨_, List.mem_cons_self, rfl⟩)

/-- The failure at the end of the items of a file is a matter of its characters or of its tokens, or
it is an error that the file asks for. -/
lemma kind_of_failure_mem {source : String} {tokens : List Token} {diagnostic : Diagnostic}
    (h : .failure diagnostic ∈ ofTokens source tokens) :
    diagnostic.kind = .lexical ∨ diagnostic.kind = .directive ∨ diagnostic.kind = .requested := by
  cases comesFrom_of_mem h with
  | requested message hmem => exact Or.inr (Or.inr rfl)
  | fault hkind hlocated => exact hkind.imp_right Or.inl

end Item

end Splice

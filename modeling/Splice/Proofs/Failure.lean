import Splice.Proofs.Expansion.Rendering
import Splice.Proofs.Scanner

/-!
# How a run can fail

The items of a file are read off tokens that follow the grammar of `Token.Stream`. Hence a file
fails only at a fault of a directive line, and never because its tokens stop without an end or
because a token stands outside any directive line (`Item.IsFailure`). A run hands on what a file
fails with, and adds only that files are nested too deep or cannot be read
(`Plan.fault_of_expand`). So neither of the two messages that speak of a malformed list of tokens is
ever given.
-/

namespace Splice

/-! ### Files -/

/-- The problems of the named source itself: a directive line that cannot be read, a directive line
that is read and is no directive, and an error that is asked for. -/
inductive Item.IsFailure (source : String) : Diagnostic → Prop where
  /-- A fault of the characters of a directive line. -/
  | lexical {fault : LexicalFault} (hfault : fault ≠ .missingEnd) (place : Place) :
    IsFailure source (.ofLexicalFault fault (place.position source))
  /-- A fault of the tokens of a directive line. -/
  | directive {fault : DirectiveFault} (hfault : ∀ kind, fault ≠ .strayToken kind) (place : Place) :
    IsFailure source (.ofDirectiveFault fault (place.position source))
  /-- An error that is asked for. -/
  | requested (message : Text) (place : Place) :
    IsFailure source (.requested message (place.position source))

/-- A problem of a directive line that is found at one of its tokens. -/
inductive Item.FoundAt (source : String) (token : Token) : Diagnostic → Prop where
  /-- A fault of the characters of the line. -/
  | lexical {fault : LexicalFault} (hfault : fault ≠ .missingEnd) :
    FoundAt source token (.ofLexicalFault fault (token.place.position source))
  /-- A fault of the tokens of the line. -/
  | directive {fault : DirectiveFault} (hfault : ∀ kind, fault ≠ .strayToken kind) :
    FoundAt source token (.ofDirectiveFault fault (token.place.position source))

/-- A problem that is found at a token is one of the source. -/
lemma Item.FoundAt.isFailure {source : String} {token : Token} {diagnostic : Diagnostic}
    (h : FoundAt source token diagnostic) : IsFailure source diagnostic := by
  cases h with
  | lexical hfault => exact .lexical hfault token.place
  | directive hfault => exact .directive hfault token.place

/-- What closes the words and strings of a directive line: a line end, or a point at which the line
cannot be read on. -/
def Token.Closes (token : Token) : Prop :=
  (∃ mark, token.lexeme = .lineEnd mark) ∨
    ∃ fault, token.lexeme = .invalid fault ∧ fault ≠ .missingEnd

namespace Item

variable {source : String} {arguments : List Token} {closing : Token}

/-- What is wrong with a directive line is a fault of its characters or of its tokens, and it is
found at a token of the line. The cases follow the words and strings of the line: nothing is looked
at after the token that closes it. -/
lemma exists_foundAt_fault (harguments : ∀ token ∈ arguments, token.isArgument = true)
    (hclosing : closing.Closes) (rest : List Token) :
    ∃ token ∈ arguments ++ [closing],
      FoundAt source token (fault source (arguments ++ closing :: rest)) := by
  obtain ⟨_, stop⟩ := closing
  rcases arguments with _ | ⟨⟨first, p⟩, arguments⟩
  · refine ⟨_, List.mem_cons_self, ?_⟩
    rcases hclosing with ⟨mark, rfl⟩ | ⟨problem, rfl, hproblem⟩
    · exact .directive (by simp)
    · exact .lexical hproblem
  rcases lexeme_of_isArgument (harguments _ List.mem_cons_self) with ⟨name, rfl⟩ | ⟨content, rfl⟩
  swap
  · exact ⟨_, List.mem_cons_self, .directive (by simp)⟩
  cases hcommand : Command.ofName? name with
  | none =>
    refine ⟨_, List.mem_cons_self, ?_⟩
    simp only [List.cons_append, fault, hcommand]
    exact .directive (by simp)
  | some command =>
    rcases arguments with _ | ⟨⟨second, q⟩, arguments⟩
    · refine ⟨_, List.mem_append_right _ List.mem_cons_self, ?_⟩
      rcases hclosing with ⟨mark, rfl⟩ | ⟨problem, rfl, hproblem⟩ <;>
        simp only [List.cons_append, List.nil_append, fault, hcommand]
      · exact .directive (by simp)
      · exact .lexical hproblem
    have hsecond := lexeme_of_isArgument
      (harguments ⟨second, q⟩ (List.mem_cons_of_mem _ List.mem_cons_self))
    rcases arguments with _ | ⟨⟨third, r⟩, arguments⟩
    · rcases hclosing with ⟨mark, rfl⟩ | ⟨problem, rfl, hproblem⟩ <;>
        rcases hsecond with ⟨other, rfl⟩ | ⟨content, rfl⟩ <;>
        simp only [List.cons_append, List.nil_append, fault, hcommand]
      · exact ⟨_, List.mem_cons_of_mem _ List.mem_cons_self, .directive (by simp)⟩
      · exact ⟨_, List.mem_cons_of_mem _ List.mem_cons_self, .directive (by simp)⟩
      · exact ⟨⟨.invalid problem, stop⟩, by simp, .lexical hproblem⟩
      · exact ⟨⟨.invalid problem, stop⟩, by simp, .lexical hproblem⟩
    · refine ⟨_, List.mem_cons_of_mem _ List.mem_cons_self, ?_⟩
      have hthird := lexeme_of_isArgument (harguments ⟨third, r⟩
        (List.mem_cons_of_mem _ (List.mem_cons_of_mem _ List.mem_cons_self)))
      rcases hsecond with ⟨other, rfl⟩ | ⟨content, rfl⟩ <;>
        rcases hthird with ⟨other', rfl⟩ | ⟨content', rfl⟩ <;>
        simp only [List.cons_append, fault, hcommand] <;> exact .directive (by simp)

/-- What is wrong with a directive line is a fault of its characters or of its tokens. -/
lemma isFailure_fault (harguments : ∀ token ∈ arguments, token.isArgument = true)
    (hclosing : closing.Closes) (rest : List Token) :
    IsFailure source (fault source (arguments ++ closing :: rest)) := by
  obtain ⟨token, -, hfound⟩ := exists_foundAt_fault harguments hclosing rest
  exact hfound.isFailure

/-- A trigger that is not followed by just a word, a string and a line end is a failure. -/
lemma ofTokens_of_not_directive (harguments : ∀ token ∈ arguments, token.isArgument = true)
    (hclosing : closing.Closes)
    (hshape : ∀ name p content q, arguments ≠ [⟨.word name, p⟩, ⟨.quoted content, q⟩])
    (mark : Text) (start : Place) (rest : List Token) :
    ofTokens source (⟨.trigger mark, start⟩ :: (arguments ++ closing :: rest)) =
      [.failure (fault source (arguments ++ closing :: rest))] := by
  rw [ofTokens]
  intro name p content q tail r others heq
  rcases arguments with _ | ⟨first, _ | ⟨second, _ | ⟨third, arguments⟩⟩⟩
  · -- the token that closes the line is no word
    obtain ⟨rfl, -⟩ := List.cons.inj heq
    simp [Token.Closes] at hclosing
  · obtain ⟨-, htail⟩ := List.cons.inj heq
    obtain ⟨rfl, -⟩ := List.cons.inj htail
    simp [Token.Closes] at hclosing
  · obtain ⟨rfl, htail⟩ := List.cons.inj heq
    obtain ⟨rfl, -⟩ := List.cons.inj htail
    exact hshape name p content q rfl
  · obtain ⟨rfl, rfl, rfl, -⟩ : first = _ ∧ second = _ ∧ third = _ ∧ _ := by simpa using heq
    have hthird := harguments ⟨.lineEnd tail, r⟩ (by simp)
    simp [Token.isArgument] at hthird

/-- A failure among the items of a whole directive line and of what comes after it is one of the
line, or one of what comes after it. -/
lemma failure_of_line {tokens rest : List Token} {diagnostic : Diagnostic}
    (hline : Line.IsWhole tokens) (h : .failure diagnostic ∈ ofTokens source (tokens ++ rest)) :
    IsFailure source diagnostic ∨ .failure diagnostic ∈ ofTokens source rest := by
  obtain ⟨⟨_, start⟩, arguments, ⟨_, stop⟩, rfl, ⟨mark, rfl⟩, ⟨tail, rfl⟩, harguments⟩ := hline
  rw [List.cons_append, List.cons_append, List.append_assoc, List.singleton_append] at h
  by_cases hshape : ∃ name p content q, arguments = [⟨.word name, p⟩, ⟨.quoted content, q⟩]
  · obtain ⟨name, p, content, q, rfl⟩ := hshape
    cases hcommand : Command.ofName? name with
    | none =>
      simp only [List.cons_append, List.nil_append, ofTokens, hcommand, List.mem_singleton,
        failure.injEq] at h
      exact Or.inl (h ▸ .directive (by simp) p)
    | some command =>
      cases command with
      | stop =>
        simp only [List.cons_append, List.nil_append, ofTokens, hcommand, List.mem_singleton,
          failure.injEq] at h
        exact Or.inl (h ▸ .requested content start)
      | splice =>
        simp only [List.cons_append, List.nil_append, ofTokens, hcommand, List.mem_cons,
          reduceCtorEq, false_or] at h
        exact Or.inr h
      | spliceOnce =>
        simp only [List.cons_append, List.nil_append, ofTokens, hcommand, List.mem_cons,
          reduceCtorEq, false_or] at h
        exact Or.inr h
  · have hclosing : Token.Closes ⟨.lineEnd tail, stop⟩ := Or.inl ⟨tail, rfl⟩
    rw [ofTokens_of_not_directive harguments hclosing
      (fun name p content q heq => hshape ⟨name, p, content, q, heq⟩)] at h
    cases List.mem_singleton.1 h
    exact Or.inl (isFailure_fault harguments hclosing rest)

/-- A failure among the items of tokens that follow the grammar is one of a directive line. The
induction is on the tokens, piece by piece. -/
lemma isFailure_of_mem {tokens : List Token} {diagnostic : Diagnostic}
    (hstream : Token.Stream tokens) (h : .failure diagnostic ∈ ofTokens source tokens) :
    IsFailure source diagnostic := by
  induction hstream with
  | complete place => cases h
  | misplaced place =>
    cases List.mem_singleton.1 h
    exact .lexical (by simp) place
  | @broken arguments problem mark start place harguments _ hend =>
    have hclosing : Token.Closes ⟨.invalid problem, place⟩ := Or.inr ⟨problem, rfl, hend⟩
    rw [← List.cons_append, ofTokens_of_broken harguments problem] at h
    cases List.mem_singleton.1 h
    exact isFailure_fault harguments hclosing []
  | text place _ _ ih =>
    rcases List.mem_cons.1 h with hnone | h
    · cases hnone
    · exact ih h
  | comment place _ _ ih =>
    rcases List.mem_cons.1 h with hnone | h
    · cases hnone
    · exact ih h
  | line hline _ ih =>
    rcases failure_of_line hline h with hfailure | h
    · exact hfailure
    · exact ih h

end Item

/-- The items of a source fail at a directive line only. -/
lemma Dialect.isFailure_of_mem_items {dialect : Dialect} {name : String} {source : Text}
    {diagnostic : Diagnostic} (h : .failure diagnostic ∈ dialect.items name source) :
    Item.IsFailure name diagnostic :=
  Item.isFailure_of_mem (dialect.stream_scanFrom .start source) h

/-! ### Runs -/

namespace Plan

variable {plan : Plan} {ledger after : Ledger} {fault : Fault}

/-- An item fails for want of comment styles, because it is a failure, or because it is a request
that cannot be answered. -/
lemma step_eq_error {answer : Request → Ledger → Expansion (Option Node)} {item : Item}
    (h : plan.step answer item ledger = (after, .error fault)) :
    fault = .noStyles ∨ (∃ diagnostic, item = .failure diagnostic ∧ fault = .problem diagnostic) ∨
      ∃ request, answer request ledger = (after, .error fault) := by
  cases item with
  | text location content =>
    rw [step, textLeaf] at h
    split at h
    · cases h
      exact Or.inl rfl
    · cases h
  | comment location content =>
    rw [step, commentLeaf] at h
    split at h
    · cases h
      exact Or.inl rfl
    · cases h
  | request request =>
    rw [step_request] at h
    rcases hanswer : answer request ledger with ⟨final, problem | node?⟩
    · rw [hanswer] at h
      cases h
      exact Or.inr (Or.inr ⟨request, hanswer⟩)
    · rw [hanswer] at h
      cases h
  | failure diagnostic =>
    cases h
    exact Or.inr (Or.inl ⟨diagnostic, rfl, rfl⟩)

/-- A collection fails for want of comment styles, at a failure among its items, or because a
request cannot be answered. The induction is on the items. -/
lemma collect_eq_error {answer : Request → Ledger → Expansion (Option Node)} {items : List Item}
    (h : plan.collect answer items ledger = (after, .error fault)) :
    fault = .noStyles ∨ (∃ diagnostic, .failure diagnostic ∈ items ∧ fault = .problem diagnostic) ∨
      ∃ request before, answer request before = (after, .error fault) := by
  induction items generalizing ledger with
  | nil => cases h
  | cons item items ih =>
    rcases hstep : plan.step answer item ledger with ⟨between, problem | nodes⟩
    · rw [collect_cons_error items hstep] at h
      cases h
      rcases step_eq_error hstep with hstyles | ⟨diagnostic, rfl, hproblem⟩ | ⟨request, hanswer⟩
      · exact Or.inl hstyles
      · exact Or.inr (Or.inl ⟨diagnostic, List.mem_cons_self, hproblem⟩)
      · exact Or.inr (Or.inr ⟨request, ledger, hanswer⟩)
    · rw [collect_cons_ok items hstep] at h
      rcases hrest : plan.collect answer items between with ⟨final, problem | rest⟩
      · rw [hrest] at h
        cases h
        rcases ih hrest with hstyles | ⟨diagnostic, hmem, hproblem⟩ | hanswer
        · exact Or.inl hstyles
        · exact Or.inr (Or.inl ⟨diagnostic, List.mem_cons_of_mem _ hmem, hproblem⟩)
        · exact Or.inr (Or.inr hanswer)
      · rw [hrest] at h
        cases h

/-- A request cannot be answered when it is made at the greatest depth, when its file is not found,
or when the expansion of its file fails one level deeper. -/
lemma answer_eq_error {depth : Int} {name : String} {request : Request}
    (h : plan.answer depth name request ledger = (after, .error fault)) :
    fault = .problem (.tooDeep plan.settings.maxDepth request.location) ∨
      plan.find (Path.relativeTo name request.target) request.location = .error fault ∨
      depth < plan.settings.maxDepth ∧ ∃ identity source before,
        plan.expand (depth + 1) (Path.relativeTo name request.target) identity request.location
          source before = (after, .error fault) := by
  unfold answer at h
  split at h
  · cases h
    exact Or.inl rfl
  rename_i hdepth
  refine Or.inr ?_
  by_cases hmet : request.once = true ∧
      ledger.HasMet plan.loader (Path.relativeTo name request.target)
  · rw [fetch_of_met hmet.1 hmet.2] at h
    cases h
  rcases hfind : plan.find (Path.relativeTo name request.target) request.location with
    problem | ⟨identity, source⟩
  · rw [fetch_of_missing hmet hfind] at h
    cases h
    exact Or.inl rfl
  · rw [fetch_of_found hmet hfind] at h
    rcases hexpand : plan.expand (depth + 1) (Path.relativeTo name request.target) identity
        request.location source
        (ledger.enroll plan.loader request.once (Path.relativeTo name request.target)) with
      ⟨final, problem | node⟩
    · rw [hexpand] at h
      cases h
      exact Or.inr ⟨by omega, identity, source, _, hexpand⟩
    · rw [hexpand] at h
      cases h

/-- That a file is not found is a problem of its own kind, if it is one with the sources. -/
lemma kind_of_find {path : String} {location : Position} {diagnostic : Diagnostic}
    (h : plan.find path location = .error (.problem diagnostic)) : diagnostic.kind = .load := by
  rcases find_eq_error h with ⟨text, -, hfault⟩ | ⟨identity, -, hread⟩
  · cases hfault
  · unfold read at hread
    split at hread
    · cases hread
    · cases hread
      rfl
    · cases hread

/-- The problem with which an expansion fails is that files are nested too deep, that a file is not
found, or one of a directive line. The induction is on how many levels there may still be below
the file. -/
lemma fault_of_expand {depth : Int} {name path : String} {location : Position} {source : Text}
    {diagnostic : Diagnostic}
    (h : plan.expand depth name path location source ledger =
      (after, .error (.problem diagnostic))) :
    diagnostic.kind = .depth ∨ diagnostic.kind = .load ∨
      ∃ name, Item.IsFailure name diagnostic := by
  generalize hroom : (plan.settings.maxDepth - depth).toNat = room
  induction room using Nat.strong_induction_on
    generalizing depth name path location source ledger after with
  | _ room ih =>
    rw [expand_eq] at h
    rcases hcollect : plan.collect (plan.answer depth name) (plan.dialect.items name source)
        (ledger.note (.entering name depth)) with ⟨final, problem | children⟩
    swap
    · rw [hcollect] at h
      cases h
    rw [hcollect] at h
    cases h
    rcases collect_eq_error hcollect with hstyles | ⟨found, hmem, hproblem⟩ |
      ⟨request, before, hanswer⟩
    · cases hstyles
    · cases hproblem
      exact Or.inr (Or.inr ⟨name, Dialect.isFailure_of_mem_items hmem⟩)
    · rcases answer_eq_error hanswer with
        hdeep | hfind | ⟨hdepth, identity, text, enrolled, hexpand⟩
      · cases hdeep
        exact Or.inl rfl
      · exact Or.inr (Or.inl (kind_of_find hfind))
      · exact ih _ (by omega) hexpand rfl

end Plan

/-- Wordings that start with different characters are different, however they go on. -/
lemma append_ne_append_of_take_ne {s t : String} {n : Nat} (hs : n ≤ s.toList.length)
    (ht : n ≤ t.toList.length) (h : s.toList.take n ≠ t.toList.take n) (u v : String) :
    s ++ u ≠ t ++ v := by
  intro heq
  apply h
  have htake := congrArg (fun s => s.toList.take n) heq
  simpa only [String.toList_append, List.take_append_of_le_length hs,
    List.take_append_of_le_length ht] using htake

/-- No other fault of the characters of a directive line is worded like a list of tokens without an
end. -/
lemma LexicalFault.message_ne {fault : LexicalFault} (h : fault ≠ .missingEnd) :
    fault.message ≠ LexicalFault.missingEnd.message := by
  cases fault with
  | missingEnd => exact absurd rfl h
  | unexpectedCharacter c =>
    have hne := @append_ne_append_of_take_ne "unexpected character " missingEnd.message 1
      (by decide) (by decide) (by decide) (Text.showQuoted [c]) ""
    rwa [String.append_empty] at hne
  | _ => decide

/-- No other fault of the tokens of a directive line is worded like a token outside any directive
line. -/
lemma DirectiveFault.message_ne {fault : DirectiveFault} (h : ∀ kind, fault ≠ .strayToken kind)
    (kind : String) : fault.message ≠ (strayToken kind).message := by
  have hcommand (tail : String) : "command " ++ tail ≠ (strayToken kind).message :=
    @append_ne_append_of_take_ne "command " "unexpected token " 3 (by decide) (by decide)
      (by decide) tail kind
  cases fault with
  | missingCommand =>
    have hne := @append_ne_append_of_take_ne missingCommand.message "unexpected token " 3
      (by decide) (by decide) (by decide) "" kind
    rwa [String.append_empty] at hne
  | unknownCommand name =>
    exact @append_ne_append_of_take_ne "unknown command " "unexpected token " 3 (by decide)
      (by decide) (by decide) (String.ofList name) kind
  | missingArgument name =>
    exact fun heq => hcommand _ (String.append_assoc.symm.trans heq)
  | notOneString name =>
    exact fun heq => hcommand _ (String.append_assoc.symm.trans heq)
  | strayToken other => exact absurd rfl (h other)

/-- A diagnostic that says that a list of tokens is malformed: it stops without an end, or a token
in it stands outside any directive line. -/
def Diagnostic.IsMalformed (diagnostic : Diagnostic) : Prop :=
  diagnostic.kind = .lexical ∧ diagnostic.text = LexicalFault.missingEnd.message ∨
    diagnostic.kind = .directive ∧
      ∃ kind, diagnostic.text = (DirectiveFault.strayToken kind).message

/-- A problem of another kind does not say that a list of tokens is malformed. -/
lemma Diagnostic.not_isMalformed_of_kind {diagnostic : Diagnostic}
    (hlexical : diagnostic.kind ≠ .lexical) (hdirective : diagnostic.kind ≠ .directive) :
    ¬ diagnostic.IsMalformed := by
  rintro (⟨hkind, -⟩ | ⟨hkind, -⟩)
  · exact hlexical hkind
  · exact hdirective hkind

/-- Neither does a problem of a source itself. -/
lemma Item.IsFailure.not_isMalformed {source : String} {diagnostic : Diagnostic}
    (h : IsFailure source diagnostic) : ¬ diagnostic.IsMalformed := by
  cases h with
  | lexical hfault place =>
    rintro (⟨-, htext⟩ | ⟨hkind, -⟩)
    · exact LexicalFault.message_ne hfault htext
    · cases hkind
  | directive hfault place =>
    rintro (⟨hkind, -⟩ | ⟨-, kind, htext⟩)
    · cases hkind
    · exact DirectiveFault.message_ne hfault kind htext
  | requested message place =>
    exact Diagnostic.not_isMalformed_of_kind (by simp [Diagnostic.requested])
      (by simp [Diagnostic.requested])

/-- Neither does a problem with which an expansion fails. -/
lemma Plan.not_isMalformed_of_expand {plan : Plan} {depth : Int} {name path : String}
    {location : Position} {source : Text} {ledger after : Ledger} {diagnostic : Diagnostic}
    (h : plan.expand depth name path location source ledger =
      (after, .error (.problem diagnostic))) : ¬ diagnostic.IsMalformed := by
  rcases fault_of_expand h with hdeep | hload | ⟨file, hfailure⟩
  · exact Diagnostic.not_isMalformed_of_kind (by simp [hdeep]) (by simp [hdeep])
  · exact Diagnostic.not_isMalformed_of_kind (by simp [hload]) (by simp [hload])
  · exact hfailure.not_isMalformed

/-- **The grammar of tokens.** Whatever the trigger and the comment styles are, the tokens of a
source follow the grammar, two texts in a row have stripped comments between them, at least one and
nothing else, and each comment is all that the first style that opens at its place makes of the
source. A scan that is about to go over a comment, after any number of steps, has a style that opens
there. So a run never reports that a list of tokens is malformed. -/
theorem grammar_of_tokens :
    (∀ (dialect : Dialect) (source : Text), Token.Stream (dialect.tokens source)) ∧
    (∀ (dialect : Dialect) (source : Text) (before after : List Token) (p q : Place) (s t : Text),
      dialect.tokens source = before ++ ⟨.text s, p⟩ :: ⟨.text t, q⟩ :: after →
      ∃ earlier between later,
        (dialect.scan source).segments = earlier ++ .text p s :: (between ++ .text q t :: later) ∧
          between ≠ [] ∧ ∀ segment ∈ between, segment.isStripped = true) ∧
    (∀ (dialect : Dialect) (source : Text) (place : Place) (style : CommentStyle) (content : Text),
      .comment place style content ∈ (dialect.scan source).segments →
      dialect.styles.first? (source.drop place.offset) = some style ∧
        content = style.extent (source.drop place.offset)) ∧
    (∀ (dialect : Dialect) (source : Text) (n : Nat),
      ((Scanner.next dialect)^[n] (.start source)).mode = .comment →
      ∃ style, dialect.styles.first? ((Scanner.next dialect)^[n] (.start source)).rest =
        some style) ∧
    (∀ context settings loader session diagnostic,
      (∃ name content, runText context settings loader name content =
        (session, .error (.problem diagnostic))) ∨
      (∃ path, runFile context settings loader path = (session, .error (.problem diagnostic))) →
      ¬ diagnostic.IsMalformed) := by
  refine ⟨?_, ?_, ?_, ?_, ?_⟩
  · intro dialect source
    exact dialect.stream_scanFrom .start source
  · intro dialect source before after p q s t h
    exact Dialect.exists_stripped_between h
  · intro dialect source place style content h
    exact Dialect.first?_of_mem_segments h
  · intro dialect source n hmode
    exact Scanner.exists_first?_of_comment hmode
  · rintro context settings loader session diagnostic (⟨name, content, h⟩ | ⟨path, h⟩)
    · rw [runText_eq_expand] at h
      exact Plan.not_isMalformed_of_expand (Prod.ext rfl (Prod.mk.inj h).2)
    · rw [runFile_eq_expandRoot] at h
      have hresult := (Prod.mk.inj h).2
      rw [Plan.expandRoot] at hresult
      split at hresult
      · rename_i hfind
        cases hresult
        have hload := Plan.kind_of_find hfind
        exact Diagnostic.not_isMalformed_of_kind (by simp [hload]) (by simp [hload])
      · exact Plan.not_isMalformed_of_expand (Prod.ext rfl hresult)

/-- In a source with a stripped comment between two texts, the comment is of the style that opens
there, which the scan is about to go over after its first step. A run in which a file ends inside a
directive line fails for this reason. -/
theorem grammar_of_tokens_stripped :
    (∃ earlier between later,
      (Dialect.scan ⟨['#'], [CommentStyle.block.stripped true]⟩ "a/*b*/c".toList).segments =
        earlier ++ .text ⟨0, 1, 1⟩ ['a'] :: (between ++ .text ⟨6, 1, 7⟩ ['c'] :: later) ∧
      ∃ place style content, .comment place style content ∈ between ∧
        Styles.first? [CommentStyle.block.stripped true] ("a/*b*/c".toList.drop place.offset) =
          some style) ∧
    (∃ style, Styles.first? [CommentStyle.block.stripped true]
      ((Scanner.next ⟨['#'], [CommentStyle.block.stripped true]⟩)^[1]
        (.start "a/*b*/c".toList)).rest = some style) ∧
    ∃ session,
      runText .initial none (Catalogue.loader ⟨[("x", "b\n#include".toList)]⟩) "m"
        "a\n#include \"x\"\n".toList =
          (session, .error (.problem (.ofLexicalFault .unexpectedEnd ⟨"x", 2, 9⟩))) ∧
      ¬ (Diagnostic.ofLexicalFault .unexpectedEnd ⟨"x", 2, 9⟩).IsMalformed := by
  obtain ⟨-, htexts, hcomments, hmodes, hruns⟩ := grammar_of_tokens
  refine ⟨?_, ?_, ?_⟩
  · have htokens : Dialect.tokens ⟨['#'], [CommentStyle.block.stripped true]⟩ "a/*b*/c".toList =
        [] ++ ⟨.text ['a'], ⟨0, 1, 1⟩⟩ :: ⟨.text ['c'], ⟨6, 1, 7⟩⟩ ::
          [⟨.endOfInput, ⟨7, 1, 8⟩⟩] := by
      decide +kernel
    obtain ⟨earlier, between, later, hsplit, hne, hstripped⟩ := htexts _ _ _ _ _ _ _ _ htokens
    refine ⟨earlier, between, later, hsplit, ?_⟩
    obtain ⟨segment, hsegment⟩ := List.exists_mem_of_ne_nil between hne
    cases segment with
    | comment place style content =>
      have hmem : .comment place style content ∈ (Dialect.scan
          ⟨['#'], [CommentStyle.block.stripped true]⟩ "a/*b*/c".toList).segments := by
        rw [hsplit]
        exact List.mem_append_right _ (List.mem_cons_of_mem _ (List.mem_append_left _ hsegment))
      exact ⟨place, style, content, hsegment, (hcomments _ _ _ _ _ hmem).1⟩
    | _ => cases hstripped _ hsegment
  · have hmode : ((Scanner.next ⟨['#'], [CommentStyle.block.stripped true]⟩)^[1]
        (.start "a/*b*/c".toList)).mode = .comment := by
      decide +kernel
    exact hmodes _ _ _ hmode
  · have hfault : (runText .initial none (Catalogue.loader ⟨[("x", "b\n#include".toList)]⟩) "m"
        "a\n#include \"x\"\n".toList).2 =
          .error (.problem (.ofLexicalFault .unexpectedEnd ⟨"x", 2, 9⟩)) := by
      decide +kernel
    exact ⟨_, Prod.ext rfl hfault,
      hruns _ _ _ _ _ (Or.inl ⟨_, _, Prod.ext rfl hfault⟩)⟩

end Splice

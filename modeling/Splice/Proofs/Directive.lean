import Splice.Proofs.Failure
import Splice.Proofs.Placement
import Splice.Proofs.Tiling

/-!
# The grammar of directive lines

After its trigger, a directive line that is carried out is made of blanks, the name of a command,
blanks, a quoted string, blanks and a line end (`Line.Directs`). The first part of this module shows
that such a line is read as a word, a string and a line end, and that no other line is
(`Line.read_of_directs`, `Line.directs_of_read`). The second part is about a scan that stops at a
line with a trigger: either the line is of this form, and then its command is what the tokens from
there on ask for first, or there is a problem, and it is located on the line
(`Dialect.ofTokens_of_directs`, `Dialect.failsOn_of_not_directs`).
-/

namespace Splice

/-! ### Blanks -/

namespace Text

/-- A text of blanks only. -/
def AllBlank (s : Text) : Prop :=
  ∀ c ∈ s, isBlank c = true

/-- The blanks at the start of a text are blanks. -/
lemma allBlank_indent (s : Text) : AllBlank s.indent :=
  fun _ hc => isBlank_of_mem_indent hc

/-- Blanks that are followed by something else are the blanks at the start of a text. -/
lemma indent_append {blanks : Text} (hblanks : AllBlank blanks) {c : Char}
    (hc : isBlank c = false) (s : Text) : indent (blanks ++ c :: s) = blanks := by
  rw [indent, List.takeWhile_append_of_pos hblanks, List.takeWhile_cons_of_neg (by simp [hc]),
    List.append_nil]

/-- What comes after blanks that are followed by something else. -/
lemma unindent_append {blanks : Text} (hblanks : AllBlank blanks) {c : Char}
    (hc : isBlank c = false) (s : Text) : unindent (blanks ++ c :: s) = c :: s := by
  rw [unindent, List.dropWhile_append_of_pos hblanks, List.dropWhile_cons_of_neg (by simp [hc])]

/-- Blanks are no line ends. -/
lemma AllBlank.newline_notMem {blanks : Text} (h : AllBlank blanks) : '\n' ∉ blanks := by
  intro hmem
  exact absurd (h '\n' hmem) (by decide)

/-- Blanks are white space. -/
lemma isSpace_of_isBlank {c : Char} (h : isBlank c = true) : isSpace c = true := by
  simp only [isBlank, Bool.or_eq_true, beq_iff_eq] at h
  rcases h with rfl | rfl <;> decide

/-- What belongs to a word is neither a blank nor a line end nor a quote. -/
lemma ne_of_isWordChar {c : Char} (h : isWordChar c = true) :
    isBlank c = false ∧ c ≠ '\n' ∧ c ≠ '\r' ∧ c ≠ '"' := by
  refine ⟨?_, ?_, ?_, ?_⟩
  · rw [Bool.eq_false_iff]
    intro hblank
    simp only [isBlank, Bool.or_eq_true, beq_iff_eq] at hblank
    rcases hblank with rfl | rfl
    all_goals exact absurd h (by decide +kernel)
  all_goals
    rintro rfl
    exact absurd h (by decide +kernel)

end Text

/-- Going over a text without line ends leads to a place on the same line. -/
lemma Place.skip_line {s : Text} (h : '\n' ∉ s) (place : Place) :
    (place.skip s).line = place.line := by
  simp [skip, Text.newlines, List.count_eq_zero.2 h]

/-! ### Quoted strings -/

namespace QuotedString

/-- `Spells body value` says that `value` can be written as `body` between quotes: each character
stands for itself, and a backslash before it is left out. A quote and a backslash have a backslash
before them, and there is no line end. -/
inductive Spells : Text → Text → Prop where
  | nil : Spells [] []
  | plain {c : Char} {body value : Text} (hquote : c ≠ '"') (hslash : c ≠ '\\') (hline : c ≠ '\n')
    (htail : Spells body value) : Spells (c :: body) (c :: value)
  | escaped {c : Char} {body value : Text} (hline : c ≠ '\n') (htail : Spells body value) :
    Spells ('\\' :: c :: body) (c :: value)

/-- What is written between quotes is read up to the closing quote. -/
lemma read?_of_spells {body value : Text} (h : Spells body value) (rest : Text) :
    read? (body ++ '"' :: rest) = some ⟨value, body ++ ['"'], rest⟩ := by
  induction h with
  | nil => rfl
  | plain hquote hslash hline htail ih =>
    rw [List.cons_append, read?, if_neg (by simp [hline, hslash]), ih]
    · rfl
    · exact hquote
    · intro c s hc
      exact absurd hc hslash
  | escaped hline htail ih =>
    rw [List.cons_append, List.cons_append, read?, if_neg hline, ih]
    rfl

/-- What is read as a quoted string is written that way. The induction is on the characters as they
are read. -/
lemma exists_spells_of_read? {s : Text} {q : QuotedString} (h : read? s = some q) :
    ∃ body, Spells body q.value ∧ q.content = body ++ ['"'] := by
  fun_induction read? s generalizing q with
  | case1 => cases h
  | case2 s =>
    cases h
    exact ⟨[], .nil, rfl⟩
  | case3 => cases h
  | case4 c s hline ih =>
    obtain ⟨r, hr, rfl⟩ := Option.map_eq_some_iff.1 h
    obtain ⟨body, hbody, hcontent⟩ := ih hr
    exact ⟨'\\' :: c :: body, .escaped hline hbody, by rw [cons, hcontent]; rfl⟩
  | case5 => cases h
  | case6 c s hquote _ hplain ih =>
    obtain ⟨r, hr, rfl⟩ := Option.map_eq_some_iff.1 h
    obtain ⟨body, hbody, hcontent⟩ := ih hr
    obtain ⟨hline, hslash⟩ := not_or.1 hplain
    exact ⟨c :: body, .plain hquote hslash hline hbody, by rw [cons, hcontent]; rfl⟩

end QuotedString

/-! ### Commands -/

namespace Command

/-- The name of a command. -/
def name : Command → Text
  | splice => "include".toList
  | spliceOnce => "require".toList
  | stop => "error".toList

/-- A command is found by its name. -/
lemma ofName?_eq_some_iff {name : Text} {command : Command} :
    ofName? name = some command ↔ name = command.name := by
  unfold ofName?
  constructor
  · intro h
    split at h
    · cases h
      assumption
    · split at h
      · cases h
        assumption
      · split at h
        · cases h
          assumption
        · cases h
  · rintro rfl
    cases command <;> rfl

/-- The name of a command is a word. -/
lemma isWordChar_of_mem_name {command : Command} {c : Char} (h : c ∈ command.name) :
    Text.isWordChar c = true := by
  have hall : command.name.all Text.isWordChar = true := by
    cases command <;> decide +kernel
  exact List.all_eq_true.1 hall c h

/-- The name of a command is not empty. -/
lemma name_ne_nil (command : Command) : command.name ≠ [] := by
  cases command <;> decide

/-- What a command at a position asks for. -/
def item (argument : Text) (location : Position) : Command → Item
  | splice => .request ⟨String.ofList argument, location, false⟩
  | spliceOnce => .request ⟨String.ofList argument, location, true⟩
  | stop => .failure (.requested argument location)

/-- A command, its argument and its position can be told from what they ask for. -/
lemma item_inj {command other : Command} {argument content : Text} {location place : Position}
    (h : command.item argument location = other.item content place) :
    command = other ∧ argument = content ∧ location = place := by
  cases command <;> cases other <;>
    simp_all [item, Diagnostic.requested, String.ofList_inj]

/-- A problem of a directive line is no command. -/
lemma item_ne_failure {command : Command} {argument : Text} {location : Position}
    {diagnostic : Diagnostic} (h : diagnostic.kind ≠ .requested) :
    command.item argument location ≠ .failure diagnostic := by
  intro hitem
  cases command with
  | splice => cases hitem
  | spliceOnce => cases hitem
  | stop =>
    cases hitem
    exact h rfl

end Command

/-! ### Directive lines -/

namespace Line

/-- `Directs command argument line` says that `line` is what stands after the trigger of a directive
line with this command and argument, the line end included: the name of the command and a quoted
string, with any blanks before, between and after them. -/
inductive Directs (command : Command) (argument : Text) : Text → Prop where
  | line {before between body after mark : Text} (hbefore : before.AllBlank)
    (hbetween : between.AllBlank) (hbody : QuotedString.Spells body argument)
    (hafter : after.AllBlank) (hmark : IsLineEnd mark) :
    Directs command argument
      (before ++ (command.name ++ (between ++ '"' :: (body ++ '"' :: (after ++ mark)))))

/-- A word that is followed by what belongs to no word. -/
lemma step_of_word {blanks name rest : Text} (hblanks : blanks.AllBlank) (hname : name ≠ [])
    (hword : ∀ c ∈ name, Text.isWordChar c = true)
    (hrest : ∀ c ∈ rest.head?, Text.isWordChar c = false) (place : Place) :
    step place (blanks ++ (name ++ rest)) =
      .token ⟨.word name, place.skip blanks⟩ (blanks ++ name) rest := by
  obtain ⟨c, name, rfl⟩ := List.exists_cons_of_ne_nil hname
  obtain ⟨hblank, hfeed, hreturn, hquote⟩ := Text.ne_of_isWordChar (hword c List.mem_cons_self)
  have htail : ∀ x ∈ name, Text.isWordChar x = true :=
    fun x hx => hword x (List.mem_cons_of_mem c hx)
  have hstop : rest.takeWhile Text.isWordChar = [] ∧ rest.dropWhile Text.isWordChar = rest := by
    cases rest with
    | nil => exact ⟨rfl, rfl⟩
    | cons d rest => simp [hrest d rfl]
  rw [step, List.cons_append, Text.indent_append hblanks hblank,
    Text.unindent_append hblanks hblank]
  split
  · rename_i heq
    cases heq
  · rename_i heq
    exact absurd (List.cons.inj heq).1 hfeed
  · rename_i heq
    exact absurd (List.cons.inj heq).1 hreturn
  · rename_i heq
    exact absurd (List.cons.inj heq).1 hreturn
  · rename_i heq
    exact absurd (List.cons.inj heq).1 hquote
  · rename_i heq
    obtain ⟨rfl, rfl⟩ := List.cons.inj heq
    rw [if_pos (hword c List.mem_cons_self), List.takeWhile_append_of_pos htail,
      List.dropWhile_append_of_pos htail, hstop.1, hstop.2, List.append_nil]

/-- A quoted string. -/
lemma step_of_spells {blanks body value : Text} (hblanks : blanks.AllBlank)
    (hbody : QuotedString.Spells body value) (place : Place) (rest : Text) :
    step place (blanks ++ '"' :: (body ++ '"' :: rest)) =
      .token ⟨.quoted value, place.skip blanks⟩ (blanks ++ '"' :: (body ++ ['"'])) rest := by
  have hquote : Text.isBlank '"' = false := by decide
  rw [step, Text.indent_append hblanks hquote, Text.unindent_append hblanks hquote]
  simp only [QuotedString.read?_of_spells hbody]

/-- The end of a line. -/
lemma step_of_lineEnd {blanks mark : Text} (hblanks : blanks.AllBlank) (hmark : IsLineEnd mark)
    (place : Place) (rest : Text) :
    step place (blanks ++ (mark ++ rest)) =
      .close ⟨.lineEnd mark, place.skip blanks⟩ (blanks ++ mark) rest := by
  rcases hmark with rfl | rfl
  · have hfeed : Text.isBlank '\n' = false := by decide
    rw [step, List.singleton_append, Text.indent_append hblanks hfeed,
      Text.unindent_append hblanks hfeed]
    rfl
  · have hreturn : Text.isBlank '\r' = false := by decide
    rw [step, List.cons_append, Text.indent_append hblanks hreturn,
      Text.unindent_append hblanks hreturn]
    rfl

/-- A line of this form is read as a word, a string and a line end. -/
lemma read_of_directs {command : Command} {argument line : Text}
    (h : Directs command argument line) (place : Place) (rest : Text) :
    ∃ p q r mark, read place (line ++ rest) =
      .complete [⟨.word command.name, p⟩, ⟨.quoted argument, q⟩, ⟨.lineEnd mark, r⟩] line rest := by
  obtain @⟨before, between, body, after, mark, hbefore, hbetween, hbody, hafter, hmark⟩ := h
  have hnext : ∀ c ∈ (between ++ '"' :: (body ++ '"' :: (after ++ (mark ++ rest)))).head?,
      Text.isWordChar c = false := by
    intro c hc
    rw [Bool.eq_false_iff]
    intro hword
    obtain ⟨hblank, -, -, hquote⟩ := Text.ne_of_isWordChar hword
    cases between with
    | nil => exact hquote (Option.some.inj hc).symm
    | cons d between =>
      obtain rfl : d = c := Option.some.inj hc
      rw [hbetween d List.mem_cons_self] at hblank
      cases hblank
  set p := place.skip (before ++ command.name)
  set q := p.skip (between ++ '"' :: (body ++ ['"']))
  have hword := step_of_word hbefore command.name_ne_nil
    (fun c hc => Command.isWordChar_of_mem_name hc) hnext place
  have hstring := step_of_spells hbetween hbody p (after ++ (mark ++ rest))
  have hend := step_of_lineEnd hafter hmark q rest
  have hsource : before ++ (command.name ++ (between ++ '"' :: (body ++ '"' :: (after ++ mark)))) ++
      rest = before ++ (command.name ++ (between ++ '"' :: (body ++ '"' :: (after ++
        (mark ++ rest))))) := by
    simp only [List.append_assoc, List.cons_append]
  refine ⟨place.skip before, p.skip between, q.skip after, mark, ?_⟩
  rw [hsource, read_of_token hword, read_of_token hstring, read_of_close hend]
  simp only [Reading.cons, List.append_assoc, List.cons_append, List.nil_append]

/-- What one step of reading a directive line can find, with the text that it covers. -/
inductive Finds (place : Place) (source : Text) : Step → Prop where
  /-- A word. -/
  | word (name rest : Text) :
    Finds place source
      (.token ⟨.word name, place.skip source.indent⟩ (source.indent ++ name) rest)
  /-- A quoted string. -/
  | quoted (body value rest : Text) (hbody : QuotedString.Spells body value) :
    Finds place source
      (.token ⟨.quoted value, place.skip source.indent⟩
        (source.indent ++ '"' :: (body ++ ['"'])) rest)
  /-- The end of the line. -/
  | lineEnd (mark rest : Text) (hmark : IsLineEnd mark) :
    Finds place source
      (.close ⟨.lineEnd mark, place.skip source.indent⟩ (source.indent ++ mark) rest)
  /-- A problem. -/
  | fault (problem : LexicalFault) :
    Finds place source (.fault problem (place.skip source.indent))

/-- Every step finds one of these. -/
lemma finds_step (place : Place) (source : Text) : Finds place source (step place source) := by
  unfold step
  split
  · exact .fault _
  · exact .lineEnd _ _ (Or.inl rfl)
  · exact .lineEnd _ _ (Or.inr rfl)
  · exact .fault _
  · split
    · rename_i q hq
      obtain ⟨body, hbody, hcontent⟩ := QuotedString.exists_spells_of_read? hq
      rw [hcontent]
      exact .quoted body q.value q.rest hbody
    · exact .fault _
  · split
    · exact .word _ _
    · exact .fault _

/-- A line that is read begins with a word or string and is read on, or is at its end. -/
lemma step_of_read {place : Place} {source : Text} {token : Token} {tokens : List Token}
    {content rest : Text} (h : read place source = .complete (token :: tokens) content rest) :
    tokens = [] ∧ step place source = .close token content rest ∨
      ∃ cover more left, step place source = .token token cover left ∧
        read (place.skip cover) left = .complete tokens more rest ∧ content = cover ++ more := by
  rw [read] at h
  split at h
  · rename_i found cover left hstep
    cases hlater : read (place.skip cover) left with
    | complete tokens' more rest' =>
      rw [hlater] at h
      cases h
      exact Or.inr ⟨cover, more, left, hstep, hlater, rfl⟩
    | broken tokens' fault there =>
      rw [hlater] at h
      cases h
  · cases h
    exact Or.inl ⟨rfl, by assumption⟩
  · cases h

/-- A line that is read as a word, a string and a line end, with a command as the word, is of the
form. -/
lemma directs_of_read {command : Command} {place p q r : Place}
    {source argument mark content rest : Text}
    (h : read place source = .complete
      [⟨.word command.name, p⟩, ⟨.quoted argument, q⟩, ⟨.lineEnd mark, r⟩] content rest) :
    Directs command argument content := by
  rcases step_of_read h with ⟨hnone, -⟩ | ⟨cover, more, left, hword, hread, rfl⟩
  · cases hnone
  rcases step_of_read hread with ⟨hnone, -⟩ | ⟨cover', more', left', hstring, hread', rfl⟩
  · cases hnone
  rcases step_of_read hread' with ⟨-, hend⟩ | ⟨_, _, _, hother, -, -⟩
  swap
  · cases (step_token hother).1
  have hfirst := finds_step place source
  have hsecond := finds_step (place.skip cover) left
  have hthird := finds_step ((place.skip cover).skip cover') left'
  rw [hword] at hfirst
  rw [hstring] at hsecond
  rw [hend] at hthird
  cases hfirst with
  | word => cases hsecond with
    | quoted body _ _ hbody => cases hthird with
      | lineEnd _ _ hmark =>
        have hline : Directs command argument _ := .line (Text.allBlank_indent source)
          (Text.allBlank_indent left) hbody (Text.allBlank_indent left') hmark
        simpa only [List.append_assoc, List.cons_append, List.nil_append] using hline

/-- Whatever is found in a directive line stands on this line. The induction is on the steps, none
of which goes over a line end before the last. -/
lemma line_of_mem_places {place other : Place} {source : Text}
    (h : other ∈ (read place source).places) : other.line = place.line := by
  have hplace := place_step place source
  have hhere := Place.skip_line (Text.newline_notMem_indent source) place
  fun_induction read place source with
  | case1 place source token cover rest hstep ih =>
    rw [hstep] at hplace
    rw [Reading.places_cons] at h
    rcases List.mem_cons.1 h with rfl | hlater
    · exact (congrArg Place.line hplace).trans hhere
    · have hcover := Place.skip_line (step_token hstep).2.1 place
      rw [← hcover]
      exact ih hlater (place_step _ _) (Place.skip_line (Text.newline_notMem_indent _) _)
  | case2 place source token cover rest hstep =>
    rw [hstep] at hplace
    rw [List.mem_singleton.1 h]
    exact (congrArg Place.line hplace).trans hhere
  | case3 place source fault here hstep =>
    rw [hstep] at hplace
    rw [List.mem_singleton.1 h]
    exact (congrArg Place.line hplace).trans hhere

end Line

/-! ### Lines with a trigger -/

namespace Item

/-- The items are a problem with the characters or the tokens of a directive line, located on a line
of the named source, and nothing else. -/
def FailsOn (name : String) (line : Int) (items : List Item) : Prop :=
  ∃ diagnostic column, items = [.failure diagnostic] ∧
    (diagnostic.kind = .lexical ∨ diagnostic.kind = .directive) ∧
    diagnostic.location = some ⟨name, line, column⟩

/-- A problem that is found at a token of a line is located on the line. -/
lemma FoundAt.failsOn {name : String} {token : Token} {diagnostic : Diagnostic} {line : Int}
    (h : FoundAt name token diagnostic) (hline : token.place.line = line) :
    FailsOn name line [.failure diagnostic] := by
  cases h with
  | lexical hfault => exact ⟨_, token.place.column, rfl, Or.inl rfl, by rw [← hline]; rfl⟩
  | directive hfault => exact ⟨_, token.place.column, rfl, Or.inr rfl, by rw [← hline]; rfl⟩

/-- A problem is no command. -/
lemma FailsOn.ne_command {name : String} {line : Int} {items rest : List Item} {command : Command}
    {argument : Text} {location : Position} (h : FailsOn name line items) :
    items ≠ command.item argument location :: rest := by
  obtain ⟨diagnostic, column, rfl, hkind, -⟩ := h
  intro hitems
  refine Command.item_ne_failure ?_ (List.cons.inj hitems).1.symm
  rcases hkind with hkind | hkind <;> simp [hkind]

/-- A trigger, the name of a command, a string and a line end ask for what the command says. -/
lemma exists_ofTokens_of_command (name : String) (command : Command) (argument mark tail : Text)
    (start p q r : Place) (rest : List Token) :
    ∃ items, ofTokens name (⟨.trigger mark, start⟩ :: ⟨.word command.name, p⟩ ::
        ⟨.quoted argument, q⟩ :: ⟨.lineEnd tail, r⟩ :: rest) =
      command.item argument (start.position name) :: items := by
  have hcommand := Command.ofName?_eq_some_iff.2 (Eq.refl command.name)
  rw [ofTokens, hcommand]
  cases command <;> exact ⟨_, rfl⟩

/-- What a command asks for is located at a trigger. -/
lemma exists_trigger_of_command {name : String} {tokens : List Token} {command : Command}
    {argument : Text} {location : Position}
    (h : command.item argument location ∈ ofTokens name tokens) :
    ∃ mark place, ⟨.trigger mark, place⟩ ∈ tokens ∧ location = place.position name := by
  have hfrom := comesFrom_of_mem h
  cases command with
  | splice => cases hfrom with
    | request _ _ hmem => exact ⟨_, _, hmem, rfl⟩
  | spliceOnce => cases hfrom with
    | request _ _ hmem => exact ⟨_, _, hmem, rfl⟩
  | stop =>
    generalize hitem : Command.stop.item argument location = item at hfrom
    cases hfrom with
    | requested message hmem =>
      have hsame : Command.stop.item argument location = Command.stop.item message _ := hitem
      exact ⟨_, _, hmem, (Command.item_inj hsame).2.2⟩
    | fault hkind hlocated =>
      refine absurd hitem (Command.item_ne_failure ?_)
      rcases hkind with hkind | hkind <;> simp [hkind]
    | _ => cases hitem

end Item

namespace Dialect

/-- A trigger that can stand after blanks and be told from them: it is not empty and holds no white
space. -/
structure HasTrigger (dialect : Dialect) : Prop where
  ne_nil : dialect.trigger ≠ []
  no_space : dialect.trigger.any Text.isSpace = false

/-- A trigger holds no line end. -/
lemma HasTrigger.newline_notMem {dialect : Dialect} (h : dialect.HasTrigger) :
    '\n' ∉ dialect.trigger :=
  Text.newline_notMem_of_no_space h.no_space

/-- A trigger begins with what is no blank. -/
lemma HasTrigger.exists_cons {dialect : Dialect} (h : dialect.HasTrigger) :
    ∃ c rest, dialect.trigger = c :: rest ∧ Text.isBlank c = false := by
  obtain ⟨c, rest, htrigger⟩ := List.exists_cons_of_ne_nil h.ne_nil
  refine ⟨c, rest, htrigger, ?_⟩
  rw [Bool.eq_false_iff]
  intro hblank
  have hspace : dialect.trigger.any Text.isSpace = true := by
    rw [htrigger]
    simp [Text.isSpace_of_isBlank hblank]
  rw [h.no_space] at hspace
  cases hspace

section Trigger

variable {dialect : Dialect} {place : Place} {blanks : Text} (htrigger : dialect.HasTrigger)
  (hblanks : blanks.AllBlank)

include htrigger hblanks

/-- The blanks before a trigger are those at the start of the text. -/
lemma indent_of_trigger (after : Text) :
    Text.indent (blanks ++ (dialect.trigger ++ after)) = blanks := by
  obtain ⟨c, rest, hcons, hc⟩ := htrigger.exists_cons
  rw [hcons]
  exact Text.indent_append hblanks hc _

/-- The trigger comes after the blanks. -/
lemma unindent_of_trigger (after : Text) :
    Text.unindent (blanks ++ (dialect.trigger ++ after)) = dialect.trigger ++ after := by
  obtain ⟨c, rest, hcons, hc⟩ := htrigger.exists_cons
  rw [hcons]
  exact Text.unindent_append hblanks hc _

/-- At the start of a line, blanks and a trigger are a directive line or a shebang. -/
lemma step_of_trigger (hstart : place.isLineStart = true) (after : Text) :
    dialect.step place (blanks ++ (dialect.trigger ++ after)) =
      dialect.directive place (blanks ++ (dialect.trigger ++ after)) := by
  have hevent : dialect.event? place.isLineStart (blanks ++ (dialect.trigger ++ after)) =
      some .directive := by
    have hunindent := unindent_of_trigger htrigger hblanks after
    cases hsource : blanks ++ (dialect.trigger ++ after) with
    | nil => simp [htrigger.ne_nil] at hsource
    | cons c s =>
      rw [hsource] at hunindent
      rw [event?, hstart, hunindent]
      simp
  simp only [step, hevent]

/-- A trigger and an exclamation mark on another line than the first end the scan. -/
lemma step_of_misplaced (hstart : place.isLineStart = true)
    (hline : (place.skip blanks).line ≠ 1) (after : Text) :
    dialect.step place (blanks ++ (dialect.trigger ++ '!' :: after)) =
      .ending (.broken [] .misplacedShebang (place.skip blanks)) := by
  rw [step_of_trigger htrigger hblanks hstart, directive,
    indent_of_trigger htrigger hblanks, unindent_of_trigger htrigger hblanks, List.drop_left]
  simp [hline]

/-- A trigger and an exclamation mark on the first line are a shebang line. -/
lemma step_of_shebang (hstart : place.isLineStart = true)
    (hline : (place.skip blanks).line = 1) (after : Text) :
    dialect.step place (blanks ++ (dialect.trigger ++ '!' :: after)) =
      .segment (.shebang place (blanks ++ (dialect.trigger ++ '!' :: after).through ['\n']))
        ((dialect.trigger ++ '!' :: after).drop
          ((dialect.trigger ++ '!' :: after).through ['\n']).length) := by
  rw [step_of_trigger htrigger hblanks hstart, directive,
    indent_of_trigger htrigger hblanks, unindent_of_trigger htrigger hblanks, List.drop_left]
  simp [hline]

/-- A trigger with a line after it that is read is a directive line. -/
lemma step_of_complete (hstart : place.isLineStart = true) {after : Text}
    (hbang : ¬ ['!'] <+: after) {tokens : List Token} {content rest : Text}
    (hread : Line.read ((place.skip blanks).skip dialect.trigger) after =
      .complete tokens content rest) :
    dialect.step place (blanks ++ (dialect.trigger ++ after)) =
      .segment (.directive place (blanks ++ dialect.trigger ++ content)
        (⟨.trigger dialect.trigger, place.skip blanks⟩ :: tokens)) rest := by
  have hplain : ¬ ['!'].isPrefixOf after = true := fun h => hbang (List.isPrefixOf_iff_prefix.1 h)
  rw [step_of_trigger htrigger hblanks hstart, directive,
    indent_of_trigger htrigger hblanks, unindent_of_trigger htrigger hblanks, List.drop_left]
  simp only [if_neg hplain, hread]

/-- A trigger with a line after it that cannot be read ends the scan. -/
lemma step_of_broken (hstart : place.isLineStart = true) {after : Text}
    (hbang : ¬ ['!'] <+: after) {tokens : List Token} {fault : LexicalFault} {there : Place}
    (hread : Line.read ((place.skip blanks).skip dialect.trigger) after =
      .broken tokens fault there) :
    dialect.step place (blanks ++ (dialect.trigger ++ after)) =
      .ending (.broken (⟨.trigger dialect.trigger, place.skip blanks⟩ :: tokens) fault there) := by
  have hplain : ¬ ['!'].isPrefixOf after = true := fun h => hbang (List.isPrefixOf_iff_prefix.1 h)
  rw [step_of_trigger htrigger hblanks hstart, directive,
    indent_of_trigger htrigger hblanks, unindent_of_trigger htrigger hblanks, List.drop_left]
  simp only [if_neg hplain, hread]

/-- What is asked for first at a line of the right form is what its command says. -/
lemma ofTokens_of_directs (hstart : place.isLineStart = true) {command : Command}
    {argument line rest : Text} (hline : Line.Directs command argument line)
    (hbang : ¬ ['!'] <+: line ++ rest) (name : String) :
    ∃ items, Item.ofTokens name
        (dialect.scanFrom place (blanks ++ (dialect.trigger ++ (line ++ rest)))).tokens =
      command.item argument ((place.skip blanks).position name) :: items := by
  obtain ⟨p, q, r, mark, hread⟩ :=
    Line.read_of_directs hline ((place.skip blanks).skip dialect.trigger) rest
  rw [scanFrom_eq_cons (step_of_complete htrigger hblanks hstart hbang hread), Scan.tokens_cons]
  exact Item.exists_ofTokens_of_command name command argument _ mark _ p q r _

/-- A line that is not of the right form is a problem, located on this line. -/
lemma failsOn_of_not_directs (hstart : place.isLineStart = true) {after : Text}
    (hbang : ¬ ['!'] <+: after)
    (hnone : ∀ command argument line rest, after = line ++ rest →
      ¬ Line.Directs command argument line) (name : String) :
    Item.FailsOn name (place.skip blanks).line (Item.ofTokens name
      (dialect.scanFrom place (blanks ++ (dialect.trigger ++ after))).tokens) := by
  have hsame : ((place.skip blanks).skip dialect.trigger).line = (place.skip blanks).line :=
    Place.skip_line htrigger.newline_notMem _
  have hplaces {other : Place}
      (h : other ∈ (Line.read ((place.skip blanks).skip dialect.trigger) after).places) :
      other.line = (place.skip blanks).line := (Line.line_of_mem_places h).trans hsame
  cases hread : Line.read ((place.skip blanks).skip dialect.trigger) after with
  | broken arguments fault there =>
    rw [hread] at hplaces
    have harguments := Line.read_broken hread
    have hclosing : Token.Closes ⟨.invalid fault, there⟩ :=
      Or.inr ⟨fault, rfl, (Line.fault_of_read hread).2⟩
    obtain ⟨token, hmem, hfound⟩ := Item.exists_foundAt_fault harguments hclosing []
    rw [scanFrom_eq_ending (step_of_broken htrigger hblanks hstart hbang hread)]
    show Item.FailsOn _ _ (Item.ofTokens name (⟨.trigger dialect.trigger, place.skip blanks⟩ ::
      arguments ++ [⟨.invalid fault, there⟩]))
    rw [Item.ofTokens_of_broken harguments]
    have hplaced := List.mem_map_of_mem (f := Token.place) hmem
    rw [List.map_append] at hplaced
    exact hfound.failsOn (hplaces hplaced)
  | complete tokens content rest =>
    rw [hread] at hplaces
    have hafter := (Line.read_eq_complete hread).1
    obtain ⟨arguments, body, mark, rfl, -, hmark, rfl, hinside⟩ := Line.read_complete hread
    have harguments : ∀ token ∈ arguments, token.isArgument = true :=
      fun token hmem => (hinside token hmem).1
    set closing : Token :=
      ⟨.lineEnd mark, ((place.skip blanks).skip dialect.trigger).skip body⟩
    have hclosing : closing.Closes := Or.inl ⟨mark, rfl⟩
    rw [scanFrom_eq_cons (step_of_complete htrigger hblanks hstart hbang hread), Scan.tokens_cons,
      Segment.tokens, List.cons_append, List.append_assoc, List.singleton_append]
    by_cases hshape : ∃ word p argument q,
        arguments = [⟨.word word, p⟩, ⟨.quoted argument, q⟩]
    · obtain ⟨word, p, argument, q, rfl⟩ := hshape
      cases hcommand : Command.ofName? word with
      | none =>
        have hfound : Item.FoundAt name ⟨.word word, p⟩
            (.ofDirectiveFault (.unknownCommand word) (p.position name)) := .directive (by simp)
        rw [List.cons_append, Item.ofTokens_of_unknown hcommand]
        exact hfound.failsOn (hplaces List.mem_cons_self)
      | some command =>
        obtain rfl := Command.ofName?_eq_some_iff.1 hcommand
        exact absurd (Line.directs_of_read hread) (hnone command argument _ rest hafter.symm)
    · obtain ⟨token, hmem, hfound⟩ := Item.exists_foundAt_fault harguments hclosing
        (dialect.scanFrom _ rest).tokens
      rw [Item.ofTokens_of_not_directive harguments hclosing
        (fun word p argument q heq => hshape ⟨word, p, argument, q, heq⟩)]
      exact hfound.failsOn (hplaces (List.mem_map_of_mem hmem))

/-- A shebang on another line than the first is a problem, located on this line. -/
lemma failsOn_of_misplaced (hstart : place.isLineStart = true)
    (hline : (place.skip blanks).line ≠ 1) (after : Text) (name : String) :
    Item.FailsOn name (place.skip blanks).line (Item.ofTokens name
      (dialect.scanFrom place (blanks ++ (dialect.trigger ++ '!' :: after))).tokens) := by
  rw [scanFrom_eq_ending (step_of_misplaced htrigger hblanks hstart hline after)]
  have hfound : Item.FoundAt name ⟨.invalid .misplacedShebang, place.skip blanks⟩
      (.ofLexicalFault .misplacedShebang ((place.skip blanks).position name)) :=
    .lexical (by simp)
  exact hfound.failsOn rfl

/-- A shebang line asks for nothing, and what comes after it is on later lines. -/
lemma ofTokens_of_shebang (hstart : place.isLineStart = true)
    (hline : (place.skip blanks).line = 1) (after : Text) (name : String) (command : Command)
    (argument : Text) (items : List Item) :
    Item.ofTokens name
        (dialect.scanFrom place (blanks ++ (dialect.trigger ++ '!' :: after))).tokens ≠
      command.item argument ((place.skip blanks).position name) :: items := by
  intro hitems
  rw [scanFrom_eq_cons (step_of_shebang htrigger hblanks hstart hline after), Scan.tokens_cons,
    Segment.tokens, List.nil_append] at hitems
  have hmem := hitems ▸ List.mem_cons_self
  obtain ⟨mark, there, htoken, hlocation⟩ := Item.exists_trigger_of_command hmem
  obtain ⟨passed, -, rfl⟩ := reaches_of_mem_scanFrom htoken
  have hlines : Place.line _ = (place.skip blanks).line := (congrArg Position.line hlocation).symm
  obtain ⟨body, tail, hbody, -, rfl | ⟨-, hall⟩⟩ :=
    Text.exists_through_newline (dialect.trigger ++ '!' :: after)
  · -- the line end of the shebang line comes before the other lines
    have hblank : Text.newlines blanks = 0 := List.count_eq_zero.2 hblanks.newline_notMem
    have hnew : Text.newlines ['\n'] = 1 := rfl
    rw [Segment.content, hbody] at hlines
    simp only [Place.skip, Text.newlines_append, hblank, hnew] at hlines
    omega
  · rw [hall, List.drop_length] at htoken
    have hnone : dialect.step (place.skip (Segment.shebang place (blanks ++
        (dialect.trigger ++ '!' :: after))).content) [] = .ending (.complete _) := rfl
    rw [scanFrom_eq_ending hnone] at htoken
    cases List.mem_singleton.1 htoken

end Trigger

end Dialect

end Splice

import Splice.Proofs.Token

/-!
# Quoted strings

The grammar of what stands between the quotes of a string is `QuotedString.Spells`: characters for
themselves, and characters after a backslash. At an opening quote, reading a directive line finds a
string exactly if the text after the quote starts with what is spelled by this grammar and a closing
quote, and else it finds that the string is not closed (`Line.step_quote_iff`,
`Line.step_quote_eq_fault_iff`). Every text without line ends can be written as a string, with a
backslash before each quote and each backslash (`QuotedString.spells_escape`), and no other text
ever comes out of one.
-/

namespace Splice

namespace QuotedString

/-- A text as it is written between quotes: a quote and a backslash have a backslash before them. -/
def escape (value : Text) : Text :=
  value.flatMap fun c => if c = '"' ∨ c = '\\' then ['\\', c] else [c]

/-- A text without line ends can be written between quotes. -/
lemma spells_escape {value : Text} (h : '\n' ∉ value) : Spells (escape value) value := by
  induction value with
  | nil => exact .nil
  | cons c value ih =>
    obtain ⟨hline, hlater⟩ := not_or.1 (mt List.mem_cons.2 h)
    have htail := ih hlater
    rw [escape, List.flatMap_cons]
    split
    · exact .escaped (Ne.symm hline) htail
    · rename_i hplain
      obtain ⟨hquote, hslash⟩ := not_or.1 hplain
      exact .plain hquote hslash (Ne.symm hline) htail

/-- What is written between quotes has no line end. -/
lemma Spells.newline_notMem {body value : Text} (h : Spells body value) : '\n' ∉ value := by
  induction h with
  | nil => exact List.not_mem_nil
  | plain _ _ hline _ ih => exact List.not_mem_cons_of_ne_of_not_mem (Ne.symm hline) ih
  | escaped hline _ ih => exact List.not_mem_cons_of_ne_of_not_mem (Ne.symm hline) ih

/-- A string is read exactly if it is written up to a closing quote. -/
lemma read?_eq_some_iff {s : Text} {q : QuotedString} :
    read? s = some q ↔ ∃ body, Spells body q.value ∧ q.content = body ++ ['"'] ∧
      s = body ++ '"' :: q.rest := by
  constructor
  · intro h
    obtain ⟨body, hbody, hcontent⟩ := exists_spells_of_read? h
    refine ⟨body, hbody, hcontent, ?_⟩
    rw [← content_append_rest h, hcontent, List.append_assoc, List.singleton_append]
  · rintro ⟨body, hbody, hcontent, rfl⟩
    rw [read?_of_spells hbody, ← hcontent]

end QuotedString

namespace Line

open QuotedString

/-- What is found at an opening quote is a string or that it is not closed. -/
lemma step_quote (place : Place) (s : Text) :
    step place ('"' :: s) =
      match read? s with
      | some q => .token ⟨.quoted q.value, place⟩ ('"' :: q.content) q.rest
      | none => .fault .unterminatedQuote place := by
  have hindent : Text.indent ('"' :: s) = [] := rfl
  have hunindent : Text.unindent ('"' :: s) = '"' :: s := rfl
  rw [step, hindent, hunindent, Place.skip_nil]
  rfl

/-- At an opening quote a string is found exactly if it is written up to a closing quote. It covers
both quotes and what is between them. -/
lemma step_quote_iff {place : Place} {s value content rest : Text} :
    step place ('"' :: s) = .token ⟨.quoted value, place⟩ content rest ↔
      ∃ body, Spells body value ∧ content = '"' :: (body ++ ['"']) ∧ s = body ++ '"' :: rest := by
  rw [step_quote]
  constructor
  · intro h
    split at h
    · rename_i q hq
      cases h
      obtain ⟨body, hbody, hcontent, hs⟩ := read?_eq_some_iff.1 hq
      exact ⟨body, hbody, by rw [hcontent], hs⟩
    · cases h
  · rintro ⟨body, hbody, rfl, rfl⟩
    rw [read?_of_spells hbody]

/-- At an opening quote it is found that the string is not closed exactly if nothing is written up
to a closing quote. -/
lemma step_quote_eq_fault_iff {place : Place} {s : Text} :
    step place ('"' :: s) = .fault .unterminatedQuote place ↔
      ∀ body value rest, Spells body value → s ≠ body ++ '"' :: rest := by
  rw [step_quote]
  constructor
  · rintro h body value rest hbody rfl
    rw [read?_of_spells hbody] at h
    cases h
  · intro h
    split
    · rename_i q hq
      obtain ⟨body, hbody, -, hs⟩ := read?_eq_some_iff.1 hq
      exact absurd hs (h body q.value q.rest hbody)
    · rfl

end Line

/-- A string among the tokens of a source is written there between quotes. -/
lemma Dialect.exists_spells_of_mem_tokens {dialect : Dialect} {source value : Text} {place : Place}
    (h : ⟨.quoted value, place⟩ ∈ dialect.tokens source) :
    ∃ body, QuotedString.Spells body value := by
  obtain ⟨-, -, -, -, body, hbody, -⟩ := (dialect.spread_scanFrom .start source).exists_passed h
  exact ⟨body, hbody⟩

/-- **Strings are read as they are written.** At every opening quote, wherever it stands, a string
is found exactly if the text after the quote starts with characters other than a quote, a backslash
and a line end, and with any other character than a line end after a backslash, and then has a
closing quote. The value of the string is these characters without the backslashes before them, and
reading goes on right after the closing quote. Otherwise the quote is found to be unterminated, at
its own place. So every text without line ends comes back when it is written with a backslash before
each quote and each backslash, whatever follows, and the strings among the tokens of a source have
no line ends. -/
theorem quoted_strings_read_as_written :
    (∀ (place : Place) (s value content rest : Text),
      Line.step place ('"' :: s) = .token ⟨.quoted value, place⟩ content rest ↔
        ∃ body, QuotedString.Spells body value ∧ content = '"' :: (body ++ ['"']) ∧
          s = body ++ '"' :: rest) ∧
    (∀ (place : Place) (s : Text),
      (∀ body value rest, QuotedString.Spells body value → s ≠ body ++ '"' :: rest) ↔
        Line.step place ('"' :: s) = .fault .unterminatedQuote place) ∧
    (Lexeme.invalid .unterminatedQuote).value = "unterminated quoted string".toList ∧
    (∀ (place : Place) (value rest : Text), '\n' ∉ value →
      Line.step place ('"' :: (QuotedString.escape value ++ '"' :: rest)) =
        .token ⟨.quoted value, place⟩ ('"' :: (QuotedString.escape value ++ ['"'])) rest) ∧
    ∀ (dialect : Dialect) (source value : Text) (place : Place),
      ⟨.quoted value, place⟩ ∈ dialect.tokens source → '\n' ∉ value := by
  refine ⟨?_, ?_, rfl, ?_, ?_⟩
  · intro place s value content rest
    exact Line.step_quote_iff
  · intro place s
    exact Line.step_quote_eq_fault_iff.symm
  · intro place value rest hvalue
    exact Line.step_quote_iff.2 ⟨_, QuotedString.spells_escape hvalue, rfl, rfl⟩
  · intro dialect source value place hmem
    obtain ⟨body, hbody⟩ := Dialect.exists_spells_of_mem_tokens hmem
    exact hbody.newline_notMem

/-- A string with a quote and a backslash is read, a string whose last backslash stands before a
line end is not closed, and a string among tokens has no line end. -/
theorem quoted_strings_read_as_written_escaped :
    QuotedString.escape "a\"\\".toList = "a\\\"\\\\".toList ∧
      Line.step .start "\"a\\\"\\\\\"\"\n".toList =
        .token ⟨.quoted "a\"\\".toList, .start⟩ "\"a\\\"\\\\\"".toList "\"\n".toList ∧
      Line.step .start "\"a\\\n\"".toList = .fault .unterminatedQuote .start ∧
      (∀ body value rest, QuotedString.Spells body value →
        "a\\\n\"".toList ≠ body ++ '"' :: rest) ∧
      ⟨.quoted ['"'], ⟨9, 1, 10⟩⟩ ∈ Dialect.tokens ⟨['#'], []⟩ "#include \"\\\"\"\n".toList ∧
      '\n' ∉ ['"'] := by
  obtain ⟨-, hfault, -, hescape, hvalue⟩ := quoted_strings_read_as_written
  have hopen : Line.step .start "\"a\\\n\"".toList = .fault .unterminatedQuote .start := rfl
  have hmem : ⟨.quoted ['"'], ⟨9, 1, 10⟩⟩ ∈
      Dialect.tokens ⟨['#'], []⟩ "#include \"\\\"\"\n".toList := by
    decide +kernel
  refine ⟨by decide, ?_, hopen, ?_, hmem, ?_⟩
  · exact hescape .start "a\"\\".toList "\"\n".toList (by decide)
  · exact (hfault .start _).2 hopen
  · exact hvalue _ _ _ _ hmem

end Splice

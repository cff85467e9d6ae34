import Mathlib.Tactic.Common
import Splice.Json.Printer
import Splice.Json.Token

/-!
# The tokens of what is written

A string or a whole number is written so that it is found again as one token. For strings this goes
character by character: what is written for one stands for parts (`Json.ReadsAs`) that are assembled
to this character again, whatever parts come after it (`Json.exists_readsAs_escapeChar`). A
surrogate pair is read as one character, and the code unit of any other character is no half of a
pair. For whole numbers, the digits must not run on into what comes after them, which is so at the
end of a text and before the marks that can follow a value (`Json.Closed`).
-/

namespace Splice

/-! ### Numerals -/

namespace Text

/-- The code of a decimal digit. -/
lemma toNat_digit {d : Nat} (h : d < 10) : (digit d).toNat = 48 + d := by
  revert d
  decide

/-- A decimal digit is one of the digits. -/
lemma isDigit_digit {d : Nat} (h : d < 10) : (digit d).isDigit = true := by
  revert d
  decide

/-- A natural number is written in digits. -/
lemma isDigit_of_mem_natural {n : Nat} {c : Char} (h : c ∈ natural n) : c.isDigit = true := by
  fun_induction natural n with
  | case1 n hn =>
    rw [List.mem_singleton.1 h]
    exact isDigit_digit hn
  | case2 n hn ih =>
    rcases List.mem_append.1 h with h | h
    · exact ih h
    · rw [List.mem_singleton.1 h]
      exact isDigit_digit (Nat.mod_lt n (by decide))

/-- Some digit is written for every natural number. -/
lemma natural_ne_nil (n : Nat) : natural n ≠ [] := by
  rw [natural]
  split <;> simp

/-- A natural number other than zero does not start with a zero. -/
lemma head?_natural_ne {n : Nat} (h : 0 < n) : (natural n).head? ≠ some '0' := by
  fun_induction natural n with
  | case1 n hn =>
    revert n
    decide
  | case2 n hn ih =>
    rw [List.head?_append, List.head?_eq_some_head (natural_ne_nil _), Option.some_or,
      ← List.head?_eq_some_head (natural_ne_nil _)]
    exact ih (by omega)

end Text

namespace Json

/-- The digits of a natural number have it as their value. -/
lemma digitsValue_natural (n : Nat) : digitsValue (Text.natural n) = n := by
  fun_induction Text.natural n with
  | case1 n hn => simp [digitsValue, Text.toNat_digit hn]
  | case2 n hn ih =>
    have hlast := Text.toNat_digit (Nat.mod_lt n (by decide : 0 < 10))
    simp only [digitsValue, List.foldl_append, List.foldl_cons, List.foldl_nil] at ih ⊢
    rw [ih, hlast]
    omega

/-- The characters before which a number cannot go on. They are what can follow a value. -/
def closers : List Char :=
  [',', ']', '\x7d', '\n']

/-- A text in front of which a number ends. -/
def Closed (rest : Text) : Prop :=
  ∀ c ∈ rest.head?, c ∈ closers

lemma closed_nil : Closed [] := by
  intro c hc
  cases hc

lemma closed_cons {c : Char} (hc : c ∈ closers) (rest : Text) : Closed (c :: rest) := by
  intro d hd
  cases hd
  exact hc

/-- No digit, point or exponent stands at the front of a text in front of which a number ends. -/
lemma Closed.head_cases {rest : Text} (h : Closed rest) :
    rest = [] ∨ ∃ c s, rest = c :: s ∧ c.isDigit = false ∧ c ≠ '.' ∧ c ≠ 'e' ∧ c ≠ 'E' := by
  cases rest with
  | nil => exact Or.inl rfl
  | cons c s =>
    have hc : c ∈ closers := h c rfl
    have hall : closers.all (fun d => !d.isDigit && d != '.' && d != 'e' && d != 'E') = true := by
      decide
    have hchar := List.all_eq_true.1 hall c hc
    exact Or.inr ⟨c, s, rfl, by simpa [and_assoc] using hchar⟩

/-- The digits of a natural number are taken up to their end. -/
lemma whole?_natural (n : Nat) {rest : Text} (h : Closed rest) :
    whole? (Text.natural n ++ rest) = some (Text.natural n, rest) := by
  rcases Nat.eq_zero_or_pos n with rfl | hpos
  · have hzero : Text.natural 0 = ['0'] := by
      rw [Text.natural]
      rfl
    rw [hzero]
    rfl
  · cases hnatural : Text.natural n with
    | nil => exact absurd hnatural (Text.natural_ne_nil n)
    | cons c s =>
      have hdigits : ∀ d ∈ c :: s, d.isDigit = true := by
        intro d hd
        rw [← hnatural] at hd
        exact Text.isDigit_of_mem_natural hd
      have hzero : c ≠ '0' := by
        rintro rfl
        exact Text.head?_natural_ne hpos (by rw [hnatural]; rfl)
      have htail : ∀ d ∈ s, d.isDigit = true := fun d hd => hdigits d (List.mem_cons_of_mem _ hd)
      have hstop : rest.takeWhile Char.isDigit = [] ∧ rest.dropWhile Char.isDigit = rest := by
        rcases h.head_cases with rfl | ⟨d, t, rfl, hd, -⟩
        · exact ⟨rfl, rfl⟩
        · exact ⟨by simp [hd], by simp [hd]⟩
      rw [List.cons_append, whole?, if_neg hzero, if_pos (hdigits c List.mem_cons_self),
        List.takeWhile_append_of_pos htail, List.dropWhile_append_of_pos htail, hstop.1, hstop.2,
        List.append_nil]

/-- There is no fraction in front of a text in front of which a number ends. -/
lemma fraction_of_closed {rest : Text} (h : Closed rest) : fraction rest = ([], rest) := by
  rcases h.head_cases with rfl | ⟨c, s, rfl, -, hpoint, -⟩
  · rfl
  · unfold fraction
    split
    · rename_i heq
      exact absurd (List.cons.inj heq).1 hpoint
    · rfl

/-- There is no exponent in front of a text in front of which a number ends. -/
lemma exponent?_of_closed {rest : Text} (h : Closed rest) : exponent? rest = none := by
  rcases h.head_cases with rfl | ⟨c, s, rfl, -, -, hlower, hupper⟩
  · rfl
  · simp [exponent?, hlower, hupper]

/-- The digits of a natural number are read as a whole number. -/
lemma unsigned?_natural (negative : Bool) (n : Nat) {rest : Text} (h : Closed rest) :
    unsigned? negative (Text.natural n ++ rest) =
      some (.integer (if negative then -(n : Int) else n) (Text.natural n).length, rest) := by
  simp [unsigned?, whole?_natural n h, fraction_of_closed h, exponent?_of_closed h,
    digitsValue_natural]

/-- The constants, letter by letter. -/
lemma constants_eq : constants =
    [(['n', 'u', 'l', 'l'], .null), (['t', 'r', 'u', 'e'], .bool true),
     (['f', 'a', 'l', 's', 'e'], .bool false), (['N', 'a', 'N'], .number (.float .nan)),
     (['I', 'n', 'f', 'i', 'n', 'i', 't', 'y'], .number (.float (.infinity false))),
     (['-', 'I', 'n', 'f', 'i', 'n', 'i', 't', 'y'], .number (.float (.infinity true)))] := by
  simp only [constants, String.reduceToList]

/-- A digit starts no constant. -/
lemma atom?_digit {c : Char} (hc : c.isDigit = true) (s : Text) :
    atom? (c :: s) = unsigned? false (c :: s) ∧
      atom? ('-' :: c :: s) = unsigned? true (c :: s) := by
  have hne : ∀ d : Char, d.isDigit = false → d ≠ c := by
    rintro d hd rfl
    rw [hc] at hd
    cases hd
  have hminus : '-' ≠ c := hne '-' rfl
  have hn : 'n' ≠ c := hne 'n' rfl
  have ht : 't' ≠ c := hne 't' rfl
  have hf : 'f' ≠ c := hne 'f' rfl
  have hN : 'N' ≠ c := hne 'N' rfl
  have hI : 'I' ≠ c := hne 'I' rfl
  constructor
  · simp [atom?, constants_eq, hn, ht, hf, hN, hI, hminus]
    split
    · rename_i heq
      exact absurd (List.cons.inj heq).1.symm hminus
    · rfl
  · simp [atom?, constants_eq, hI]

/-! ### Strings -/

/-- What is written inside a string is read as the given parts, whatever comes after it. -/
def ReadsAs (written : Text) (parts : List Piece) : Prop :=
  ∀ rest, pieces? (written ++ rest) =
    (pieces? rest).map fun found => (parts ++ found.1, found.2)

/-- What is written in two pieces is read as the parts of both. -/
lemma ReadsAs.append {written more : Text} {parts others : List Piece}
    (h : ReadsAs written parts) (hmore : ReadsAs more others) :
    ReadsAs (written ++ more) (parts ++ others) := by
  intro rest
  rw [List.append_assoc, h, hmore, Option.map_map]
  simp [Function.comp_def]

/-- A character that needs no escape is read as itself. -/
lemma readsAs_plain {c : Char} (hquote : c ≠ '"') (hslash : c ≠ '\\') (hc : 0x20 ≤ c.toNat) :
    ReadsAs [c] [.plain c] := by
  intro rest
  have hno : ¬ (c.toNat < 0x20 ∨ c = '\\') := by simp [hslash, hc]
  rw [List.singleton_append, pieces?, if_neg hno]
  · cases pieces? rest <;> rfl
  · simp [hquote]
  · simp [hslash]
  · simp [hslash]

/-- An escape with one letter is read as the character it stands for. -/
lemma readsAs_short {e c : Char} (h : shortEscape? e = some c) :
    ReadsAs ['\\', e] [.plain c] := by
  intro rest
  have hunit : e ≠ 'u' := by
    rintro rfl
    cases h
  rw [List.cons_append, List.singleton_append, pieces?, h]
  · cases pieces? rest <;> rfl
  · simp [hunit]

/-- The digits of a code unit have it as their value. -/
lemma hexValue?_hexDigit {d : Nat} (h : d < 16) : hexValue? (Text.hexDigit d) = some d := by
  revert d
  decide

/-- The escape of a code unit is read as this unit. -/
lemma readsAs_escapeUnit {n : Nat} (h : n < 0x10000) : ReadsAs (escapeUnit n) [.unit n] := by
  intro rest
  have hvalue : unitValue? (Text.hexDigit (n / 16 / 16 / 16 % 16))
      (Text.hexDigit (n / 16 / 16 % 16)) (Text.hexDigit (n / 16 % 16)) (Text.hexDigit (n % 16)) =
        some n := by
    simp only [unitValue?, hexValue?_hexDigit (Nat.mod_lt _ (by decide : 0 < 16))]
    simp
    omega
  simp only [escapeUnit, Text.hex, List.nil_append, List.cons_append, pieces?, hvalue]
  cases pieces? rest <;> rfl

/-- A code unit that is no half of a pair stands for its character, whatever comes after it. -/
lemma assemble_unit {n : Nat} (h : n < 0xD800 ∨ 0xE000 ≤ n) (more : List Piece) :
    assemble (.unit n :: more) = .char (Char.ofNat n) :: assemble more := by
  have hhigh : isHighSurrogate n = false := by simp [isHighSurrogate]; omega
  have hlow : isLowSurrogate n = false := by simp [isLowSurrogate]; omega
  have hsymbol : unitSymbol n = .char (Char.ofNat n) := by simp [unitSymbol, hhigh, hlow]
  rcases more with _ | ⟨c | m, more⟩
  · simp [assemble, hsymbol]
  · simp [assemble, hsymbol]
  · rw [assemble, hhigh, Bool.false_and, if_neg Bool.false_ne_true, hsymbol]

/-- The two halves of a pair stand for one character. -/
lemma assemble_pair {n : Nat} (h : n < 0x100000) (more : List Piece) :
    assemble (.unit (0xD800 + n / 0x400) :: .unit (0xDC00 + n % 0x400) :: more) =
      .char (Char.ofNat (0x10000 + n)) :: assemble more := by
  have hhigh : isHighSurrogate (0xD800 + n / 0x400) = true := by simp [isHighSurrogate]; omega
  have hlow : isLowSurrogate (0xDC00 + n % 0x400) = true := by simp [isLowSurrogate]; omega
  have hcode : 0x10000 + (0xD800 + n / 0x400 - 0xD800) * 0x400 +
      (0xDC00 + n % 0x400 - 0xDC00) = 0x10000 + n := by
    omega
  rw [assemble, hhigh, hlow, Bool.and_self, if_pos rfl, pairChar, hcode]

/-- The code of a character is no code unit of a surrogate pair. -/
lemma toNat_valid (c : Char) : c.toNat < 0xD800 ∨ 0xE000 ≤ c.toNat ∧ c.toNat < 0x110000 := by
  have hvalid : c.toNat.isValidChar := c.valid
  unfold Nat.isValidChar at hvalid
  omega

/-- What is written for a character that has no escape of one letter. -/
lemma escapeChar_eq {c : Char} (hquote : c ≠ '"') (hslash : c ≠ '\\') (hfeed : c ≠ '\n')
    (hreturn : c ≠ '\r') (htab : c ≠ '\t') (hback : c ≠ Char.ofNat 0x8)
    (hform : c ≠ Char.ofNat 0xC) :
    escapeChar c =
      if 0x20 ≤ c.toNat && c.toNat < 0x7F then [c]
      else if c.toNat < 0x10000 then escapeUnit c.toNat
      else escapeUnit (0xD800 + (c.toNat - 0x10000) / 0x400) ++
        escapeUnit (0xDC00 + (c.toNat - 0x10000) % 0x400) := by
  have hcode : ∀ n, c ≠ Char.ofNat n → ¬ (c.toNat == n) = true := by
    intro n hne heq
    exact hne (by rw [← beq_iff_eq.1 heq, Char.ofNat_toNat])
  have hchar : ∀ d, c ≠ d → ¬ (c == d) = true := fun d hne heq => hne (beq_iff_eq.1 heq)
  rw [escapeChar, if_neg (hchar _ hquote), if_neg (hchar _ hslash), if_neg (hchar _ hfeed),
    if_neg (hchar _ hreturn), if_neg (hchar _ htab), if_neg (hcode _ hback),
    if_neg (hcode _ hform)]

/-- What is written for a character in a string is read as parts that are assembled to it. -/
lemma exists_readsAs_escapeChar (c : Char) :
    ∃ parts, ReadsAs (escapeChar c) parts ∧
      ∀ more, assemble (parts ++ more) = .char c :: assemble more := by
  have hshort : ∀ e, shortEscape? e = some c → escapeChar c = ['\\', e] →
      ∃ parts, ReadsAs (escapeChar c) parts ∧
        ∀ more, assemble (parts ++ more) = .char c :: assemble more := by
    intro e he hwritten
    rw [hwritten]
    exact ⟨[.plain c], readsAs_short he, fun more => rfl⟩
  by_cases hquote : c = '"'
  · exact hshort '"' (by rw [hquote]; rfl) (by rw [hquote]; rfl)
  by_cases hslash : c = '\\'
  · exact hshort '\\' (by rw [hslash]; rfl) (by rw [hslash]; rfl)
  by_cases hfeed : c = '\n'
  · exact hshort 'n' (by rw [hfeed]; rfl) (by rw [hfeed]; rfl)
  by_cases hreturn : c = '\r'
  · exact hshort 'r' (by rw [hreturn]; rfl) (by rw [hreturn]; rfl)
  by_cases htab : c = '\t'
  · exact hshort 't' (by rw [htab]; rfl) (by rw [htab]; rfl)
  by_cases hback : c = Char.ofNat 0x8
  · exact hshort 'b' (by rw [hback]; rfl) (by rw [hback]; rfl)
  by_cases hform : c = Char.ofNat 0xC
  · exact hshort 'f' (by rw [hform]; rfl) (by rw [hform]; rfl)
  have hself : Char.ofNat c.toNat = c := Char.ofNat_toNat c
  have hvalid := toNat_valid c
  rw [escapeChar_eq hquote hslash hfeed hreturn htab hback hform]
  by_cases hplain : (decide (0x20 ≤ c.toNat) && decide (c.toNat < 0x7F)) = true
  · rw [if_pos hplain]
    rw [Bool.and_eq_true, decide_eq_true_eq] at hplain
    exact ⟨[.plain c], readsAs_plain hquote hslash hplain.1, fun more => rfl⟩
  rw [if_neg hplain]
  by_cases hunit : c.toNat < 0x10000
  · rw [if_pos hunit]
    refine ⟨[.unit c.toNat], readsAs_escapeUnit hunit, fun more => ?_⟩
    rw [List.singleton_append, assemble_unit (by omega), hself]
  · rw [if_neg hunit]
    refine ⟨[.unit _] ++ [.unit _],
      (readsAs_escapeUnit (by omega)).append (readsAs_escapeUnit (by omega)), fun more => ?_⟩
    have hcode : 0x10000 + (c.toNat - 0x10000) = c.toNat := by omega
    rw [List.singleton_append, List.cons_append, List.singleton_append, assemble_pair (by omega),
      hcode, hself]

/-- What is written for a text in a string is read as parts that are assembled to it. The induction
is on the text. -/
lemma exists_readsAs_text (s : Text) :
    ∃ parts, ReadsAs ((Str.ofText s).flatMap escapeSymbol) parts ∧
      assemble parts = Str.ofText s := by
  induction s with
  | nil => exact ⟨[], fun rest => by simp [Str.ofText], rfl⟩
  | cons c s ih =>
    obtain ⟨parts, hparts, hassemble⟩ := ih
    obtain ⟨first, hfirst, hchar⟩ := exists_readsAs_escapeChar c
    refine ⟨first ++ parts, hfirst.append hparts, ?_⟩
    rw [hchar, hassemble]
    rfl

/-! ### Tokens -/

/-- White space in front of a token is passed over. -/
lemma tokens_space {c : Char} (hc : isSpace c = true) (s : Text) : tokens (c :: s) = tokens s := by
  have hdrop : (c :: s).dropWhile isSpace = s.dropWhile isSpace := by simp [hc]
  rw [tokens, tokens.eq_def s, hdrop]

/-- A token at the front of a text comes before those of the rest. -/
lemma tokens_of_token? {c : Char} {s rest : Text} {token : Token} (hc : isSpace c = false)
    (h : token? (c :: s) = some (token, rest)) : tokens (c :: s) = token :: tokens rest := by
  have hdrop : (c :: s).dropWhile isSpace = c :: s := by simp [hc]
  rw [tokens]
  split
  · rename_i hnil
    rw [hdrop] at hnil
    cases hnil
  · rename_i d t hcons
    rw [hdrop] at hcons
    cases hcons
    split
    · rename_i hnone
      rw [h] at hnone
      cases hnone
    · rename_i hsome
      rw [h] at hsome
      cases hsome
      rfl

/-- A punctuation mark is a token. -/
lemma tokens_mark {c : Char} {mark : Token} (h : mark? c = some mark) (hc : isSpace c = false)
    (s : Text) : tokens (c :: s) = mark :: tokens s :=
  tokens_of_token? hc (by rw [token?, h])

lemma tokens_openBracket (s : Text) : tokens ('[' :: s) = .openBracket :: tokens s :=
  tokens_mark rfl rfl s

lemma tokens_closeBracket (s : Text) : tokens (']' :: s) = .closeBracket :: tokens s :=
  tokens_mark rfl rfl s

lemma tokens_openBrace (s : Text) : tokens ('\x7b' :: s) = .openBrace :: tokens s :=
  tokens_mark rfl rfl s

lemma tokens_closeBrace (s : Text) : tokens ('\x7d' :: s) = .closeBrace :: tokens s :=
  tokens_mark rfl rfl s

lemma tokens_comma (s : Text) : tokens (',' :: s) = .comma :: tokens s :=
  tokens_mark rfl rfl s

lemma tokens_colon (s : Text) : tokens (':' :: s) = .colon :: tokens s :=
  tokens_mark rfl rfl s

/-- A text that is written as a string is one token. -/
lemma tokens_printString (s rest : Text) :
    tokens (printString (.ofText s) ++ rest) = .string (.ofText s) :: tokens rest := by
  obtain ⟨parts, hparts, hassemble⟩ := exists_readsAs_text s
  have hpieces : pieces? ((Str.ofText s).flatMap escapeSymbol ++ '"' :: rest) =
      some (parts, rest) := by
    rw [hparts]
    simp [pieces?]
  rw [printString, List.cons_append, List.append_assoc, List.singleton_append]
  refine tokens_of_token? (by decide) ?_
  have hmark : mark? '"' = none := by decide
  rw [token?, hmark]
  simp only [hpieces, if_true, Option.map_some, hassemble]

/-- A constant or a number is one token. -/
lemma tokens_atom {c : Char} {s rest : Text} {token : Token} (hspace : isSpace c = false)
    (hmark : mark? c = none) (hquote : c ≠ '"') (h : atom? (c :: s) = some (token, rest)) :
    tokens (c :: s) = token :: tokens rest :=
  tokens_of_token? hspace (by rw [token?, hmark]; simp only [if_neg hquote, h])

/-- The constant for no value is one token. -/
lemma tokens_null (rest : Text) :
    tokens ("null".toList ++ rest) = .constant .null :: tokens rest := by
  have hword : "null".toList = ['n', 'u', 'l', 'l'] := by simp
  rw [hword]
  exact tokens_atom (by decide) (by decide) (by decide) (by simp [atom?, constants_eq])

/-- The constant of a truth value is one token. -/
lemma tokens_bool (b : Bool) (rest : Text) :
    tokens ((if b then "true" else "false").toList ++ rest) =
      .constant (.bool b) :: tokens rest := by
  have htrue : "true".toList = ['t', 'r', 'u', 'e'] := by simp
  have hfalse : "false".toList = ['f', 'a', 'l', 's', 'e'] := by simp
  cases b with
  | true =>
    rw [if_pos rfl, htrue]
    exact tokens_atom (by decide) (by decide) (by decide) (by simp [atom?, constants_eq])
  | false =>
    rw [if_neg Bool.false_ne_true, hfalse]
    exact tokens_atom (by decide) (by decide) (by decide) (by simp [atom?, constants_eq])

/-- A digit is neither white space nor a punctuation mark nor a quote. -/
lemma mark?_digit {c : Char} (hc : c.isDigit = true) :
    isSpace c = false ∧ mark? c = none ∧ c ≠ '"' := by
  have hne : ∀ d : Char, d.isDigit = false → c ≠ d := by
    rintro d hd rfl
    rw [hc] at hd
    cases hd
  refine ⟨?_, ?_, hne _ rfl⟩
  · simp [isSpace, hne ' ' rfl, hne '\t' rfl, hne '\n' rfl, hne '\r' rfl]
  · simp [mark?, hne '\x7b' rfl, hne '\x7d' rfl, hne '[' rfl, hne ']' rfl, hne ':' rfl,
      hne ',' rfl]

/-- A whole number is one token, if it ends in front of the rest. -/
lemma tokens_integer (n : Int) {rest : Text} (h : Closed rest) :
    tokens (Text.integer n ++ rest) =
      .integer n (Text.natural n.natAbs).length :: tokens rest := by
  cases n with
  | ofNat n =>
    have hread := unsigned?_natural false n h
    have habs : (Int.ofNat n).natAbs = n := rfl
    rw [Text.integer, habs]
    cases hnatural : Text.natural n with
    | nil => exact absurd hnatural (Text.natural_ne_nil n)
    | cons c s =>
      have hc : c.isDigit = true := Text.isDigit_of_mem_natural (by rw [hnatural]; simp)
      obtain ⟨hspace, hmark, hquote⟩ := mark?_digit hc
      rw [hnatural] at hread
      exact tokens_atom hspace hmark hquote ((atom?_digit hc _).1.trans hread)
  | negSucc n =>
    have hread := unsigned?_natural true (n + 1) h
    rw [Text.integer, Int.natAbs_negSucc]
    cases hnatural : Text.natural (n + 1) with
    | nil => exact absurd hnatural (Text.natural_ne_nil (n + 1))
    | cons c s =>
      have hc : c.isDigit = true := Text.isDigit_of_mem_natural (by rw [hnatural]; simp)
      rw [hnatural] at hread
      exact tokens_atom (by decide) (by decide) (by decide) ((atom?_digit hc _).2.trans hread)

end Json

end Splice

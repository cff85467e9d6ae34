import Splice.Json.Basic

/-!
# The tokens of a JSON text

A JSON text is a sequence of punctuation marks, strings, numbers and constants, with white space
between them. `Json.tokens` finds them; where the text holds anything else, one more token says so
and is the last one. Besides the constants of the format, not-a-number and the two infinities are
read.
-/

namespace Splice.Json

/-- A token of a JSON text. -/
inductive Token where
  | openBrace
  | closeBrace
  | openBracket
  | closeBracket
  | colon
  | comma
  | string (value : Str)
  /-- A constant. -/
  | constant (value : Json)
  /-- A whole number, and how many digits it is written with. -/
  | integer (n : Int) (digits : Nat)
  /-- A number written with a fraction or an exponent. -/
  | float (x : Binary64)
  /-- Something that is no token. -/
  | unreadable

/-- A part of a string: a character as it stands, or a UTF-16 code unit given by an escape. -/
inductive Piece where
  | plain (c : Char)
  | unit (n : Nat)

/-- The value of a hexadecimal digit. -/
def hexValue? (c : Char) : Option Nat :=
  if '0' ≤ c ∧ c ≤ '9' then some (c.toNat - 48)
  else if 'a' ≤ c ∧ c ≤ 'f' then some (c.toNat - 87)
  else if 'A' ≤ c ∧ c ≤ 'F' then some (c.toNat - 55)
  else none

/-- The value of four hexadecimal digits. -/
def unitValue? (a b c d : Char) : Option Nat := do
  let a ← hexValue? a
  let b ← hexValue? b
  let c ← hexValue? c
  let d ← hexValue? d
  return ((a * 16 + b) * 16 + c) * 16 + d

/-- The character of an escape with one letter. -/
def shortEscape? (c : Char) : Option Char :=
  if c = '"' ∨ c = '\\' ∨ c = '/' then some c
  else if c = 'b' then some (Char.ofNat 0x8)
  else if c = 'f' then some (Char.ofNat 0xC)
  else if c = 'n' then some '\n'
  else if c = 'r' then some '\r'
  else if c = 't' then some '\t'
  else none

/-- The parts of a string up to its closing quote, and the text after it. Control characters must
be escaped. -/
def pieces? : Text → Option (List Piece × Text)
  | [] => none
  | '"' :: s => some ([], s)
  | '\\' :: 'u' :: a :: b :: c :: d :: s => do
    let n ← unitValue? a b c d
    let (parts, rest) ← pieces? s
    return (.unit n :: parts, rest)
  | '\\' :: e :: s => do
    let c ← shortEscape? e
    let (parts, rest) ← pieces? s
    return (.plain c :: parts, rest)
  | c :: s =>
    if c.toNat < 0x20 ∨ c = '\\' then none
    else do
      let (parts, rest) ← pieces? s
      return (.plain c :: parts, rest)

/-- A code unit of the first half of a surrogate pair. -/
def isHighSurrogate (n : Nat) : Bool :=
  0xD800 ≤ n && n < 0xDC00

/-- A code unit of the second half of a surrogate pair. -/
def isLowSurrogate (n : Nat) : Bool :=
  0xDC00 ≤ n && n < 0xE000

/-- The character of the two halves of a surrogate pair. -/
def pairChar (high low : Nat) : Char :=
  Char.ofNat (0x10000 + (high - 0xD800) * 0x400 + (low - 0xDC00))

/-- The symbol of a code unit that is not part of a surrogate pair. -/
def unitSymbol (n : Nat) : Symbol :=
  if isHighSurrogate n || isLowSurrogate n then .half n else .char (Char.ofNat n)

/-- The symbols that the parts of a string stand for. Two code units of a surrogate pair make one
character. -/
def assemble : List Piece → Str
  | [] => []
  | .plain c :: parts => .char c :: assemble parts
  | .unit m :: .unit n :: parts =>
    if isHighSurrogate m && isLowSurrogate n then .char (pairChar m n) :: assemble parts
    else unitSymbol m :: assemble (.unit n :: parts)
  | .unit m :: parts => unitSymbol m :: assemble parts

/-- The value of a run of decimal digits. -/
def digitsValue (s : Text) : Nat :=
  s.foldl (fun n c => n * 10 + (c.toNat - 48)) 0

/-- The decimal digits at the start of a text, and what follows them. A number does not start with a
zero unless the zero is all there is before the fraction. -/
def whole? : Text → Option (Text × Text)
  | [] => none
  | c :: s =>
    if c = '0' then some (['0'], s)
    else if c.isDigit then some (c :: s.takeWhile Char.isDigit, s.dropWhile Char.isDigit)
    else none

/-- The digits of a fraction, if the text starts with one. -/
def fraction : Text → Text × Text
  | '.' :: c :: s =>
    if c.isDigit then (c :: s.takeWhile Char.isDigit, s.dropWhile Char.isDigit)
    else ([], '.' :: c :: s)
  | s => ([], s)

/-- The digits of an exponent after its sign, if there are any. -/
def exponentDigits? : Text → Option (Nat × Text)
  | [] => none
  | c :: s =>
    if c.isDigit then some (digitsValue (c :: s.takeWhile Char.isDigit), s.dropWhile Char.isDigit)
    else none

/-- The exponent at the start of a text, if there is one. -/
def exponent? : Text → Option (Int × Text)
  | [] => none
  | e :: s =>
    if e = 'e' ∨ e = 'E' then
      match s with
      | '-' :: s => (exponentDigits? s).map fun (n, rest) => (-(n : Int), rest)
      | '+' :: s => (exponentDigits? s).map fun (n, rest) => ((n : Int), rest)
      | s => (exponentDigits? s).map fun (n, rest) => ((n : Int), rest)
    else none

/-- A number without its sign, and the text after it. -/
def unsigned? (negative : Bool) (s : Text) : Option (Token × Text) := do
  let (digits, rest) ← whole? s
  let (places, rest) := fraction rest
  let value := digitsValue (digits ++ places)
  match exponent? rest with
  | some (e, rest) => return (.float (.ofDecimal negative value (e - places.length)), rest)
  | none =>
    if places = [] then
      return (.integer (if negative then -(value : Int) else value) digits.length, rest)
    else return (.float (.ofDecimal negative value (-(places.length : Int))), rest)

/-- The constants that are not punctuation, strings or digits. -/
def constants : List (Text × Json) :=
  [("null".toList, .null), ("true".toList, .bool true), ("false".toList, .bool false),
   ("NaN".toList, .number (.float .nan)), ("Infinity".toList, .number (.float (.infinity false))),
   ("-Infinity".toList, .number (.float (.infinity true)))]

/-- A constant or number at the start of a text, and the text after it. -/
def atom? (s : Text) : Option (Token × Text) :=
  match constants.find? fun constant => constant.1.isPrefixOf s with
  | some constant => some (.constant constant.2, s.drop constant.1.length)
  | none =>
    match s with
    | '-' :: s => unsigned? true s
    | s => unsigned? false s

/-- The punctuation mark that a character is. -/
def mark? (c : Char) : Option Token :=
  if c = '\x7b' then some .openBrace
  else if c = '\x7d' then some .closeBrace
  else if c = '[' then some .openBracket
  else if c = ']' then some .closeBracket
  else if c = ':' then some .colon
  else if c = ',' then some .comma
  else none

/-- The white space of a JSON text. -/
def isSpace (c : Char) : Bool :=
  c == ' ' || c == '\t' || c == '\n' || c == '\r'

/-- The token at the start of a text that starts with no white space, and the text after it. -/
def token? : Text → Option (Token × Text)
  | [] => none
  | c :: s =>
    match mark? c with
    | some mark => some (mark, s)
    | none =>
      if c = '"' then (pieces? s).map fun (parts, rest) => (.string (assemble parts), rest)
      else atom? (c :: s)

/-! ### Each token takes at least one character -/

theorem length_lt_of_pieces? {s rest : Text} {parts : List Piece}
    (h : pieces? s = some (parts, rest)) : rest.length < s.length := by
  fun_induction pieces? s generalizing parts with
  | case1 => simp at h
  | case2 s => simp_all
  | case3 a b c d s ih =>
    simp only [Option.bind_eq_bind, Option.bind_eq_some_iff, Option.pure_def, Option.some.injEq,
      Prod.mk.injEq, Prod.exists] at h
    obtain ⟨_, _, _, _, hs, _, rfl⟩ := h
    have := ih hs
    simp only [List.length_cons]
    omega
  | case4 e s _ ih =>
    simp only [Option.bind_eq_bind, Option.bind_eq_some_iff, Option.pure_def, Option.some.injEq,
      Prod.mk.injEq, Prod.exists] at h
    obtain ⟨_, _, _, _, hs, _, rfl⟩ := h
    have := ih hs
    simp only [List.length_cons]
    omega
  | case5 => simp at h
  | case6 c s _ _ _ _ ih =>
    simp only [Option.bind_eq_bind, Option.bind_eq_some_iff, Option.pure_def, Option.some.injEq,
      Prod.mk.injEq, Prod.exists] at h
    obtain ⟨_, _, hs, _, rfl⟩ := h
    have := ih hs
    simp only [List.length_cons]
    omega

theorem length_dropWhile_le (p : Char → Bool) (s : Text) : (s.dropWhile p).length ≤ s.length :=
  (List.dropWhile_suffix p).length_le

theorem length_lt_of_whole? {s digits rest : Text} (h : whole? s = some (digits, rest)) :
    rest.length < s.length := by
  cases s with
  | nil => simp [whole?] at h
  | cons c s =>
    have := length_dropWhile_le Char.isDigit s
    simp only [whole?] at h
    split at h
    · simp_all
    · split at h
      · simp only [Option.some.injEq, Prod.mk.injEq] at h
        obtain ⟨_, rfl⟩ := h
        simp only [List.length_cons]
        omega
      · simp at h

theorem length_fraction_le (s : Text) : (fraction s).2.length ≤ s.length := by
  unfold fraction
  split
  · rename_i c s
    have := length_dropWhile_le Char.isDigit s
    split
    · simp only [List.length_cons]
      omega
    · simp
  · simp

theorem length_lt_of_exponentDigits? {s rest : Text} {n : Nat}
    (h : exponentDigits? s = some (n, rest)) : rest.length < s.length := by
  cases s with
  | nil => simp [exponentDigits?] at h
  | cons c s =>
    have := length_dropWhile_le Char.isDigit s
    simp only [exponentDigits?] at h
    split at h
    · simp only [Option.some.injEq, Prod.mk.injEq] at h
      obtain ⟨_, rfl⟩ := h
      simp only [List.length_cons]
      omega
    · simp at h

theorem length_lt_of_exponent? {s rest : Text} {e : Int} (h : exponent? s = some (e, rest)) :
    rest.length < s.length := by
  cases s with
  | nil => simp [exponent?] at h
  | cons c s =>
    simp only [exponent?] at h
    split at h
    · split at h <;>
      · simp only [Option.map_eq_some_iff, Prod.exists, Prod.mk.injEq] at h
        obtain ⟨_, _, hd, _, rfl⟩ := h
        have := length_lt_of_exponentDigits? hd
        simp only [List.length_cons] at this ⊢
        omega
    · simp at h

theorem length_lt_of_unsigned? {negative : Bool} {s rest : Text} {token : Token}
    (h : unsigned? negative s = some (token, rest)) : rest.length < s.length := by
  simp only [unsigned?, Option.bind_eq_bind, Option.bind_eq_some_iff, Prod.exists] at h
  obtain ⟨digits, after, hw, h⟩ := h
  have hwhole := length_lt_of_whole? hw
  have hfraction := length_fraction_le after
  split at h
  · rename_i hexp
    simp only [Option.pure_def, Option.some.injEq, Prod.mk.injEq] at h
    obtain ⟨_, rfl⟩ := h
    have := length_lt_of_exponent? hexp
    omega
  · split at h <;>
    · simp only [Option.pure_def, Option.some.injEq, Prod.mk.injEq] at h
      obtain ⟨_, rfl⟩ := h
      omega

theorem length_lt_of_atom? {s rest : Text} {token : Token} (h : atom? s = some (token, rest)) :
    rest.length < s.length := by
  unfold atom? at h
  split at h
  · rename_i constant hfind
    simp only [Option.some.injEq, Prod.mk.injEq] at h
    obtain ⟨_, rfl⟩ := h
    have hprefix : constant.1 <+: s := by simpa using List.find?_some hfind
    have hlength := hprefix.length_le
    have hpos : 0 < constant.1.length := by
      have hmem := List.mem_of_find?_eq_some hfind
      simp only [constants, List.mem_cons, List.not_mem_nil, or_false] at hmem
      rcases hmem with rfl | rfl | rfl | rfl | rfl | rfl <;> decide
    simp only [List.length_drop]
    omega
  · split at h
    · exact Nat.lt_succ_of_lt (length_lt_of_unsigned? h)
    · exact length_lt_of_unsigned? h

theorem length_lt_of_token? {s rest : Text} {token : Token} (h : token? s = some (token, rest)) :
    rest.length < s.length := by
  cases s with
  | nil => simp [token?] at h
  | cons c s =>
    simp only [token?] at h
    split at h
    · simp_all
    · split at h
      · simp only [Option.map_eq_some_iff, Prod.exists, Prod.mk.injEq] at h
        obtain ⟨_, _, hp, _, rfl⟩ := h
        exact Nat.lt_succ_of_lt (length_lt_of_pieces? hp)
      · exact length_lt_of_atom? h

/-- The tokens of a text, up to the first thing that is no token. -/
def tokens (s : Text) : List Token :=
  match _h : s.dropWhile isSpace with
  | [] => []
  | c :: t =>
    match _htoken : token? (c :: t) with
    | none => [.unreadable]
    | some (token, rest) => token :: tokens rest
termination_by s.length
decreasing_by
  have hdrop := length_dropWhile_le isSpace s
  have htoken := length_lt_of_token? _htoken
  rw [_h] at hdrop
  omega

end Splice.Json

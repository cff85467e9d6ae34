import Splice.Text.Basic

/-!
# Encodings

Files hold octets, and an encoding says which text they stand for. Decoding is strict: the first
octet that cannot stand where it stands is an error. In UTF-8 this rules out forms that are longer
than needed, surrogates and values beyond the last code point, because the octet after the first is
held to the range that the first one allows. A byte order mark is kept.
-/

namespace Splice

/-- A way to write text as octets. -/
inductive Encoding where
  | utf8
  | latin1
  | ascii
deriving DecidableEq

namespace Encoding

/-- Why octets cannot be decoded. -/
inductive Fault where
  /-- An octet cannot begin a character. -/
  | invalidStart
  /-- An octet cannot go on with the character that was begun. -/
  | invalidContinuation
  /-- The octets end inside a character. -/
  | unexpectedEnd
  /-- An octet is beyond ASCII. -/
  | notAscii
deriving DecidableEq

/-- The wording of a decoding fault. -/
def Fault.reason : Fault → String
  | invalidStart => "invalid start byte"
  | invalidContinuation => "invalid continuation byte"
  | unexpectedEnd => "unexpected end of data"
  | notAscii => "ordinal not in range(128)"

/-- A character of UTF-8 part way through. -/
structure Partial where
  /-- The number of octets that are still to come after the next one. -/
  more : Nat
  /-- The least octet that may come next. -/
  low : Nat
  /-- The greatest octet that may come next. -/
  high : Nat
  /-- The bits read so far. -/
  bits : Nat

/-- The character that an octet beyond ASCII begins, if it can begin one. -/
def lead? (octet : Nat) : Option Partial :=
  if 0xC2 ≤ octet ∧ octet ≤ 0xDF then some ⟨0, 0x80, 0xBF, octet - 0xC0⟩
  else if octet = 0xE0 then some ⟨1, 0xA0, 0xBF, 0⟩
  else if octet = 0xED then some ⟨1, 0x80, 0x9F, 0xD⟩
  else if 0xE1 ≤ octet ∧ octet ≤ 0xEF then some ⟨1, 0x80, 0xBF, octet - 0xE0⟩
  else if octet = 0xF0 then some ⟨2, 0x90, 0xBF, 0⟩
  else if 0xF1 ≤ octet ∧ octet ≤ 0xF3 then some ⟨2, 0x80, 0xBF, octet - 0xF0⟩
  else if octet = 0xF4 then some ⟨2, 0x80, 0x8F, 4⟩
  else none

/-- The text that octets stand for in UTF-8, when they follow the part of a character given. -/
def decodeUtf8 : Option Partial → List UInt8 → Except Fault Text
  | none, [] => .ok []
  | some _, [] => .error .unexpectedEnd
  | none, octet :: octets =>
    if octet.toNat < 0x80 then (decodeUtf8 none octets).map (Char.ofNat octet.toNat :: ·)
    else
      match lead? octet.toNat with
      | none => .error .invalidStart
      | some begun => decodeUtf8 (some begun) octets
  | some begun, octet :: octets =>
    if begun.low ≤ octet.toNat ∧ octet.toNat ≤ begun.high then
      let bits := begun.bits * 0x40 + (octet.toNat - 0x80)
      match begun.more with
      | 0 => (decodeUtf8 none octets).map (Char.ofNat bits :: ·)
      | more + 1 => decodeUtf8 (some ⟨more, 0x80, 0xBF, bits⟩) octets
    else .error .invalidContinuation

/-- The text that octets stand for in ASCII. -/
def decodeAscii : List UInt8 → Except Fault Text
  | [] => .ok []
  | octet :: octets =>
    if octet.toNat < 0x80 then (decodeAscii octets).map (Char.ofNat octet.toNat :: ·)
    else .error .notAscii

/-- The text that octets stand for. -/
def decode : Encoding → List UInt8 → Except Fault Text
  | utf8, octets => decodeUtf8 none octets
  | latin1, octets => .ok (octets.map fun octet => Char.ofNat octet.toNat)
  | ascii, octets => decodeAscii octets

/-- The name of an encoding. -/
def name : Encoding → String
  | utf8 => "utf-8"
  | latin1 => "latin-1"
  | ascii => "ascii"

end Encoding

end Splice

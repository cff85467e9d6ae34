import Splice.Text.Basic

/-!
# Numerals

Integers in decimal, without a plus sign and without leading zeros, and numbers of a fixed width
in hexadecimal, as escapes need them.
-/

namespace Splice.Text

/-- The decimal digit of a number below ten. -/
def digit (n : Nat) : Char :=
  Char.ofNat (48 + n)

/-- A natural number in decimal. -/
def natural (n : Nat) : Text :=
  if n < 10 then [digit n] else natural (n / 10) ++ [digit (n % 10)]

/-- An integer in decimal; a negative one starts with a minus sign. -/
def integer : Int → Text
  | .ofNat n => natural n
  | .negSucc n => '-' :: natural (n + 1)

/-- The lower-case hexadecimal digit of a number below sixteen. -/
def hexDigit (n : Nat) : Char :=
  if n < 10 then digit n else Char.ofNat (87 + n)

/-- The last `width` hexadecimal digits of a number. -/
def hex : Nat → Nat → Text
  | 0, _ => []
  | width + 1, n => hex width (n / 16) ++ [hexDigit (n % 16)]

/-- An integer in decimal, as a string. -/
def showInt (n : Int) : String :=
  String.ofList (integer n)

end Splice.Text

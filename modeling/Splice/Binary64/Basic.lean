import Splice.Text.Decimal

/-!
# Binary numbers of 64 bits

A number that is written with a fraction or an exponent is kept in the binary format of 64 bits: a
mantissa of 53 bits, an exponent of two in a fixed range, a sign also for zero, two infinities, and
one value that is not a number. `Binary64.ofDecimal` rounds a decimal to the nearest value of the
format; of two that are equally near, the one with the even mantissa is taken.
-/

namespace Splice

/-- A value of the format. -/
inductive Binary64 where
  /-- The `mantissa` times two to the `exponent`. -/
  | finite (negative : Bool) (mantissa : Nat) (exponent : Int)
  | infinity (negative : Bool)
  /-- The value that is not a number. -/
  | nan
deriving DecidableEq

namespace Binary64

/-- The least exponent of the format. A mantissa of fewer than 53 bits comes with it only. -/
def minExponent : Int :=
  -1074

/-- The greatest exponent of the format. -/
def maxExponent : Int :=
  971

/-- A zero. -/
def zero (negative : Bool) : Binary64 :=
  .finite negative 0 minExponent

/-- Whether a value is a zero, of either sign. -/
def isZero : Binary64 → Bool
  | finite _ m _ => m == 0
  | _ => false

/-- A number times a power of `base`; a negative power counts as the power zero, so that the other
side of a comparison or quotient is to be multiplied instead. -/
def scaled (n base : Nat) (power : Int) : Nat :=
  n * Nat.pow base power.toNat

/-- The least mantissa of 53 bits. -/
def fullMantissa : Nat :=
  Nat.pow 2 52

/-- The quotient of two numbers, rounded to the nearest whole number, a half to the even one. -/
def roundDiv (n d : Nat) : Nat :=
  let q := n / d
  let r := n % d
  if 2 * r < d then q else if d < 2 * r then q + 1 else q + q % 2

/-- The greatest power of two that is not above the quotient of two positive numbers. -/
def floorLog (n d : Nat) : Int :=
  let e : Int := n.log2 - d.log2
  if scaled d 2 e ≤ scaled n 2 (-e) then e else e - 1

/-- The value nearest to the quotient of two positive numbers. The mantissa gets 53 bits, or fewer
where the exponent would fall below the least one. -/
def ofRatio (negative : Bool) (n d : Nat) : Binary64 :=
  let e := max minExponent (floorLog n d - 52)
  let m := roundDiv (scaled n 2 (-e)) (scaled d 2 e)
  let (m, e) := if m = 2 * fullMantissa then (fullMantissa, e + 1) else (m, e)
  if maxExponent < e then .infinity negative else .finite negative m e

/-- The value nearest to `digits` times ten to the `exponent`. A decimal far outside the range of
the format is told by the size of its digits, so that no great power of ten is ever taken for it:
the digits are at least `10 ^ (3 * (log2 digits / 10))` and below `10 ^ (log2 digits / 3 + 2)`. -/
def ofDecimal (negative : Bool) (digits : Nat) (exponent : Int) : Binary64 :=
  if digits = 0 then zero negative
  else if 310 < 3 * (digits.log2 / 10 : Nat) + exponent then .infinity negative
  else if (digits.log2 / 3 + 2 : Nat) + exponent < -330 then zero negative
  else ofRatio negative (scaled digits 10 exponent) (scaled 1 10 (-exponent))

end Binary64

end Splice

import Splice.Binary64.Basic

/-!
# The shortest decimal of a binary number

A binary number is shown by the decimal with the fewest digits that rounds to it, and of several
such decimals by the nearest. The decimals of one length are the points of a grid, so the search
goes from the coarsest grid to finer ones, and looks on each at the two neighbours of the number.
-/

namespace Splice.Binary64

/-- A decimal: the `digits` times ten to the `exponent`. -/
structure Decimal where
  digits : Nat
  exponent : Int
deriving DecidableEq

/-- Compares `a` times ten to the `i` with `n` times two to the `j`. -/
def compareScaled (a : Nat) (i : Int) (n : Nat) (j : Int) : Ordering :=
  compare (scaled (scaled a 10 i) 2 (-j)) (scaled (scaled n 2 j) 10 (-i))

/-- Whether a decimal rounds to the value with mantissa `m` and exponent `e`. The decimals that do
lie between the points halfway to the two neighbours of the value, and these points themselves
belong to it if `m` is even. Below a power of two the neighbour is only half as far away. -/
def roundsTo (m : Nat) (e : Int) (d : Decimal) : Bool :=
  let below := if m = fullMantissa ∧ minExponent < e then 4 * m - 1 else 4 * m - 2
  let low := compareScaled d.digits d.exponent below (e - 2)
  let high := compareScaled d.digits d.exponent (4 * m + 2) (e - 2)
  let even := m % 2 == 0
  (low == .gt || (even && low == .eq)) && (high == .lt || (even && high == .eq))

/-- The number of digits before the decimal point of the value with mantissa `m` and exponent `e`:
the least power of ten above it. -/
def magnitude (m : Nat) (e : Int) : Int :=
  (((List.range 640).map fun (i : Nat) => (i : Int) - 330).find? fun k =>
    compareScaled 1 k m e == .gt).getD 0

/-- The multiple of ten to the `g` that rounds to the value and is nearest to it, if there is one.
The even one is taken of two that are equally near. -/
def onGrid? (m : Nat) (e g : Int) : Option Decimal :=
  let c := scaled (scaled m 2 e) 10 (-g) / scaled (scaled 1 2 (-e)) 10 g
  match roundsTo m e ⟨c, g⟩, roundsTo m e ⟨c + 1, g⟩ with
  | true, true =>
    match compareScaled (2 * c + 1) g m (e + 1) with
    | .gt => some ⟨c, g⟩
    | .lt => some ⟨c + 1, g⟩
    | .eq => some ⟨c + c % 2, g⟩
  | true, false => some ⟨c, g⟩
  | false, true => some ⟨c + 1, g⟩
  | false, false => none

/-- The decimal that the value with mantissa `m` and exponent `e` is equal to. -/
def asDecimal (m : Nat) (e : Int) : Decimal :=
  if 0 ≤ e then ⟨scaled m 2 e, 0⟩ else ⟨scaled m 5 (-e), e⟩

/-- The same decimal without zeros at the end of its digits. -/
def Decimal.trim (d : Decimal) : Decimal :=
  if d.digits ≠ 0 ∧ d.digits % 10 = 0 then Decimal.trim ⟨d.digits / 10, d.exponent + 1⟩ else d
termination_by d.digits
decreasing_by exact Nat.div_lt_self (Nat.pos_of_ne_zero (by simp_all)) (by decide)

/-- The shortest decimal that rounds to the value with mantissa `m` and exponent `e`. -/
def shortest (m : Nat) (e : Int) : Decimal :=
  let k := magnitude m e
  (((List.range 17).findSome? fun (n : Nat) => onGrid? m e (k - 1 - n)).getD (asDecimal m e)).trim

/-- A decimal without an exponent. There is always a digit on each side of the point, which stands
after the first `point` digits. -/
def positional (digits : Text) (point : Int) : Text :=
  if point ≤ 0 then '0' :: '.' :: (List.replicate (-point).toNat '0' ++ digits)
  else if point < digits.length then
    digits.take point.toNat ++ '.' :: digits.drop point.toNat
  else digits ++ (List.replicate (point.toNat - digits.length) '0' ++ ['.', '0'])

/-- An exponent of ten: its sign is always written, and it has at least two digits. -/
def exponentPart (n : Int) : Text :=
  let digits := Text.natural n.natAbs
  'e' :: (if n < 0 then '-' else '+') :: (List.replicate (2 - digits.length) '0' ++ digits)

/-- A decimal with one digit before the point and an exponent. There is no point without a digit
after it. -/
def scientific (digits : Text) (point : Int) : Text :=
  let fraction := match digits.drop 1 with
    | [] => []
    | more => '.' :: more
  digits.take 1 ++ fraction ++ exponentPart (point - 1)

/-- A decimal as text. The exponent is written for numbers below a ten-thousandth and from ten to
the sixteenth on. -/
def Decimal.toText (d : Decimal) : Text :=
  let digits := Text.natural d.digits
  let point := digits.length + d.exponent
  if -4 < point ∧ point ≤ 16 then positional digits point else scientific digits point

/-- The words for the values that are not finite. -/
structure Words where
  nan : Text
  infinity : Text

/-- A value as text. -/
def toText (words : Words) : Binary64 → Text
  | finite negative m e =>
    let magnitude := if m = 0 then ['0', '.', '0'] else (shortest m e).toText
    if negative then '-' :: magnitude else magnitude
  | infinity negative => if negative then '-' :: words.infinity else words.infinity
  | nan => words.nan

end Splice.Binary64

import MiniPascal.Binary64.Basic

/-!
# The shortest decimal of a number

A real is written with the **fewest decimal digits that read back** to it. The rational numbers
that round to `m · 2 ^ e` form an interval, from halfway to the neighbour below to halfway to
the neighbour above, whose ends belong to it exactly if `m` is even. For one digit, two digits
and so on the two decimals on either side of the number are tried; the first length with a hit
wins, of two hits the nearer one, and of two equally near ones the even one.

* `MiniPascal.Binary64.Decimal`: a decimal number, `digits · 10 ^ exponent`.
* `MiniPascal.Binary64.readsBack`: whether a decimal lies in the interval of a number.
* `MiniPascal.Binary64.shortest`: the shortest decimal of a positive number.
* `MiniPascal.Binary64.toText`: a number as it is written.
-/

namespace MiniPascal.Binary64

/-! ### Selecting the digits -/

/-- The decimal number `digits · 10 ^ exponent`. -/
structure Decimal where
  digits : Nat
  exponent : Int
deriving DecidableEq

/-- The order of `d · 10 ^ i` and `n · 2 ^ j`, exactly. -/
def compareScaled (d : Nat) (i : Int) (n : Nat) (j : Int) : Ordering :=
  compare (d * tenTo i * twoTo (-j)) (n * twoTo j * tenTo (-i))

/-- Whether the decimal lies among the rationals that round to `m · 2 ^ e`. Both ends of that
interval are whole multiples of `2 ^ (e - 2)`; below a power of two the neighbour is only half
as far away. -/
def readsBack (m : Nat) (e : Int) (d : Decimal) : Bool :=
  let below := if m = twoTo 52 && minExponent < e then 4 * m - 1 else 4 * m - 2
  let above := 4 * m + 2
  let closed := m % 2 == 0
  let low := compareScaled d.digits d.exponent below (e - 2)
  let high := compareScaled d.digits d.exponent above (e - 2)
  (low == .gt || closed && low == .eq) && (high == .lt || closed && high == .eq)

/-- The least `k` with `m · 2 ^ e < 10 ^ k`, for a positive `m`. The binary logarithm gives it
up to a step, and exact comparisons settle that. -/
def magnitude (m : Nat) (e : Int) : Int :=
  let estimate := ((e + m.log2) * 30103).fdiv 100000
  let fits (k : Int) : Bool := compareScaled 1 k m e == .gt
  if fits (estimate - 1) then estimate - 1
  else if fits estimate then estimate
  else if fits (estimate + 1) then estimate + 1
  else estimate + 2

/-- The decimal with the given exponent that reads back to `m · 2 ^ e`, if there is one: of the
two on either side of the number the nearer one that does. -/
def decimalWith? (m : Nat) (e exponent : Int) : Option Decimal :=
  let num := m * twoTo e * tenTo (-exponent)
  let den := twoTo (-e) * tenTo exponent
  let lower : Decimal := ⟨num / den, exponent⟩
  let upper : Decimal := ⟨num / den + 1, exponent⟩
  match readsBack m e lower, readsBack m e upper with
  | true, true => some ⟨roundDiv num den, exponent⟩
  | true, false => some lower
  | false, true => some upper
  | false, false => none

/-- The exact decimal of `m · 2 ^ e`. -/
def exactDecimal (m : Nat) (e : Int) : Decimal :=
  ⟨m * twoTo e * Nat.pow 5 (-e).toNat, min e 0⟩

/-- The decimal with the fewest digits that reads back to the positive number `m · 2 ^ e`.
Seventeen digits always suffice; were it not so, the exact decimal would be taken. -/
def shortest (m : Nat) (e : Int) : Decimal :=
  let k := magnitude m e
  let found := (List.range 17).findSome? fun (n : Nat) => decimalWith? m e (k - (n + 1 : Nat))
  found.getD (exactDecimal m e)

/-- The decimal without the zeros at the end of its digits, of which at most `fuel` go. -/
def Decimal.strip : Nat → Decimal → Decimal
  | 0, d => d
  | fuel + 1, d =>
    if d.digits % 10 = 0 then Decimal.strip fuel ⟨d.digits / 10, d.exponent + 1⟩ else d

/-! ### Laying them out -/

/-- Decimal digits of a natural number. -/
def decimalDigits (n : Nat) : List Char := Nat.toDigits 10 n

/-- The exponent of a number in scientific notation: a sign and at least two digits. -/
def exponentText (e : Int) : List Char :=
  let digits := decimalDigits e.natAbs
  (if e < 0 then '-' else '+') :: (List.replicate (2 - digits.length) '0' ++ digits)

/-- A decimal whose digits do not end in a zero, as it is written: positionally if its leading
digit stands for at least `10 ^ -4` and less than `10 ^ 16`, and in scientific notation
otherwise. Written positionally, it has a digit on both sides of the point. -/
def Decimal.layout (d : Decimal) : List Char :=
  let digits := decimalDigits d.digits
  let leading := d.exponent + digits.length - 1
  if -4 ≤ leading && leading < 16 then
    if 0 ≤ d.exponent then
      digits ++ List.replicate d.exponent.toNat '0' ++ ['.', '0']
    else if 0 ≤ leading then
      digits.take (leading + 1).toNat ++ '.' :: digits.drop (leading + 1).toNat
    else
      '0' :: '.' :: List.replicate (-leading - 1).toNat '0' ++ digits
  else
    let fraction := digits.drop 1
    digits.take 1 ++ (if fraction.isEmpty then [] else '.' :: fraction) ++
      'e' :: exponentText leading

/-- The sign of a number as it is written. -/
def signText (negative : Bool) : List Char := if negative then ['-'] else []

/-- A number as it is written. -/
def toText : Binary64 → String
  | .nan => "nan"
  | .infinite n => if n then "-inf" else "inf"
  | .finite n m e =>
    let body := if m = 0 then ['0', '.', '0'] else (Decimal.strip 17 (shortest m e)).layout
    String.ofList (signText n ++ body)

/-! ### A fixed number of places -/

/-- A finite number with the given number of decimal places: the exact value rounded, a half to
the even digit. A sign is kept even if only zeros remain. -/
def fixedPlaces (negative : Bool) (m : Nat) (e : Int) (places : Nat) : List Char :=
  let n := roundDiv (m * twoTo e * tenTo places) (twoTo (-e))
  let digits := decimalDigits n
  let padded := List.replicate (places + 1 - digits.length) '0' ++ digits
  let whole := padded.length - places
  signText negative ++ padded.take whole ++
    (if places = 0 then [] else '.' :: padded.drop whole)

/-- A number with a fixed number of decimal places. -/
def toFixed (places : Nat) : Binary64 → String
  | .finite n m e => String.ofList (fixedPlaces n m e places)
  | x => x.toText

end MiniPascal.Binary64

/-!
# Binary floating-point numbers

The **reals** of the language are the 64-bit binary floating-point numbers. A finite one is
`±mantissa · 2 ^ exponent` with a mantissa below `2 ^ 53`; the exponent is at least `-1074`, and
it is the least one possible unless the mantissa has all its 53 bits. Every operation is the
exact one on rational numbers followed by **one rounding**: to the nearest number, and from the
middle between two numbers to the one with the even mantissa.

* `MiniPascal.Binary64`: the numbers, with two zeros, two infinities and one NaN.
* `MiniPascal.Binary64.ofRatio`: the number nearest to a fraction.
* `MiniPascal.Binary64.units`: a finite number counted in the least positive number, which makes
  comparison and addition those of integers.
-/

namespace MiniPascal

/-- A 64-bit binary floating-point number. -/
inductive Binary64
  /-- The result of an operation that has none, such as infinity less infinity. -/
  | nan
  /-- Beyond the greatest finite number, on either side. -/
  | infinite (negative : Bool)
  /-- The number `±mantissa · 2 ^ exponent`; a zero keeps its sign. -/
  | finite (negative : Bool) (mantissa : Nat) (exponent : Int)
deriving DecidableEq, Inhabited

namespace Binary64

/-! ### Powers -/

/-- The power of two with the given exponent, and one if the exponent is negative. -/
def twoTo (e : Int) : Nat := Nat.pow 2 e.toNat

/-- The power of ten with the given exponent, and one if the exponent is negative. -/
def tenTo (e : Int) : Nat := Nat.pow 10 e.toNat

/-- A power of two is positive. -/
theorem twoTo_pos (e : Int) : 0 < twoTo e := Nat.pow_pos (by decide)

/-! ### Rounding -/

/-- The fraction `num / den` rounded to a natural number, a half to the even neighbour. -/
def roundDiv (num den : Nat) : Nat :=
  let q := num / den
  let r := num % den
  if 2 * r < den then q
  else if den < 2 * r then q + 1
  else q + q % 2

/-- A rounded fraction is within one half of the exact one. -/
theorem roundDiv_near (num den : Nat) (h : 0 < den) :
    2 * (roundDiv num den * den) ≤ 2 * num + den ∧
      2 * num ≤ 2 * (roundDiv num den * den) + den := by
  have e : den * (num / den) + num % den = num := Nat.div_add_mod num den
  have l : num % den < den := Nat.mod_lt _ h
  simp only [roundDiv]
  generalize num / den = q at *
  generalize num % den = r at *
  have hq : (q + 1) * den = den * q + den := by rw [Nat.add_mul, Nat.mul_comm]; simp
  have hq0 : q * den = den * q := Nat.mul_comm ..
  split
  · omega
  · split
    · omega
    · rcases Nat.mod_two_eq_zero_or_one q with h2 | h2 <;> simp only [h2, Nat.add_zero] <;> omega

/-- A whole quotient is not changed by rounding. -/
theorem roundDiv_mul_right (n den : Nat) (h : 0 < den) : roundDiv (n * den) den = n := by
  simp [roundDiv, h]

/-- The exponent of the leading binary digit of the positive fraction `num / den`. -/
def leadingExponent (num den : Nat) : Int :=
  let e : Int := (num.log2 : Int) - den.log2
  if num * twoTo (-e) < den * twoTo e then e - 1 else e

/-- The least exponent of a number. -/
def minExponent : Int := -1074

/-- The greatest exponent of a finite number. -/
def maxExponent : Int := 971

/-- A zero of the given sign. -/
def zero (negative : Bool) : Binary64 := .finite negative 0 minExponent

/-- The number nearest to the fraction `num / den`, with the given sign. -/
def ofRatio (negative : Bool) (num den : Nat) : Binary64 :=
  if num = 0 then zero negative
  else
    let e := max (leadingExponent num den - 52) minExponent
    let m := roundDiv (num * twoTo (-e)) (den * twoTo e)
    let (m, e) := if m = twoTo 53 then (twoTo 52, e + 1) else (m, e)
    if maxExponent < e then .infinite negative else .finite negative m e

/-- The number nearest to `n · 2 ^ e`, with the given sign. -/
def ofScaled (negative : Bool) (n : Nat) (e : Int) : Binary64 :=
  ofRatio negative (n * twoTo e) (twoTo (-e))

/-! ### Comparison -/

/-- A finite number as a multiple of the least positive one. -/
def units (negative : Bool) (mantissa : Nat) (exponent : Int) : Int :=
  let n := mantissa * twoTo (exponent - minExponent)
  if negative then -(n : Int) else n

/-- The order of two numbers; a NaN is in no order with anything. -/
def compare? : Binary64 → Binary64 → Option Ordering
  | .nan, _ | _, .nan => none
  | .infinite n, .infinite n' => some (if n = n' then .eq else if n then .lt else .gt)
  | .infinite n, .finite .. => some (if n then .lt else .gt)
  | .finite .., .infinite n => some (if n then .gt else .lt)
  | .finite n m e, .finite n' m' e' => some (compare (units n m e) (units n' m' e'))

/-- Whether two numbers are equal: the zeros are, a NaN is equal to nothing. -/
def equals (a b : Binary64) : Bool := compare? a b == some .eq

/-- Whether the number is a zero of either sign. -/
def isZero : Binary64 → Bool
  | .finite _ m _ => m == 0
  | _ => false

/-- Whether the number is less than zero; a negative zero is not. -/
def isNegative : Binary64 → Bool
  | .finite n m _ => n && m != 0
  | .infinite n => n
  | .nan => false

/-- Whether the number is equal to the integer, without any rounding. -/
def equalsInt : Binary64 → Int → Bool
  | .finite n m e, i => units n m e == i * twoTo (-minExponent)
  | _, _ => false

/-! ### Arithmetic -/

/-- The number of opposite sign. -/
def neg : Binary64 → Binary64
  | .nan => .nan
  | .infinite n => .infinite !n
  | .finite n m e => .finite (!n) m e

/-- The sum. A sum of zero is positive unless both operands are negative. -/
def add : Binary64 → Binary64 → Binary64
  | .nan, _ | _, .nan => .nan
  | .infinite n, .infinite n' => if n = n' then .infinite n else .nan
  | .infinite n, .finite .. | .finite .., .infinite n => .infinite n
  | .finite n m e, .finite n' m' e' =>
    let sum := units n m e + units n' m' e'
    if sum = 0 then zero (n && n')
    else ofRatio (decide (sum < 0)) sum.natAbs (twoTo (-minExponent))

/-- The difference. -/
def sub (a b : Binary64) : Binary64 := add a (neg b)

/-- The product. -/
def mul : Binary64 → Binary64 → Binary64
  | .nan, _ | _, .nan => .nan
  | .infinite n, .infinite n' => .infinite (n ^^ n')
  | .infinite n, .finite n' m _ | .finite n' m _, .infinite n =>
    if m = 0 then .nan else .infinite (n ^^ n')
  | .finite n m e, .finite n' m' e' => ofScaled (n ^^ n') (m * m') (e + e')

/-- The quotient. -/
def div : Binary64 → Binary64 → Binary64
  | .nan, _ | _, .nan => .nan
  | .infinite _, .infinite _ => .nan
  | .infinite n, .finite n' _ _ => .infinite (n ^^ n')
  | .finite n _ _, .infinite n' => zero (n ^^ n')
  | .finite n m e, .finite n' m' e' =>
    if m' = 0 then if m = 0 then .nan else .infinite (n ^^ n')
    else ofRatio (n ^^ n') (m * twoTo (e - e')) (m' * twoTo (e' - e))

/-! ### Integers and decimals -/

/-- The number nearest to an integer, which may be infinite. -/
def ofInt (i : Int) : Binary64 := ofRatio (decide (i < 0)) i.natAbs 1

/-- The number nearest to the quotient of two integers, the second of which is not zero. -/
def ofQuotient (a b : Int) : Binary64 :=
  ofRatio (decide (a < 0) ^^ decide (b < 0)) a.natAbs b.natAbs

/-- Whether the number is an infinity. -/
def isInfinite : Binary64 → Bool
  | .infinite _ => true
  | _ => false

/-- The integer part of a finite number. -/
def integerPart (negative : Bool) (mantissa : Nat) (exponent : Int) : Int :=
  let n := mantissa * twoTo exponent / twoTo (-exponent)
  if negative then -(n : Int) else n

/-- The number nearest to `digits · 10 ^ exponent`, where `digits` has at most `count` decimal
digits. An exponent far outside the range of the numbers is decided without computing its
power. -/
def ofDecimal (negative : Bool) (digits count : Nat) (exponent : Int) : Binary64 :=
  if digits = 0 then zero negative
  else if 400 < exponent then .infinite negative
  else if exponent + count < -400 then zero negative
  else ofRatio negative (digits * tenTo exponent) (tenTo (-exponent))

end Binary64

end MiniPascal

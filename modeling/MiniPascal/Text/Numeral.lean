import MiniPascal.Binary64.Shortest
import MiniPascal.Text.Blank
import MiniPascal.Text.Digit

/-!
# Decimal numerals

How integers are written, and how integers and reals are read from a text. A numeral of more
than 4300 digits is **overlong**: it is neither written nor read.

* `MiniPascal.Numeral.write?`: the decimal numeral of an integer.
* `MiniPascal.Numeral.readInt?` and `MiniPascal.Numeral.readReal?`: the number a text stands
  for. Blanks may surround it, the digits may be those of any script, and a single underscore
  may stand between two digits.
-/

namespace MiniPascal.Numeral

/-! ### Writing -/

/-- The greatest number of digits of a numeral. -/
def maxDigits : Nat := 4300

/-- Whether the integer has too many digits to be written. -/
def isOverlong (n : Int) : Bool := Binary64.tenTo maxDigits ≤ n.natAbs

/-- The decimal digits of an integer after its sign. -/
def chars (n : Int) : List Char :=
  Binary64.signText (decide (n < 0)) ++ Binary64.decimalDigits n.natAbs

/-- The decimal numeral of an integer, whatever its length. -/
def write (n : Int) : String := String.ofList (chars n)

/-- The decimal numeral of an integer, unless it is overlong. -/
def write? (n : Int) : Option String := if isOverlong n then none else some (write n)

/-! ### Reading -/

/-- The text without the blanks at both ends. -/
def trim (text : Text) : Text :=
  ((text.dropWhile Text.isPadding).reverse.dropWhile Text.isPadding).reverse

/-- The text without its underscores, each of which has to stand between two digits. The flag
says whether the code point before was a digit. -/
def dropUnderscores? (afterDigit : Bool) : Text → Option Text
  | [] => some []
  | .char '_' :: c :: cs =>
    if afterDigit && Text.isDigit c then (dropUnderscores? true cs).map (c :: ·) else none
  | c :: cs =>
    if c = .char '_' then none else (dropUnderscores? (Text.isDigit c) cs).map (c :: ·)

/-- A sign in front, if there is one, and what follows it. -/
def splitSign : Text → Bool × Text
  | .char '-' :: cs => (true, cs)
  | .char '+' :: cs => (false, cs)
  | cs => (false, cs)

/-- The integer of the given sign and digits; at least one digit, and not too many. -/
def signedDigits? (negative : Bool) (digits : Text) : Option Int :=
  if digits.isEmpty || !digits.all Text.isDigit || maxDigits < digits.length then none
  else
    let n := Text.digitsValue digits
    some (if negative then -(n : Int) else n)

/-- The integer that a text stands for. -/
def readInt? (text : Text) : Option Int := do
  let plain ← dropUnderscores? false (trim text)
  let (negative, digits) := splitSign plain
  signedDigits? negative digits

/-- The number of digits that a text begins with. An underscore may stand between two of them, and
nothing else may be in front of an underscore or behind it. The flag says whether the code point before
was a digit. -/
def leadingDigits? (afterDigit : Bool) : Text → Option Nat
  | [] => some 0
  | .char '_' :: c :: cs =>
    if afterDigit && Text.isDigit c then (leadingDigits? true cs).map (· + 1) else none
  | c :: cs =>
    if c = .char '_' then none
    else if Text.isDigit c then (leadingDigits? true cs).map (· + 1)
    else some 0

/-- The number of digits of an overlong numeral that a text begins with, whatever is behind it. -/
def overlongDigits? (text : Text) : Option Nat := do
  let count ← leadingDigits? false (splitSign (trim text)).2
  if maxDigits < count then some count else none

/-- The exponent part of a real: nothing, or the letter e followed by an integer. -/
def readExponent? : Text → Option Int
  | [] => some 0
  | c :: cs =>
    let (negative, digits) := splitSign cs
    if (c = .char 'e' || c = .char 'E') && !digits.isEmpty && digits.all Text.isDigit then
      let n := Text.digitsValue digits
      some (if negative then -(n : Int) else n)
    else none

/-- The real of the given sign that unsigned digits stand for, with a decimal point and an
exponent if wanted. -/
def readDecimal? (negative : Bool) (text : Text) : Option Binary64 := do
  let whole := text.takeWhile Text.isDigit
  let rest := text.dropWhile Text.isDigit
  let (fraction, rest) : Text × Text := match rest with
    | .char '.' :: cs => (cs.takeWhile Text.isDigit, cs.dropWhile Text.isDigit)
    | _ => ([], rest)
  let digits := whole ++ fraction
  if digits.isEmpty then none
  else
    let exponent ← readExponent? rest
    some (Binary64.ofDecimal negative (Text.digitsValue digits) digits.length
      (exponent - fraction.length))

/-- The real that a text stands for: a decimal, or a spelling of infinity or NaN in letters of
any case. -/
def readReal? (text : Text) : Option Binary64 := do
  let plain ← dropUnderscores? false (trim text)
  let (negative, body) := splitSign plain
  let word := String.ofList (body.map (·.toChar.toLower))
  if word = "inf" || word = "infinity" then some (.infinite negative)
  else if word = "nan" then some .nan
  else readDecimal? negative body

end MiniPascal.Numeral

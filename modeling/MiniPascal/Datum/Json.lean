import MiniPascal.Datum.Basic

/-!
# Plain data as JSON text

A tree document is a JSON text. The reader takes the grammar of JSON with three additions: the
words `NaN`, `Infinity` and `-Infinity` are reals. A number without fraction and exponent is an
integer, and an overlong one is refused; of two fields of one name the last counts, in the place
of the first. Two escapes that form a surrogate pair are one character, and a surrogate that
stands alone is kept. The writer keeps characters beyond ASCII as they are, and writes a
surrogate as an escape.

* `MiniPascal.Datum.ofJson?`: the datum that a JSON text stands for.
* `MiniPascal.Datum.toJson`: a datum on one line.
* `MiniPascal.Datum.toIndentedJson`: a datum with one element a line.
-/

namespace MiniPascal.Datum

/-! ### Reading strings -/

/-- The blanks of JSON. -/
def isJsonBlank (c : Char) : Bool := c = ' ' || c = '\t' || c = '\n' || c = '\r'

/-- The text without blanks in front. -/
def skipBlanks (chars : List Char) : List Char := chars.dropWhile isJsonBlank

/-- The value of a hexadecimal digit. -/
def hexValue? (c : Char) : Option Nat :=
  if '0' ≤ c && c ≤ '9' then some (c.toNat - '0'.toNat)
  else if 'a' ≤ c && c ≤ 'f' then some (c.toNat - 'a'.toNat + 10)
  else if 'A' ≤ c && c ≤ 'F' then some (c.toNat - 'A'.toNat + 10)
  else none

/-- The value of four hexadecimal digits. -/
def hexUnit? (a b c d : Char) : Option Nat := do
  let a ← hexValue? a
  let b ← hexValue? b
  let c ← hexValue? c
  let d ← hexValue? d
  return 0x1000 * a + 0x100 * b + 0x10 * c + d

/-- The code point of a character that is written as a backslash and a letter. -/
def letterEscape? (c : Char) : Option Nat :=
  match c with
  | '"' | '\\' | '/' => some c.toNat
  | 'b' => some 8
  | 'f' => some 12
  | 'n' => some 10
  | 'r' => some 13
  | 't' => some 9
  | _ => none

/-- The units of a string up to its closing quote, last one first, and the text behind the
quote. An escaped unit may be half of a surrogate pair. -/
def readUnits? (units : List Nat) : List Char → Option (List Nat × List Char)
  | [] => none
  | '"' :: rest => some (units, rest)
  | '\\' :: 'u' :: a :: b :: c :: d :: rest =>
    match hexUnit? a b c d with
    | some unit => readUnits? (unit :: units) rest
    | none => none
  | '\\' :: c :: rest =>
    match letterEscape? c with
    | some unit => readUnits? (unit :: units) rest
    | none => none
  | c :: rest => if c = '\\' || c.toNat < 0x20 then none else readUnits? (c.toNat :: units) rest

/-- The code points of units in reverse order, in front of the given ones: a surrogate pair is
one character. -/
def joinUnits (text : Text) : List Nat → Text
  | [] => text
  | low :: high :: units =>
    if 0xDC00 ≤ low && low < 0xE000 && 0xD800 ≤ high && high < 0xDC00 then
      joinUnits (.ofNat (0x10000 + (high - 0xD800) * 0x400 + (low - 0xDC00)) :: text) units
    else joinUnits (.ofNat low :: text) (high :: units)
  | [unit] => .ofNat unit :: text

/-- A string from behind its opening quote, and the text behind the closing one. -/
def readString? (chars : List Char) : Option (Text × List Char) :=
  (readUnits? [] chars).map fun (units, rest) => (joinUnits [] units, rest)

/-! ### Reading numbers -/

/-- The whole part of a number: a zero, or digits that do not start with one. -/
def readWhole? : List Char → Option (List Char × List Char)
  | '0' :: rest => some (['0'], rest)
  | chars =>
    let digits := chars.takeWhile Char.isDigit
    if digits.isEmpty then none else some (digits, chars.dropWhile Char.isDigit)

/-- A fraction, if there is one: a point and digits. -/
def readFraction : List Char → List Char × List Char
  | '.' :: rest =>
    let digits := rest.takeWhile Char.isDigit
    if digits.isEmpty then ([], '.' :: rest) else (digits, rest.dropWhile Char.isDigit)
  | chars => ([], chars)

/-- The sign of an exponent, if there is one, and what follows it. -/
def readSign : List Char → Bool × List Char
  | '-' :: rest => (true, rest)
  | '+' :: rest => (false, rest)
  | chars => (false, chars)

/-- An exponent, if there is one: the letter e, a sign and digits. -/
def readExponent : List Char → Option Int × List Char
  | [] => (none, [])
  | e :: chars =>
    let (negative, digits) := readSign chars
    let power := digits.takeWhile Char.isDigit
    if (e = 'e' || e = 'E') && !power.isEmpty then
      let n := Text.digitsValue (Text.ofChars power)
      (some (if negative then -(n : Int) else n), digits.dropWhile Char.isDigit)
    else (none, e :: chars)

/-- A number of the given sign, from behind the sign. -/
def readNumber? (negative : Bool) (chars : List Char) : Option (Datum × List Char) := do
  let (whole, rest) ← readWhole? chars
  let (fraction, rest) := readFraction rest
  let (exponent, rest) := readExponent rest
  if fraction.isEmpty && exponent.isNone then
    let n ← Numeral.signedDigits? negative (Text.ofChars whole)
    return (int n, rest)
  else
    let digits := whole ++ fraction
    return (real (Binary64.ofDecimal negative (Text.digitsValue (Text.ofChars digits)) digits.length
      (exponent.getD 0 - fraction.length)), rest)

/-! ### Reading data -/

/-- What a word stands for, with the text behind it. -/
def readWord? (word : String) (d : Datum) (chars : List Char) : Option (Datum × List Char) :=
  if word.toList.isPrefixOf chars then some (d, chars.drop word.length) else none

mutual

/-- A datum without blanks in front, and the text behind it. -/
def readDatum? : Nat → List Char → Option (Datum × List Char)
  | 0, _ => none
  | fuel + 1, chars =>
    match chars with
    | '"' :: rest => (readString? rest).map fun (s, rest) => (text s, rest)
    | '[' :: rest =>
      match skipBlanks rest with
      | ']' :: rest => some (list [], rest)
      | rest => readItems? fuel [] rest
    | '\x7b' :: rest =>
      match skipBlanks rest with
      | '\x7d' :: rest => some (record [], rest)
      | rest => readFields? fuel [] rest
    | 'n' :: _ => readWord? "null" null chars
    | 't' :: _ => readWord? "true" (bool true) chars
    | 'f' :: _ => readWord? "false" (bool false) chars
    | 'N' :: _ => readWord? "NaN" (real .nan) chars
    | 'I' :: _ => readWord? "Infinity" (real (.infinite false)) chars
    | '-' :: 'I' :: _ => readWord? "-Infinity" (real (.infinite true)) chars
    | '-' :: rest => readNumber? true rest
    | _ => readNumber? false chars

/-- The elements of a list behind those read before, which are in reverse order. -/
def readItems? : Nat → List Datum → List Char → Option (Datum × List Char)
  | 0, _, _ => none
  | fuel + 1, items, chars =>
    match readDatum? fuel chars with
    | none => none
    | some (d, rest) =>
      match skipBlanks rest with
      | ']' :: rest => some (list (d :: items).reverse, rest)
      | ',' :: rest => readItems? fuel (d :: items) (skipBlanks rest)
      | _ => none

/-- The fields of a record behind those read before. -/
def readFields? : Nat → List (Text × Datum) → List Char → Option (Datum × List Char)
  | 0, _, _ => none
  | fuel + 1, fields, chars =>
    match chars with
    | '"' :: rest =>
      match readString? rest with
      | none => none
      | some (key, rest) =>
        match skipBlanks rest with
        | ':' :: rest =>
          match readDatum? fuel (skipBlanks rest) with
          | none => none
          | some (d, rest) =>
            match skipBlanks rest with
            | '\x7d' :: rest => some (record (insert key d fields), rest)
            | ',' :: rest => readFields? fuel (insert key d fields) (skipBlanks rest)
            | _ => none
        | _ => none
    | _ => none

end

/-- The datum that a JSON text stands for. -/
def ofJson? (json : String) : Option Datum :=
  let chars := json.toList
  match readDatum? (chars.length + 1) (skipBlanks chars) with
  | some (d, rest) => if (skipBlanks rest).isEmpty then some d else none
  | none => none

/-! ### Writing -/

/-- The escape of four hexadecimal digits for a number. -/
def jsonNumericEscape (n : Nat) : List Char := '\\' :: 'u' :: Text.hexadecimal 4 n

/-- A code point as it stands in a JSON string. -/
def jsonEscape : CodePoint → List Char
  | .char '"' => ['\\', '"']
  | .char '\\' => ['\\', '\\']
  | .char '\n' => ['\\', 'n']
  | .char '\r' => ['\\', 'r']
  | .char '\t' => ['\\', 't']
  | .char '\x08' => ['\\', 'b']
  | .char '\x0c' => ['\\', 'f']
  | .char c => if c.toNat < 0x20 then jsonNumericEscape c.toNat else [c]
  | .surrogate k => jsonNumericEscape (CodePoint.surrogate k).toNat

/-- A text as a JSON string. -/
def jsonString (s : Text) : String := String.ofList ('"' :: s.flatMap jsonEscape ++ ['"'])

/-- A real as a JSON number, or one of the words for infinity and NaN. -/
def jsonReal : Binary64 → String
  | .nan => "NaN"
  | .infinite n => if n then "-Infinity" else "Infinity"
  | x => x.toText

mutual

/-- A datum as JSON text on one line. -/
def toJson : Datum → String
  | null => "null"
  | bool b => if b then "true" else "false"
  | int n => Numeral.write n
  | real x => jsonReal x
  | text s => jsonString s
  | list items => "[" ++ String.intercalate "," (itemsToJson items) ++ "]"
  | record fields => "\x7b" ++ String.intercalate "," (fieldsToJson fields) ++ "\x7d"

/-- Every element of a list as JSON text. -/
def itemsToJson : List Datum → List String
  | [] => []
  | d :: ds => toJson d :: itemsToJson ds

/-- Every field of a record as JSON text. -/
def fieldsToJson : List (Text × Datum) → List String
  | [] => []
  | (k, d) :: fields => (jsonString k ++ ":" ++ toJson d) :: fieldsToJson fields

end

/-- The start of a line at the given depth: two blanks a level. -/
def jsonIndent (depth : Nat) : String := String.ofList ('\n' :: List.replicate (2 * depth) ' ')

/-- Elements one a line between brackets; no elements need no lines. -/
def jsonBlock (depth : Nat) (opening closing : String) (elements : List String) : String :=
  if elements.isEmpty then opening ++ closing
  else
    let start := jsonIndent (depth + 1)
    opening ++ start ++ String.intercalate ("," ++ start) elements ++ jsonIndent depth ++ closing

mutual

/-- A datum as JSON text with one element a line, at the given depth. -/
def toIndentedJson (depth : Nat) : Datum → String
  | list items => jsonBlock depth "[" "]" (itemsToIndentedJson (depth + 1) items)
  | record fields => jsonBlock depth "\x7b" "\x7d" (fieldsToIndentedJson (depth + 1) fields)
  | d => toJson d

/-- Every element of a list as indented JSON text. -/
def itemsToIndentedJson (depth : Nat) : List Datum → List String
  | [] => []
  | d :: ds => toIndentedJson depth d :: itemsToIndentedJson depth ds

/-- Every field of a record as indented JSON text. -/
def fieldsToIndentedJson (depth : Nat) : List (Text × Datum) → List String
  | [] => []
  | (k, d) :: fields =>
    (jsonString k ++ ": " ++ toIndentedJson depth d) :: fieldsToIndentedJson depth fields

end

end MiniPascal.Datum

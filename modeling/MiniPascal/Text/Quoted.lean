import MiniPascal.Text.Printable

/-!
# Quoted text

Token descriptions, node descriptions and trace messages show a text between **quotes**, with
every character that is not printable written as an escape.

* `MiniPascal.Text.quote`: a text between quotes. Single quotes are taken, unless the text holds
  a single quote and no double quote.
* `MiniPascal.Text.hexadecimal`: a number in lower-case hexadecimal digits, filled with zeros.
-/

namespace MiniPascal.Text

/-- A number in lower-case hexadecimal digits, filled with zeros to at least `width`. -/
def hexadecimal (width n : Nat) : List Char :=
  let digits := Nat.toDigits 16 n
  List.replicate (width - digits.length) '0' ++ digits

/-- A code point as it stands in a text between the given quotes. -/
def escape (mark : Char) (c : CodePoint) : Text :=
  if c = .char mark || c = .char '\\' then [.char '\\', c]
  else if c = .char '\n' then "\\n"
  else if c = .char '\r' then "\\r"
  else if c = .char '\t' then "\\t"
  else if isPrintable c then [c]
  else if c.toNat < 0x100 then ofChars ('\\' :: 'x' :: hexadecimal 2 c.toNat)
  else if c.toNat < 0x10000 then ofChars ('\\' :: 'u' :: hexadecimal 4 c.toNat)
  else ofChars ('\\' :: 'U' :: hexadecimal 8 c.toNat)

/-- The quotes for a text: double ones if it holds a single quote and no double one. -/
def quoteMark (text : Text) : Char :=
  if text.contains (.char '\'') && !text.contains (.char '"') then '"' else '\''

/-- A text between quotes, with escapes for what is not printable. -/
def quote (text : Text) : Text :=
  let mark := quoteMark text
  .char mark :: text.flatMap (escape mark) ++ [.char mark]

end MiniPascal.Text

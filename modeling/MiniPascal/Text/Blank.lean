import MiniPascal.Text.Ranges

/-!
# White space

White space separates the tokens of a program and may surround a number in a tree document. It
is the Unicode property of that name together with the four information separators U+001C to
U+001F. The zero-width space and the byte order mark are no white space.
-/

namespace MiniPascal.Text

/-- The 29 white-space characters. -/
def blanks : Ranges :=
  [(0x9, 0xD), (0x1C, 0x20), (0x85, 0x85), (0xA0, 0xA0), (0x1680, 0x1680), (0x2000, 0x200A),
   (0x2028, 0x2029), (0x202F, 0x202F), (0x205F, 0x205F), (0x3000, 0x3000)]

/-- Whether the character is white space. -/
def isBlank (c : CodePoint) : Bool := blanks.holds c.toNat

/-- The blanks that may surround a number: white space other than the information separators. -/
def isPadding (c : CodePoint) : Bool := isBlank c && !(0x1C ≤ c.toNat && c.toNat ≤ 0x1F)

end MiniPascal.Text

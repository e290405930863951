import MiniPascal.Token.Basic
import MiniPascal.Text.Blank

/-!
# Cutting a text into pieces

Reading a program text starts with cutting it into **pieces**: tokens, white space and comments.
What the next piece is depends on the first character and on how the text goes on:

* a number is a run of digits; a point behind it makes it a real, unless a second point follows
  at once; further groups of a point and digits make it a malformed number;
* a string ends at the first quote that is not doubled. If every quote up to the end of the text
  is doubled, it ends at the first quote of the last pair; without any quote it is unclosed and
  takes the rest of the text;
* a comment ends at the first closing brace; an opening brace without one is stray;
* of the special symbols those of two characters go first.

Every piece holds at least its first character, so that the cutting comes to an end, and nothing
of the text is lost (`MiniPascal.flatten_pieces`).
-/

namespace MiniPascal

/-- What a piece of a program text is. -/
inductive Terminal
  | malformedNumber
  | real
  | integer
  | string
  | unclosedString
  | word
  | comment
  | blank
  | symbol (s : Symbol)
  | stray
deriving DecidableEq, Inhabited

/-- A piece of a program text. -/
structure Piece where
  terminal : Terminal
  text : Text
deriving DecidableEq, Inhabited

namespace Piece

/-! ### Numbers -/

/-- The length of the longest run of groups of a point and digits at the start of a text that
stands behind a digit: `best` is the length up to the last digit seen, `seen` that up to the
last character. -/
def dottedLength (best seen : Nat) (afterDigit : Bool) : Text → Nat
  | [] => best
  | c :: cs =>
    if Text.isDigit c then dottedLength (seen + 1) (seen + 1) true cs
    else if c = .char '.' && afterDigit then dottedLength best (seen + 1) false cs
    else best

/-- The length of the run of digits at the start of a text. -/
def digitsLength (text : Text) : Nat := (text.takeWhile Text.isDigit).length

/-- The number at the start of a text whose first character is a digit: what it is, and how many
characters behind the first belong to it. -/
def measureNumber (rest : Text) : Terminal × Nat :=
  let whole := digitsLength rest
  match rest.drop whole with
  | .char '.' :: tail =>
    let fraction := digitsLength tail
    if fraction = 0 then
      if tail.head? = some (.char '.') then (.integer, whole) else (.real, whole + 1)
    else
      let groups := dottedLength 0 0 true (tail.drop fraction)
      let length := whole + 1 + fraction
      if groups = 0 then (.real, length) else (.malformedNumber, length + groups)
  | _ => (.integer, whole)

/-! ### Strings, comments and words -/

/-- The number of characters up to the quote that closes a string, from behind the opening one:
`closing` is the answer if the text ends here, `seen` the number of characters so far. -/
def closingQuote? (closing : Option Nat) (seen : Nat) : Text → Option Nat
  | [] => closing
  | .char '\'' :: .char '\'' :: rest => closingQuote? (some (seen + 1)) (seen + 2) rest
  | .char '\'' :: _ => some (seen + 1)
  | _ :: rest => closingQuote? closing (seen + 1) rest

/-- A character of a word behind its first letter. -/
def isWordChar (c : CodePoint) : Bool := c.isAlphanum || c = .char '_'

/-- The piece at the start of a text of the given first character and rest: what it is, and how
many characters of the rest belong to it. -/
def measure (c : CodePoint) (rest : Text) : Terminal × Nat :=
  if Text.isDigit c then measureNumber rest
  else if c = .char '\'' then
    match closingQuote? none 0 rest with
    | some length => (.string, length)
    | none => (.unclosedString, rest.length)
  else if c.isAlpha then (.word, (rest.takeWhile isWordChar).length)
  else if c = .char '\x7b' then
    if rest.contains (.char '\x7d') then
      (.comment, (rest.takeWhile (· ≠ .char '\x7d')).length + 1)
    else (.stray, 0)
  else if Text.isBlank c then (.blank, (rest.takeWhile Text.isBlank).length)
  else
    match rest.head?.bind (Symbol.ofTwo? c) with
    | some s => (.symbol s, 1)
    | none =>
      match Symbol.ofOne? c with
      | some s => (.symbol s, 0)
      | none => (.stray, 0)

end Piece

/-! ### The whole text -/

/-- The pieces of a text, in order. -/
def pieces : Text → List Piece
  | [] => []
  | c :: rest =>
    let cut := Piece.measure c rest
    ⟨cut.1, c :: rest.take cut.2⟩ :: pieces (rest.drop cut.2)
termination_by text => text.length
decreasing_by simp only [List.length_drop, List.length_cons]; omega

@[simp] theorem pieces_nil : pieces [] = [] := by rw [pieces]

theorem pieces_cons (c : CodePoint) (rest : Text) :
    pieces (c :: rest) =
      ⟨(Piece.measure c rest).1, c :: rest.take (Piece.measure c rest).2⟩ ::
        pieces (rest.drop (Piece.measure c rest).2) := by
  rw [pieces]

/-- Put together, the pieces are the text. -/
theorem flatten_pieces (text : Text) : (pieces text).flatMap (·.text) = text := by
  induction text using pieces.induct with
  | case1 => simp
  | case2 c rest cut ih => simp [pieces_cons, ih, cut]

/-- No piece is empty. -/
theorem text_ne_nil_of_mem_pieces {text : Text} {p : Piece} (h : p ∈ pieces text) :
    p.text ≠ [] := by
  induction text using pieces.induct with
  | case1 => simp at h
  | case2 c rest cut ih =>
    rw [pieces_cons, List.mem_cons] at h
    rcases h with rfl | h
    · simp
    · exact ih h

end MiniPascal

import MiniPascal.Text.Basic

/-!
# Capital forms of words

Reserved words are recognised by their **capital form**: a word is reserved if writing it in
capitals gives one of the reserved spellings. All those spellings are ASCII, so only the
characters whose capital form is ASCII matter. Besides the ASCII letters these are the sharp s,
the dotless i, the long s and the seven Latin ligatures.
-/

namespace MiniPascal.Text

/-- The capital form of a character where that is ASCII; any other character stands for itself,
which no ASCII text holds. -/
def capitalForm (c : Char) : List Char :=
  if c = 'ß' then ['S', 'S']
  else if c = 'ı' then ['I']
  else if c = 'ſ' then ['S']
  else if c = 'ﬀ' then ['F', 'F']
  else if c = 'ﬁ' then ['F', 'I']
  else if c = 'ﬂ' then ['F', 'L']
  else if c = 'ﬃ' then ['F', 'F', 'I']
  else if c = 'ﬄ' then ['F', 'F', 'L']
  else if c = 'ﬅ' then ['S', 'T']
  else if c = 'ﬆ' then ['S', 'T']
  else [c.toUpper]

/-- The capital form of a word, exact as far as it is ASCII. -/
def capitals (word : Text) : Text :=
  word.flatMap fun
    | .char c => ofChars (capitalForm c)
    | point => [point]

end MiniPascal.Text

import MiniPascal.Log
import MiniPascal.Report
import MiniPascal.Token.Piece

/-!
# The tokens of a text

White space and comments are dropped, and every other piece is a **lexeme**: a token, or an
overlong integer, which has no value and stops whoever asks for it. A **feed** hands the lexemes
out one at a time. It reports an error token when it is handed out, so that an error behind the
last token asked for is never reported, and when the text is at its end it hands out the
end-of-file token for ever, with the line of the last token before it.
-/

namespace MiniPascal

/-! ### From pieces to lexemes -/

/-- What is handed out for a piece that is neither white space nor a comment. -/
inductive Lexeme
  | token (t : Token)
  /-- An integer of more than 4300 digits. -/
  | overlong
deriving DecidableEq, Inhabited

namespace Piece

/-- The real that the text of a number stands for: digits, a point and perhaps digits. -/
def realValue (text : Text) : Binary64 :=
  let fraction := (text.dropWhile Text.isDigit).drop 1
  let digits := text.takeWhile Text.isDigit ++ fraction
  Binary64.ofDecimal false (Text.digitsValue digits) digits.length (-fraction.length)

/-- The text with every pair of quotes made one. -/
def undouble : Text → Text
  | .char '\'' :: .char '\'' :: rest => .char '\'' :: undouble rest
  | c :: rest => c :: undouble rest
  | [] => []

/-- The kind of a string token with the given text between its quotes. -/
def stringKind (text : Text) : Token.Kind :=
  match undouble text with
  | [c] => .character c
  | cs => .string cs

/-- The lexeme of a piece that starts on the given line. -/
def lexeme? (line : Nat) (p : Piece) : Option Lexeme :=
  let token (kind : Token.Kind) : Option Lexeme :=
    some (.token ⟨kind, line, p.text⟩)
  match p.terminal with
  | .comment | .blank => none
  | .word => token (wordKind p.text)
  | .integer =>
    if Numeral.maxDigits < p.text.length then some .overlong
    else token (.integer (Text.digitsValue p.text))
  | .real => token (.real (realValue p.text))
  | .string => token (stringKind (p.text.drop 1).dropLast)
  | .symbol s => token (.symbol s)
  | .malformedNumber => token (.error .malformedNumber)
  | .unclosedString => token (.error .unclosedString)
  | .stray => token (.error .strayCharacter)

/-- The number of line ends in a piece. -/
def lineEnds (p : Piece) : Nat := p.text.count (.char '\n')

end Piece

/-- The lexemes of pieces, the first of which starts on the given line. -/
def lexemesFrom (line : Nat) : List Piece → List Lexeme
  | [] => []
  | p :: ps => (p.lexeme? line).toList ++ lexemesFrom (line + p.lineEnds) ps

/-- The lexemes of a program text. -/
def lexemes (source : Text) : List Lexeme := lexemesFrom 1 (pieces source)

/-! ### Reporting error tokens -/

namespace Token

/-- The reports that a token makes when it is handed out: one if it is an error token. -/
def reports (t : Token) : List Report :=
  match t.kind with
  | .error flaw => [⟨.token, t.line, flaw.message, t.text⟩]
  | _ => []

/-- The log entries that a token makes when it is handed out: one if it is an error token. -/
def logEntries (t : Token) : List Log.Entry :=
  match t.kind with
  | .error flaw => [⟨.debug, .scanner,
      "token error " ++ flaw.name ++ " at line " ++ Numeral.write t.line ++ ": " ++
        Text.quote t.text⟩]
  | _ => []

end Token

/-! ### Handing them out -/

/-- Lexemes to be handed out, with the reports and the log made so far. -/
structure Feed where
  rest : List Lexeme
  /-- The line of the last token handed out. -/
  lastLine : Nat
  reports : Array Report
  log : Array Log.Entry
deriving Inhabited

namespace Feed

/-- The feed of a program text behind earlier reports. -/
def ofSource (source : Text) (reports : Array Report) : Feed := ⟨lexemes source, 1, reports, #[]⟩

/-- The feed in which an error token is reported; any other token changes nothing. -/
def note (feed : Feed) (t : Token) : Feed :=
  { feed with
    reports := feed.reports ++ t.reports
    log := feed.log ++ t.logEntries }

/-- The next token, `none` for an overlong integer, and the feed behind it. -/
def next (feed : Feed) : Option Token × Feed :=
  match feed.rest with
  | [] => (some ⟨.endOfFile, feed.lastLine, []⟩, feed)
  | .overlong :: rest => (none, { feed with rest })
  | .token t :: rest => (some t, { feed with rest, lastLine := t.line }.note t)

/-- The tokens that the given lexemes hold up to their end or to an overlong integer, the feed
behind them, and whether the end was reached. -/
def takeTokens (feed : Feed) : List Lexeme → List Token × Feed × Bool
  | [] => ([], { feed with rest := [] }, true)
  | .overlong :: rest => ([], { feed with rest }, false)
  | .token t :: rest =>
    let (tokens, feed, done) := takeTokens ({ feed with lastLine := t.line }.note t) rest
    (t :: tokens, feed, done)

/-- The tokens that are left, up to the end of the text or to an overlong integer, the feed
behind them, and whether the end was reached. -/
def remaining (feed : Feed) : List Token × Feed × Bool := feed.takeTokens feed.rest

end Feed

end MiniPascal

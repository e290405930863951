import MiniPascal.Node.Basic
import MiniPascal.SymbolTable
import MiniPascal.Token.Feed

/-!
# Reading with one token in hand

A program is read with one **current token** in hand and the others still in the feed. Errors do
not stop the reading: a complaint about the current token is reported and logged, and after most
complaints the tokens up to one that can follow a statement are skipped. Only an overlong
integer stops it.

* `MiniPascal.Cursor`: the current token, the feed and the symbol table.
* `MiniPascal.Reading`: an action that moves the cursor on.
* `MiniPascal.Reading.reject`: complains about the current token and skips.
-/

namespace MiniPascal

/-! ### Complaints -/

/-- What can be wrong with the current token. -/
inductive Complaint
  | expectingProgram
  | expectingName
  | expectingBegin
  | expectingEnd
  | expectingPeriod
  | expectingThen
  | expectingDo
  | expectingUntil
  | expectingControlVariable
  | expectingTo
  | expectingOf
  | expectingColon
  | expectingRightParen
  | expectingNumber
  | missingSemicolon
  | missingBecomes
  | missingLeftParen
  | missingRightParen
  | invalidConstant
  | invalidWrite
  | invalidWidth
  | invalidPlaces
  | unexpectedToken
  | undeclared
deriving DecidableEq

/-- The wording of a complaint. -/
def Complaint.message : Complaint → Text
  | expectingProgram => "Expecting PROGRAM"
  | expectingName => "Expecting program name"
  | expectingBegin => "Expecting BEGIN"
  | expectingEnd => "Expecting END"
  | expectingPeriod => "Expecting ."
  | expectingThen => "Expecting THEN"
  | expectingDo => "Expecting DO"
  | expectingUntil => "Expecting UNTIL"
  | expectingControlVariable => "Expecting control variable"
  | expectingTo => "Expecting TO or DOWNTO"
  | expectingOf => "Expecting OF"
  | expectingColon => "Expecting :"
  | expectingRightParen => "Expecting )"
  | expectingNumber => "Expecting a number"
  | missingSemicolon => "Missing ;"
  | missingBecomes => "Missing :="
  | missingLeftParen => "Missing left parenthesis"
  | missingRightParen => "Missing right parenthesis"
  | invalidConstant => "Invalid constant"
  | invalidWrite => "Invalid WRITE or WRITELN statement"
  | invalidWidth => "Invalid field width"
  | invalidPlaces => "Invalid count of decimal places"
  | unexpectedToken => "Unexpected token"
  | undeclared => "Undeclared identifier"

/-- The kind of report that a complaint makes: only an undeclared variable is no matter of
grammar. -/
def Complaint.reportKind : Complaint → Report.Kind
  | undeclared => .semantic
  | _ => .syntactic

/-- How the log speaks of a kind of complaint. -/
def Complaint.logPhrase (c : Complaint) : Text :=
  match c.reportKind with
  | .semantic => "semantic error: "
  | _ => "syntax error: "

/-! ### Classes of tokens -/

namespace Token.Kind

/-- Tokens that can start a statement. -/
def startsStatement : Kind → Bool
  | identifier | keyword .beginKw | keyword .repeatKw | keyword .ifKw | keyword .whileKw
  | keyword .forKw | keyword .caseKw => true
  | _ => false

/-- Tokens that can follow a statement; skipping stops in front of them. -/
def followsStatement : Kind → Bool
  | endOfFile | symbol .semicolon | keyword .endKw | keyword .untilKw | keyword .thenKw
  | keyword .elseKw | keyword .doKw | keyword .toKw | keyword .downtoKw | keyword .ofKw => true
  | _ => false

/-- Tokens in front of which a statement may be empty. -/
def followsEmptyStatement : Kind → Bool
  | endOfFile | symbol .semicolon | keyword .endKw | keyword .untilKw | keyword .elseKw => true
  | _ => false

end Token.Kind

/-! ### The cursor -/

/-- Why reading stops before its end. -/
inductive Halt
  /-- An overlong integer was asked for. -/
  | overlong
  /-- The allotted number of steps was too small. -/
  | exhausted
deriving DecidableEq

/-- The current token, what is behind it, and the names met so far. -/
structure Cursor extends Feed where
  current : Token
  table : SymbolTable
deriving Inhabited

/-- An action that moves the cursor on. The cursor outlives a halt. -/
abbrev Reading := EStateM Halt Cursor

namespace Reading

/-- The current token. -/
def current : Reading Token := return (← get).current

/-- The kind of the current token. -/
def kind : Reading Token.Kind := return (← get).current.kind

/-- The number of reports so far. -/
def reportCount : Reading Nat := return (← get).reports.size

/-- A number of steps that is enough for a loop that moves on with every step. -/
def budget : Reading Nat := return (← get).rest.length + 2

/-- Moves on to the next token. -/
def advance : Reading Unit := fun cursor =>
  match cursor.next with
  | (some t, feed) => .ok () { cursor with toFeed := feed, current := t }
  | (none, feed) => .error .overlong { cursor with toFeed := feed }

/-- Reports a complaint about the current token. -/
def complain (c : Complaint) : Reading Unit :=
  modify fun cursor =>
    let t := cursor.current
    { cursor with
      reports := cursor.reports.push ⟨c.reportKind, t.line, c.message, t.text⟩
      log := cursor.log.push ⟨.debug, .parser,
        c.logPhrase ++ c.message ++ " at " ++ t.description⟩ }

/-- Skips tokens up to one that can follow a statement. -/
def skip : Nat → Reading Unit
  | 0 => throw .exhausted
  | fuel + 1 => do
    if (← kind).followsStatement then return ()
    else
      advance
      skip fuel

/-- Reports a complaint about the current token, and skips tokens up to one that can follow a
statement. -/
def reject (c : Complaint) : Reading Unit := do
  complain c
  skip (← budget)

/-- Moves on if the current token is of the given kind, and rejects it otherwise; says which of
the two it was. -/
def expect (expected : Token.Kind) (c : Complaint) : Reading Bool := do
  if (← kind) = expected then
    advance
    return true
  else
    reject c
    return false

/-- Moves on behind any semicolons. -/
def skipSemicolons : Nat → Reading Unit
  | 0 => throw .exhausted
  | fuel + 1 => do
    if (← kind) = .symbol .semicolon then
      advance
      skipSemicolons fuel
    else return ()

end Reading

end MiniPascal

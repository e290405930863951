import MiniPascal.Binary64.Basic
import MiniPascal.Text.Capitals
import MiniPascal.Text.Quoted
import MiniPascal.Text.Numeral

/-!
# Tokens

A program text is read as a sequence of **tokens**: reserved words, special symbols,
identifiers, numbers, strings, and the end of the text. Characters that form no token are error
tokens, so that there always is a next token.

* `MiniPascal.Keyword`, `MiniPascal.Symbol`: the reserved words and the special symbols.
* `MiniPascal.Token`: a token with the line on which it starts and its text.
* `MiniPascal.wordKind`: what a word is, by its capital form.
-/

namespace MiniPascal

/-! ### Reserved words -/

/-- The reserved words. Some are not used by the language so far. -/
inductive Keyword
  | andKw
  | arrayKw
  | beginKw
  | caseKw
  | constKw
  | divKw
  | doKw
  | downtoKw
  | elseKw
  | endKw
  | fileKw
  | forKw
  | functionKw
  | gotoKw
  | ifKw
  | inKw
  | labelKw
  | modKw
  | nilKw
  | notKw
  | ofKw
  | orKw
  | packedKw
  | procedureKw
  | programKw
  | recordKw
  | repeatKw
  | setKw
  | thenKw
  | toKw
  | typeKw
  | untilKw
  | varKw
  | whileKw
  | withKw
deriving DecidableEq, Inhabited

namespace Keyword

/-- A reserved word in capitals. -/
def name : Keyword → String
  | andKw => "AND"
  | arrayKw => "ARRAY"
  | beginKw => "BEGIN"
  | caseKw => "CASE"
  | constKw => "CONST"
  | divKw => "DIV"
  | doKw => "DO"
  | downtoKw => "DOWNTO"
  | elseKw => "ELSE"
  | endKw => "END"
  | fileKw => "FILE"
  | forKw => "FOR"
  | functionKw => "FUNCTION"
  | gotoKw => "GOTO"
  | ifKw => "IF"
  | inKw => "IN"
  | labelKw => "LABEL"
  | modKw => "MOD"
  | nilKw => "NIL"
  | notKw => "NOT"
  | ofKw => "OF"
  | orKw => "OR"
  | packedKw => "PACKED"
  | procedureKw => "PROCEDURE"
  | programKw => "PROGRAM"
  | recordKw => "RECORD"
  | repeatKw => "REPEAT"
  | setKw => "SET"
  | thenKw => "THEN"
  | toKw => "TO"
  | typeKw => "TYPE"
  | untilKw => "UNTIL"
  | varKw => "VAR"
  | whileKw => "WHILE"
  | withKw => "WITH"

/-- All reserved words. -/
def all : List Keyword :=
  [andKw, arrayKw, beginKw, caseKw, constKw, divKw, doKw, downtoKw, elseKw, endKw, fileKw, forKw,
   functionKw, gotoKw, ifKw, inKw, labelKw, modKw, nilKw, notKw, ofKw, orKw, packedKw,
   procedureKw, programKw, recordKw, repeatKw, setKw, thenKw, toKw, typeKw, untilKw, varKw,
   whileKw, withKw]

/-- The reserved word with the given capital form. -/
def ofCapitals? (capitals : Text) : Option Keyword := all.find? (Text.ofString ·.name = capitals)

end Keyword

/-! ### Special symbols -/

/-- The special symbols. -/
inductive Symbol
  | period
  | comma
  | colon
  | becomes
  | semicolon
  | plus
  | minus
  | star
  | slash
  | leftParen
  | rightParen
  | equals
  | notEquals
  | lessThan
  | lessEquals
  | greaterThan
  | greaterEquals
  | dotDot
  | leftBracket
  | rightBracket
  | caret
deriving DecidableEq, Inhabited

namespace Symbol

/-- The name of a symbol in messages. -/
def name : Symbol → String
  | period => "PERIOD"
  | comma => "COMMA"
  | colon => "COLON"
  | becomes => "COLON_EQUALS"
  | semicolon => "SEMICOLON"
  | plus => "PLUS"
  | minus => "MINUS"
  | star => "STAR"
  | slash => "SLASH"
  | leftParen => "LPAREN"
  | rightParen => "RPAREN"
  | equals => "EQUALS"
  | notEquals => "NOT_EQUALS"
  | lessThan => "LESS_THAN"
  | lessEquals => "LESS_EQUALS"
  | greaterThan => "GREATER_THAN"
  | greaterEquals => "GREATER_EQUALS"
  | dotDot => "DOT_DOT"
  | leftBracket => "LBRACKET"
  | rightBracket => "RBRACKET"
  | caret => "CARAT"

/-- The symbol of two characters that the two characters form. -/
def ofTwo? : CodePoint → CodePoint → Option Symbol
  | .char ':', .char '=' => some becomes
  | .char '<', .char '>' => some notEquals
  | .char '<', .char '=' => some lessEquals
  | .char '>', .char '=' => some greaterEquals
  | .char '.', .char '.' => some dotDot
  | _, _ => none

/-- The symbol of one character that the character is. -/
def ofOne? : CodePoint → Option Symbol
  | .char '.' => some period
  | .char ',' => some comma
  | .char ':' => some colon
  | .char ';' => some semicolon
  | .char '+' => some plus
  | .char '-' => some minus
  | .char '*' => some star
  | .char '/' => some slash
  | .char '(' => some leftParen
  | .char ')' => some rightParen
  | .char '=' => some equals
  | .char '<' => some lessThan
  | .char '>' => some greaterThan
  | .char '[' => some leftBracket
  | .char ']' => some rightBracket
  | .char '^' => some caret
  | _ => none

end Symbol

/-! ### Tokens -/

/-- What is wrong with characters that form no token. -/
inductive Flaw
  /-- More than one decimal point in a number. -/
  | malformedNumber
  /-- A quote without another one in the rest of the text. -/
  | unclosedString
  /-- A character that no token starts with. -/
  | strayCharacter
deriving DecidableEq, Inhabited

/-- The name of a flaw in the log. -/
def Flaw.name : Flaw → String
  | malformedNumber => "MALFORMED_NUMBER"
  | unclosedString => "UNCLOSED_STRING"
  | strayCharacter => "ERROR_CHAR"

/-- The wording of a flaw in a report. -/
def Flaw.message : Flaw → String
  | malformedNumber => "Invalid number"
  | unclosedString => "String not closed"
  | strayCharacter => "Invalid token"

/-- The kinds of tokens, literals with their value. -/
inductive Token.Kind
  | keyword (word : Keyword)
  | symbol (s : Symbol)
  | identifier
  | integer (n : Int)
  | real (x : Binary64)
  /-- A string of one character. -/
  | character (c : CodePoint)
  /-- A string of no or of several characters. -/
  | string (s : Text)
  | endOfFile
  | error (flaw : Flaw)
deriving DecidableEq, Inhabited

/-- The name of a kind of token. -/
def Token.Kind.name : Token.Kind → String
  | keyword word => word.name
  | symbol s => s.name
  | identifier => "IDENTIFIER"
  | integer _ => "INTEGER"
  | real _ => "REAL"
  | character _ => "CHARACTER"
  | string _ => "STRING"
  | endOfFile => "END_OF_FILE"
  | error _ => "ERROR"

/-- A token: its kind, the line on which it starts, and its text. -/
structure Token where
  kind : Token.Kind
  line : Nat
  text : Text
deriving DecidableEq, Inhabited

/-- A token as the log shows it. -/
def Token.description (t : Token) : Text :=
  "Token(" ++ t.kind.name ++ ", line " ++ Numeral.write t.line ++ ", " ++ Text.quote t.text ++ ")"

/-- What a word is: a reserved word if its capital form is one, and an identifier otherwise. -/
def wordKind (word : Text) : Token.Kind :=
  match Keyword.ofCapitals? (Text.capitals word) with
  | some keyword => .keyword keyword
  | none => .identifier

end MiniPascal

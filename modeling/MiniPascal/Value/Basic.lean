import MiniPascal.Text.Numeral
import MiniPascal.Text.Quoted

/-!
# Values

What a program computes with: **integers** of any size, **reals**, **truth values** and
**texts**. Integers and reals are the numbers of the language.
-/

namespace MiniPascal

/-- A value of a program. -/
inductive Value
  | integer (n : Int)
  | real (x : Binary64)
  | boolean (b : Bool)
  | text (s : Text)
deriving DecidableEq, Inhabited

/-- The four kinds of values. -/
inductive Value.Kind
  | integer
  | real
  | boolean
  | text
deriving DecidableEq, Inhabited

/-- The name of a kind in messages. -/
def Value.Kind.name : Value.Kind → String
  | .integer => "integer"
  | .real => "real"
  | .boolean => "boolean"
  | .text => "text"

namespace Value

/-- The kind of a value. -/
def kind : Value → Kind
  | integer _ => .integer
  | real _ => .real
  | boolean _ => .boolean
  | text _ => .text

/-- Whether the value is a number. -/
def isNumeric : Value → Bool
  | integer _ | real _ => true
  | _ => false

/-- The truth value of any value: a number is true if it is not zero, a text if it is not
empty. -/
def truth : Value → Bool
  | boolean b => b
  | integer n => n != 0
  | real x => !x.isZero
  | text s => !s.isEmpty

/-- A value in its natural form; an overlong integer has none. -/
def toText? : Value → Option Text
  | boolean b => some (Text.ofString (if b then "TRUE" else "FALSE"))
  | real x => some (Text.ofString x.toText)
  | integer n => (Numeral.write? n).map Text.ofString
  | text s => some s

/-- A value with its kind, as a trace shows it; an overlong integer cannot be shown. -/
def description? : Value → Option Text
  | integer n => (Numeral.write? n).map fun s => Text.ofString ("integer(" ++ s ++ ")")
  | real x => some (Text.ofString ("real(" ++ x.toText ++ ")"))
  | boolean b => some (Text.ofString (if b then "boolean(True)" else "boolean(False)"))
  | text s => some ("text(" ++ Text.quote s ++ ")")

end Value

end MiniPascal

import MiniPascal.Datum.Basic
import MiniPascal.Fault

/-!
# Written values

How a value is written by a program: in its natural form or, if it is a number, with a fixed
number of **decimal places**, and in a field of a given **width**. A positive width puts the
value at the right end of the field, a negative one at the left end; a value that is longer than
the field is written in full. Width and places come from the nodes of a tree, so that they can
be any data.
-/

namespace MiniPascal.Value

/-- The greatest number of decimal places. -/
def maxPlaces : Int := 2147483647

/-- The greatest field width. -/
def maxWidth : Nat := 9223372036854775807

/-- Why a number of decimal places is too great. -/
def placesFault (n : Int) : Fault :=
  if Numeral.isOverlong n then .number .overlong
  else if maxWidth < n then .placesOutOfRange
  else .placesTooMany

/-- Why a real is no number of decimal places: what is written of it begins with a digit if it is
finite and has no sign. -/
def realPlacesFault : Binary64 → Fault
  | .finite false m e => .placesNotInteger (Text.ofString (Binary64.finite false m e).toText)
  | _ => .placesMissing

/-- The number of decimal places that a datum asks for; a negative one asks for none. -/
def decimalPlaces : Datum → Except Fault Nat
  | .int n => if maxPlaces < n then .error (placesFault n) else .ok n.toNat
  | .real x => if x.isNegative then .ok 0 else .error (realPlacesFault x)
  | .bool _ => .error .placesMissing
  | d => .error (.placesNotNumeric d.typeName)

/-- The field width that a datum asks for, if it asks for one. -/
def fieldWidth? : Datum → Except Fault (Option Int)
  | .null => .ok none
  | .bool b => .ok (some (Datum.ofBool b))
  | .int n =>
    if maxWidth < n.natAbs then .error .widthOutOfRange else .ok (some n)
  | .real _ => .error .widthNotInteger
  | d => .error (.widthNotNumeric d.typeName)

/-- The text in a field of the given width, filled with blanks. -/
def pad : Option Int → Text → Text
  | none, s => s
  | some width, s =>
    let blanks := Text.spaces (width.natAbs - s.length)
    if 0 ≤ width then blanks ++ s else s ++ blanks

/-- The value in its natural form. -/
def plainText (v : Value) : Except Fault Text :=
  match v.toText? with
  | some s => .ok s
  | none => .error (.number .overlong)

/-- A real with the number of decimal places that a datum asks for. -/
def fixedText (x : Binary64) (places : Datum) : Except Fault Text :=
  (decimalPlaces places).map fun n => Text.ofString (x.toFixed n)

/-- The value before it is put into its field. -/
def bodyText (v : Value) (places : Datum) : Except Fault Text :=
  match places, v with
  | .null, v => plainText v
  | places, integer n =>
    let x := Binary64.ofInt n
    if x.isInfinite then .error (.number .tooLarge) else fixedText x places
  | places, real x => fixedText x places
  | _, v => plainText v

/-- A value as a program writes it. -/
def format (v : Value) (width places : Datum) : Except Fault Text := do
  let s ← bodyText v places
  return pad (← fieldWidth? width) s

end MiniPascal.Value

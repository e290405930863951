import MiniPascal.Datum.Basic
import MiniPascal.Fault

/-!
# Numbers in plain data

Where a tree needs a number, it may be given as an integer, a real, a truth value or a numeral in
a text. An integer is made from a real by dropping its fraction.
-/

namespace MiniPascal.Datum

/-- The integer part of a real. -/
def integerOfReal : Binary64 → Except NumberFault Int
  | .nan => .error .undefined
  | .infinite _ => .error .infinite
  | .finite negative mantissa exponent =>
    .ok (Binary64.integerPart negative mantissa exponent)

/-- Why a text stands for no integer: it begins with too many digits, or it is no numeral. -/
def integerFault (s : Text) : NumberFault :=
  match Numeral.overlongDigits? s with
  | some digits => .overlongNumeral digits
  | none => .malformedInteger s

/-- The integer that a datum stands for. -/
def toInteger : Datum → Except NumberFault Int
  | int n => .ok n
  | bool b => .ok (ofBool b)
  | real x => integerOfReal x
  | text s =>
    match Numeral.readInt? s with
    | some n => .ok n
    | none => .error (integerFault s)
  | d => .error (.noInteger d.typeName)

/-- The real that a datum stands for. -/
def toReal : Datum → Except NumberFault Binary64
  | real x => .ok x
  | bool b => .ok (Binary64.ofInt (ofBool b))
  | int n =>
    let x := Binary64.ofInt n
    if x.isInfinite then .error .tooLarge else .ok x
  | text s =>
    match Numeral.readReal? s with
    | some x => .ok x
    | none => .error (.malformedReal s)
  | d => .error (.noReal d.typeName)

end MiniPascal.Datum

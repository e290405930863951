import MiniPascal.Text.Numeral
import MiniPascal.Text.Quoted

/-!
# Plain data

A tree document, the text and the value of a tree node are **plain data**: nothing, truth
values, integers, reals, texts, lists, and records of named fields in the order in which the
names first occurred.

* `MiniPascal.Datum`: plain data.
* `MiniPascal.Datum.same`: equality of data. Numbers and truth values are compared by their
  numeric value, and the order of a record's fields does not matter.
* `MiniPascal.Datum.literal?`: data as they are shown in a dump or a description.
-/

namespace MiniPascal

/-- Plain data. -/
inductive Datum
  | null
  | bool (b : Bool)
  | int (n : Int)
  | real (x : Binary64)
  | text (s : Text)
  | list (items : List Datum)
  | record (fields : List (Text × Datum))
deriving Inhabited

namespace Datum

/-- The name of the type of a datum in messages. -/
def typeName : Datum → String
  | null => "NoneType"
  | bool _ => "bool"
  | int _ => "int"
  | real _ => "float"
  | text _ => "str"
  | list _ => "list"
  | record _ => "dict"

/-! ### Looking into data -/

/-- The value of a field of a list of fields. -/
def find? (key : Text) : List (Text × Datum) → Option Datum
  | [] => none
  | (k, d) :: fields => if k = key then some d else find? key fields

/-- The fields with one more: a name that is there already keeps its place and gets the new
value. -/
def insert (key : Text) (d : Datum) : List (Text × Datum) → List (Text × Datum)
  | [] => [(key, d)]
  | (k, d') :: fields => if k = key then (key, d) :: fields else (k, d') :: insert key d fields

/-- The value of a field, nothing if there is no such field. -/
def fieldD (fields : List (Text × Datum)) (key : Text) : Datum := (find? key fields).getD null

@[simp] theorem find?_nil (key : Text) : find? key [] = none := rfl

/-- Whether the datum is nothing. -/
def isNull : Datum → Bool
  | null => true
  | _ => false

/-- Whether the datum counts as true: it is not nothing, not false, not zero and not empty. -/
def isTruthy : Datum → Bool
  | null => false
  | bool b => b
  | int n => n != 0
  | real x => !x.isZero
  | text s => !s.isEmpty
  | list items => !items.isEmpty
  | record fields => !fields.isEmpty

/-- Whether the datum is the real NaN, which is the only one that differs from itself. -/
def isNan : Datum → Bool
  | real .nan => true
  | _ => false

/-! ### Equality -/

/-- The integer that a truth value counts as. -/
def ofBool (b : Bool) : Int := if b then 1 else 0

mutual

/-- Equality of data: numbers and truth values by their exact numeric value, lists element by
element, records field by field in any order. -/
def same : Datum → Datum → Bool
  | null, null => true
  | bool b, bool b' => b == b'
  | bool b, int n | int n, bool b => ofBool b == n
  | bool b, real x | real x, bool b => x.equalsInt (ofBool b)
  | int n, int n' => n == n'
  | int n, real x | real x, int n => x.equalsInt n
  | real x, real x' => x.equals x'
  | text s, text s' => s == s'
  | list items, list items' => sameItems items items'
  | record fields, record fields' => fields.length == fields'.length && sameFields fields fields'
  | _, _ => false

/-- Equality of lists, element by element. -/
def sameItems : List Datum → List Datum → Bool
  | [], [] => true
  | d :: ds, d' :: ds' => same d d' && sameItems ds ds'
  | _, _ => false

/-- Whether every field has an equal one of the same name among the others. -/
def sameFields : List (Text × Datum) → List (Text × Datum) → Bool
  | [], _ => true
  | (k, d) :: fields, others =>
    match find? k others with
    | some d' => same d d' && sameFields fields others
    | none => false

end

/-! ### Showing data -/

mutual

/-- A datum as it is shown, with texts between quotes. An overlong integer cannot be shown. -/
def literal? : Datum → Option Text
  | null => some (Text.ofString "None")
  | bool b => some (Text.ofString (if b then "True" else "False"))
  | int n => (Numeral.write? n).map Text.ofString
  | real x => some (Text.ofString x.toText)
  | text s => some (Text.quote s)
  | list items => do
    let shown ← literals? items
    return "[" ++ List.intercalate (Text.ofString ", ") shown ++ "]"
  | record fields => do
    let shown ← fieldLiterals? fields
    return "\x7b" ++ List.intercalate (Text.ofString ", ") shown ++ "\x7d"

/-- Every element of a list as it is shown. -/
def literals? : List Datum → Option (List Text)
  | [] => some []
  | d :: ds => do
    let s ← literal? d
    let rest ← literals? ds
    return s :: rest

/-- Every field of a record as it is shown. -/
def fieldLiterals? : List (Text × Datum) → Option (List Text)
  | [] => some []
  | (k, d) :: fields => do
    let s ← literal? d
    let rest ← fieldLiterals? fields
    return (Text.quote k ++ ": " ++ s) :: rest

end

/-- A datum as a text: a text is itself, anything else as it is shown. -/
def display? : Datum → Option Text
  | text s => some s
  | d => literal? d

end Datum

end MiniPascal

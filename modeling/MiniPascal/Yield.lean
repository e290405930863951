import MiniPascal.Value.Basic

/-!
# What a visit gives

Visiting a node of a tree gives a **yield**: an expression gives a value, a statement gives
nothing, and the labels of a branch give a list. A variable holds whatever the visit of the
right-hand side of its assignment gave, which is a value in every tree made from a program text.
-/

namespace MiniPascal

/-- What visiting a node gives, and what a variable holds. -/
inductive Yield
  | nothing
  | value (v : Value)
  | list (items : List Yield)
deriving Inhabited

namespace Yield

/-- The value, if the yield is one. -/
def value? : Yield → Option Value
  | value v => some v
  | _ => none

/-- The name of the type of a yield in messages. -/
def typeName : Yield → String
  | nothing => "NoneType"
  | value _ => "Value"
  | list _ => "list"

/-- Whether the yield is nothing. -/
def isNothing : Yield → Bool
  | nothing => true
  | _ => false

mutual

/-- A yield as a trace shows it; an overlong integer cannot be shown. -/
def description? : Yield → Option Text
  | nothing => some (Text.ofString "None")
  | value v => v.description?
  | list items => do
    let shown ← descriptions? items
    return "[" ++ List.intercalate (Text.ofString ", ") shown ++ "]"

/-- Every element of a list as a trace shows it. -/
def descriptions? : List Yield → Option (List Text)
  | [] => some []
  | y :: ys => do
    let s ← description? y
    let rest ← descriptions? ys
    return s :: rest

end

end Yield

end MiniPascal

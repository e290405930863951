import MiniPascal.Node.Basic

/-!
# Trees as indented text

The **dump** of a tree has a line for the start of every node and, if it has children, one for
its end, indented by four blanks a level. A node is shown with its kind, its text or value, the
direction of a FOR loop, and the line of a statement.
-/

namespace MiniPascal.Node

/-- Why a tree cannot be dumped. -/
inductive DumpFault
  /-- The text of a node is something other than a text. -/
  | labelNotText
  /-- The value of a node is an overlong integer. -/
  | overlong
deriving DecidableEq

/-- The text or value of a node between blanks, nothing if it has neither. -/
def dumpLabel (node : Node) : Except DumpFault Text :=
  match node.text, node.value with
  | .text s, _ => .ok (" " ++ s)
  | .null, .null => .ok []
  | .null, value =>
    match value.literal? with
    | some s => .ok (" " ++ s)
    | none => .error .overlong
  | _, _ => .error .labelNotText

/-- What a node shows between its angle brackets. -/
def dumpHead (node : Node) : Except DumpFault Text := do
  let label ← node.dumpLabel
  let direction :=
    if node.kind = .forLoop then
      if node.descending then " direction=\"downto\"" else " direction=\"to\""
    else ""
  let line := if node.kind.isStatement then " line " ++ Numeral.write node.line else ""
  return node.kind.name ++ label ++ direction ++ line

/-- The blanks in front of a line at the given depth. -/
def dumpIndent (depth : Nat) : Text := Text.spaces (4 * depth)

mutual

/-- The lines of a tree at the given depth. -/
def dumpAt (depth : Nat) : Node → Except DumpFault (List Text)
  | ⟨kind, line, text, value, slot, descending, children⟩ => do
    let head ← dumpHead ⟨kind, line, text, value, slot, descending, children⟩
    let indent := dumpIndent depth
    if children.isEmpty then return [indent ++ "<" ++ head ++ " />\n"]
    else
      let inner ← dumpAllAt (depth + 1) children
      return (indent ++ "<" ++ head ++ ">\n") :: inner ++
        [indent ++ "</" ++ kind.name ++ ">\n"]

/-- The lines of trees at the given depth. -/
def dumpAllAt (depth : Nat) : List Node → Except DumpFault (List Text)
  | [] => return []
  | n :: ns => do
    let first ← dumpAt depth n
    let rest ← dumpAllAt depth ns
    return first ++ rest

end

/-- The dump of a tree. -/
def dump (node : Node) : Except DumpFault Text := (node.dumpAt 0).map List.flatten

end MiniPascal.Node

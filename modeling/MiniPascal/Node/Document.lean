import MiniPascal.Datum.Number
import MiniPascal.Node.Basic
import MiniPascal.SymbolTable

/-!
# Tree documents

A tree can be saved as a **document** of plain data and loaded again. A node is a record with its
kind and line, and with its text, value, direction and children as far as it has them. Documents
may also be written by hand: the line and the value of a real constant may be anything that
stands for a number, and what is missing has a default.

Loading enters the names of the program and of its variables in a symbol table and binds the
variables to it. It goes through the document in pre-order and stops at the first object that is
no node; the names met before that stay in the table.

* `MiniPascal.Node.toDatum`: the document of a tree.
* `MiniPascal.Node.ofDatum`: the tree of a document.
-/

namespace MiniPascal.Node

/-! ### Saving -/

/-- A field of a document. -/
def field (key : String) (d : Datum) : Text × Datum := (key, d)

mutual

/-- The document of a tree. -/
def toDatum : Node → Datum
  | ⟨kind, line, text, value, _, descending, children⟩ =>
    .record (
      [field "type" (.text kind.name), field "line" (.int line)] ++
      (if text.isNull then [] else [field "text" text]) ++
      (if value.isNull then [] else [field "value" value]) ++
      (if descending then [field "descending" (.bool true)] else []) ++
      (if children.isEmpty then [] else [field "children" (.list (toData children))]))

/-- The documents of trees. -/
def toData : List Node → List Datum
  | [] => []
  | n :: ns => toDatum n :: toData ns

end

/-! ### Loading -/

/-- Why a document is no tree. -/
inductive LoadFault
  /-- Something other than a record where a node should be. -/
  | notRecord
  /-- A kind that is a list or a record. -/
  | kindNotName (given : String)
  /-- A kind that the language does not have. -/
  | unknownKind (shown : Text)
  /-- A line or a value that is no number. -/
  | number (fault : NumberFault)
  /-- A variable without a name. -/
  | nameless
  /-- A name that is no text. -/
  | nameNotText (given : String)
  /-- Children that do not form a sequence. -/
  | childrenNotSequence (given : String)
deriving DecidableEq

/-- The wording of a fault in a document. -/
def LoadFault.message : LoadFault → Text
  | notRecord => "Invalid parse tree object"
  | kindNotName given => "unhashable type: '" ++ given ++ "'"
  | unknownKind shown => "Unknown parse tree node type: " ++ shown
  | number fault => fault.message
  | nameless => "VARIABLE node without a name"
  | nameNotText given => lacks given "lower"
  | childrenNotSequence given => notSequence given

/-- Loading threads a symbol table, which outlives a fault. -/
abbrev Loader := EStateM LoadFault SymbolTable

/-- The kind that a record gives. -/
def loadKind (fields : List (Text × Datum)) : Except LoadFault Kind :=
  match Datum.fieldD fields "type" with
  | .list items => .error (.kindNotName (Datum.list items).typeName)
  | .record fields => .error (.kindNotName (Datum.record fields).typeName)
  | d =>
    let kind? := match d with
      | .text s => Kind.ofName? s
      | _ => none
    match kind?, d.display? with
    | some kind, _ => .ok kind
    | none, some shown => .error (.unknownKind shown)
    | none, none => .error (.number .overlong)

/-- The line that a record gives, zero if it gives none. -/
def loadLine (fields : List (Text × Datum)) : Except LoadFault Int :=
  match Datum.find? "line" fields with
  | none => .ok 0
  | some d => d.toInteger.mapError .number

/-- The value that a record gives; that of a real constant is made a real. -/
def loadValue (kind : Kind) (fields : List (Text × Datum)) : Except LoadFault Datum :=
  let value := Datum.fieldD fields "value"
  if kind = .realConstant && !value.isNull then
    (value.toReal.map Datum.real).mapError .number
  else .ok value

/-- A name as an entry of the symbol table. -/
def loadName (name : Datum) : Loader Text :=
  match name with
  | .text s => do
    modify (·.enter s)
    return SymbolTable.key s
  | d => throw (.nameNotText d.typeName)

/-- Enters the name of a node and gives the key to which the node is bound. -/
def loadSlot (kind : Kind) (text : Datum) : Loader (Option Text) :=
  match kind with
  | .var => if text.isNull then throw .nameless else some <$> loadName text
  | .program =>
    if text.isNull then return none
    else do
      let _ ← loadName text
      return none
  | _ => return none

/-- The fault of children that are given by something other than a list. A text and a record are
sequences too, but what they hold are no nodes; a nothing that is written down is no sequence. -/
def childrenFault? : Option Datum → Option LoadFault
  | none | some (.list _) => none
  | some (.text s) => if s.isEmpty then none else some .notRecord
  | some (.record fields) => if fields.isEmpty then none else some .notRecord
  | some d => some (.childrenNotSequence d.typeName)

/-- The node of a record whose children are loaded by the given action. -/
def loadNode (fields : List (Text × Datum)) (children : Loader (List Node)) : Loader Node := do
  let kind ← ofExcept (loadKind fields)
  let line ← ofExcept (loadLine fields)
  let value ← ofExcept (loadValue kind fields)
  let text := Datum.fieldD fields "text"
  let descending := (Datum.fieldD fields "descending").isTruthy
  let slot ← loadSlot kind text
  match childrenFault? (Datum.find? "children" fields) with
  | some fault => throw fault
  | none =>
    let children ← children
    return { kind, line, text, value, slot, descending, children }

mutual

/-- The tree of a document. -/
def ofDatum : Datum → Loader Node
  | .record fields => loadNode fields (ofChildren fields)
  | _ => throw .notRecord

/-- The trees of the children that a record lists. -/
def ofChildren : List (Text × Datum) → Loader (List Node)
  | [] => return []
  | (k, d) :: fields =>
    if k = "children" then ofItems d else ofChildren fields

/-- The trees of the documents in a list. -/
def ofItems : Datum → Loader (List Node)
  | .list items => ofData items
  | _ => return []

/-- The trees of documents, in order. -/
def ofData : List Datum → Loader (List Node)
  | [] => return []
  | d :: ds => do
    let node ← ofDatum d
    let nodes ← ofData ds
    return node :: nodes

end

end MiniPascal.Node

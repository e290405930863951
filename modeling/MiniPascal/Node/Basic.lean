import MiniPascal.Datum.Basic

/-!
# Trees

A program is held as a **tree** of nodes of one type. What a node means is given by its kind, and
its operands and statements are its children, whose order is significant. A tree that was made
from a program text with errors, or by hand, may lack children that its kinds call for.

* `MiniPascal.Node.Kind`: the kinds of nodes.
* `MiniPascal.Node`: a node with its children.
-/

namespace MiniPascal

/-- The kinds of nodes. -/
inductive Node.Kind
  | program
  | compound
  /-- A variable and an expression. -/
  | assign
  /-- Statements, then the test that ends the loop. -/
  | loop
  /-- The condition behind UNTIL. -/
  | test
  /-- A value, and perhaps a field width and a number of decimal places. -/
  | write
  /-- As `write`, or nothing at all. -/
  | writeln
  /-- A condition, a statement, and perhaps one for the other case. -/
  | conditional
  /-- A condition and a statement. -/
  | whileLoop
  /-- An assignment, a limit and a statement. -/
  | forLoop
  /-- A selector and branches. -/
  | select
  /-- Labels and a statement. -/
  | selectBranch
  /-- The labels of a branch. -/
  | selectConstants
  | add
  | subtract
  | multiply
  | divide
  | intDivide
  | equal
  | unequal
  | less
  | greater
  | atMost
  | atLeast
  /-- Equality with a label; the reader of programs makes none. -/
  | caseEqual
  | and
  | or
  | not
  | var
  | integerConstant
  | realConstant
  | stringConstant
  /-- A kind that the language does not have. -/
  | other (name : Text)
deriving DecidableEq, Inhabited

namespace Node.Kind

/-- The name of a kind. -/
def name : Kind → Text
  | program => "PROGRAM"
  | compound => "COMPOUND"
  | assign => "ASSIGN"
  | loop => "LOOP"
  | test => "TEST"
  | write => "WRITE"
  | writeln => "WRITELN"
  | conditional => "IF"
  | whileLoop => "WHILE"
  | forLoop => "FOR"
  | select => "SELECT"
  | selectBranch => "SELECT_BRANCH"
  | selectConstants => "SELECT_CONSTANTS"
  | add => "ADD"
  | subtract => "SUBTRACT"
  | multiply => "MULTIPLY"
  | divide => "DIVIDE"
  | intDivide => "INTDIV"
  | equal => "EQ"
  | unequal => "NEQ"
  | less => "LT"
  | greater => "GT"
  | atMost => "LEQ"
  | atLeast => "GEQ"
  | caseEqual => "CEQ"
  | and => "AND"
  | or => "OR"
  | not => "NOT"
  | var => "VARIABLE"
  | integerConstant => "INTEGER_CONSTANT"
  | realConstant => "REAL_CONSTANT"
  | stringConstant => "STRING_CONSTANT"
  | other name => name

/-- The kinds of the language. -/
def all : List Kind :=
  [program, compound, assign, loop, test, write, writeln, conditional, whileLoop, forLoop, select,
   selectBranch, selectConstants, add, subtract, multiply, divide, intDivide, equal, unequal,
   less, greater, atMost, atLeast, caseEqual, .and, .or, .not, var, integerConstant, realConstant,
   stringConstant]

/-- The kind of the language that has a name. -/
def ofName? (name : Text) : Option Kind := all.find? (·.name = name)

/-- Whether nodes of the kind are shown with their line. -/
def isStatement : Kind → Bool
  | compound | assign | loop | test | write | writeln | conditional | whileLoop | forLoop | select
  | selectBranch => true
  | _ => false

end Node.Kind

/-- A node of a tree. -/
structure Node where
  kind : Node.Kind
  /-- The line of the program text where the node starts. -/
  line : Int
  /-- The name of a program or a variable, the text of a constant. -/
  text : Datum := .null
  /-- The value of a constant. -/
  value : Datum := .null
  /-- The key of the variable to which the node is bound. -/
  slot : Option Text := none
  /-- Whether a FOR loop counts down. -/
  descending : Bool := false
  children : List Node := []

namespace Node

instance : Inhabited Node := ⟨{ kind := .compound, line := 0 }⟩

/-! ### Equality -/

mutual

/-- Equality of trees. Lines do not count, and of a variable only its key does. -/
def same : Node → Node → Bool
  | ⟨kind, _, text, value, slot, descending, children⟩,
    ⟨kind', _, text', value', slot', descending', children'⟩ =>
    kind == kind' && text.same text' && value.same value' && descending == descending' &&
      slot == slot' && sameAll children children'

/-- Equality of lists of trees, one by one. -/
def sameAll : List Node → List Node → Bool
  | [], [] => true
  | n :: ns, n' :: ns' => same n n' && sameAll ns ns'
  | _, _ => false

end

/-- Whether a node is equal to the very same node. Its children are shared, and so is all within
its text and value, so that only a text or value that is itself a NaN makes it differ. -/
def sameAsItself (node : Node) : Bool := !node.text.isNan && !node.value.isNan

/-! ### Description -/

/-- The text of a node or, if it has none, its value. -/
def label (node : Node) : Datum := if node.text.isNull then node.value else node.text

/-- A node on one line, with the number of its children; an overlong integer cannot be shown. -/
def description? (node : Node) : Option Text := do
  let count : Text := Numeral.write node.children.length ++ " children)"
  let start : Text := "Node(" ++ node.kind.name ++ ", "
  if node.label.isNull then some (start ++ count)
  else
    let shown ← node.label.literal?
    return start ++ shown ++ ", " ++ count

end Node

end MiniPascal

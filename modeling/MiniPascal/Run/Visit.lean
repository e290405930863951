import MiniPascal.Datum.Number
import MiniPascal.Node.Basic
import MiniPascal.Run.Machine
import MiniPascal.Value.Format
import MiniPascal.Value.Operator

/-!
# Running a tree

A tree is run by **visiting** its nodes. Statements change variables and write; expressions give
values. Both operands of AND and OR are always visited. A FOR loop visits its limit before every
round, and its control variable is an ordinary variable that the body may change.

The rule of every kind of node takes the visit of other nodes as a parameter. A visit has an
amount of **fuel**, which bounds the nesting of visits and the number of rounds of every loop;
with more fuel a run that ends does the same (`MiniPascal.Run.visit`).
-/

namespace MiniPascal.Run

/-! ### Messages of a trace -/

/-- A message about a line. -/
def lineMessage (line : Int) (message : Text) : Text :=
  "line " ++ Numeral.write line ++ ": " ++ message

/-- What a trace tells about an assignment. -/
def assignmentMessage (line : Int) (name shown : Text) : Text :=
  lineMessage line (name ++ " := " ++ shown)

/-- What a trace tells about a selector that no branch is for. -/
def unmatchedMessage (line : Int) (shown : Text) : Text :=
  lineMessage line ("no case branch for " ++ shown)

/-- How a trace shows the outcome of a condition. -/
def outcomeText (b : Bool) : Text := if b then "True" else "False"

/-! ### Parts of the rules -/

/-- The child at a position, which has to be there. -/
def child (node : Node) (i : Nat) : Run Node :=
  match node.children[i]? with
  | some c => return c
  | none => fail .missingChild

/-- Visits nodes in order for their effects. -/
def visitAll (visit : Node → Run Yield) : List Node → Run Unit
  | [] => return ()
  | node :: nodes => do
    let _ ← visit node
    visitAll visit nodes

/-- Visits nodes in order and collects what they give. -/
def visitEach (visit : Node → Run Yield) : List Node → Run (List Yield)
  | [] => return []
  | node :: nodes => do
    let y ← visit node
    let ys ← visitEach visit nodes
    return y :: ys

/-- The value of a child that is visited, of which something is asked. -/
def operand (asked : Inquiry) (visit : Node → Run Yield) (node : Node) (i : Nat) : Run Value := do
  let c ← child node i
  valueOf asked (← visit c)

/-- The truth value of a child that is visited. -/
def condition (visit : Node → Run Yield) (node : Node) (i : Nat) : Run Bool :=
  Value.truth <$> operand .kind visit node i

/-- The values of two operands, the second of which is looked at after the first. -/
def bothValues (left right : Yield) : Run (Value × Value) := do
  let a ← valueOf .numeric left
  let b ← valueOf (.second a) right
  return (a, b)

/-- What two children give that are visited in order. -/
def operands (visit : Node → Run Yield) (node : Node) : Run (Value × Value) := do
  let left ← visit (← child node 0)
  let right ← visit (← child node 1)
  bothValues left right

/-! ### Statements -/

/-- An assignment: the right-hand side is visited before the variable is looked at. -/
def assign (level : Int) (visit : Node → Run Yield) (node : Node) : Run Unit :=
  match node.children with
  | [target, expression] => do
    let y ← visit expression
    store target.slot y
    trace level 2 fun _ => do
      let name ← target.text.display?
      let shown ← y.description?
      return assignmentMessage node.line name shown
  | children => fail (.wrongArity 2 children.length)

/-- A REPEAT loop of the given statements and test. -/
def repeatLoop (visit : Node → Run Yield) (body : List Node) (test : Node) : Nat → Run Unit
  | 0 => throw .exhausted
  | fuel + 1 => do
    visitAll visit body
    if (← valueOf .data (← visit test)).truth then return ()
    else repeatLoop visit body test fuel

/-- A WHILE loop of the given condition and statement. -/
def whileLoop (visit : Node → Run Yield) (test body : Node) : Nat → Run Unit
  | 0 => throw .exhausted
  | fuel + 1 => do
    if (← valueOf .kind (← visit test)).truth then
      let _ ← visit body
      whileLoop visit test body fuel
    else return ()

/-- The rounds of a FOR loop with the given control variable, direction, limit and statement. -/
def forLoop (visit : Node → Run Yield) (line : Int) (control : Option Text) (descending : Bool)
    (limit body : Node) : Nat → Run Unit
  | 0 => throw .exhausted
  | fuel + 1 => do
    let bound ← visit limit
    let (current, limitValue) ← bothValues (← load control) bound
    let past := if descending then RelationalOp.less else RelationalOp.greater
    if ← ofExcept (Value.relation line past current limitValue) then return ()
    else
      let _ ← visit body
      let current ← valueOf .numeric (← load control)
      let step := Value.integer (if descending then -1 else 1)
      store control (.value (← ofExcept (Value.arithmetic line .add current step)))
      forLoop visit line control descending limit body fuel

/-- A FOR statement. -/
def forStatement (visit : Node → Run Yield) (fuel : Nat) (node : Node) : Run Unit :=
  match node.children with
  | [init, limit, body] => do
    let _ ← visit init
    let target ← child init 0
    forLoop visit node.line target.slot node.descending limit body fuel
  | children => fail (.wrongArity 3 children.length)

/-- Whether the selector is equal to one of the labels, which are compared in order. -/
def matchesLabel (selector : Yield) : List Yield → Run Bool
  | [] => return false
  | label :: labels => do
    let (a, b) ← bothValues selector label
    if ← ofExcept (a.equals b) then return true else matchesLabel selector labels

/-- The labels of a branch. -/
def labelsOf (visit : Node → Run Yield) (branch : Node) : Run (List Yield) := do
  match ← visit (← child branch 0) with
  | .list labels => return labels
  | y => fail (.noConstants y.typeName)

/-- The first branch with a label that is equal to the selector. -/
def findBranch (visit : Node → Run Yield) (selector : Yield) : List Node → Run (Option Node)
  | [] => return none
  | branch :: branches => do
    let labels ← labelsOf visit branch
    if ← matchesLabel selector labels then return some branch
    else findBranch visit selector branches

/-- A CASE statement: the first branch with an equal label is visited, and only that. -/
def selectStatement (level : Int) (visit : Node → Run Yield) (node : Node) : Run Unit := do
  let selector ← visit (← child node 0)
  match ← findBranch visit selector (node.children.drop 1) with
  | some branch => let _ ← visit branch
  | none =>
    trace level 3 fun _ => selector.description?.map (unmatchedMessage node.line)

/-- The value of the child at a position as it stands in the tree, nothing if there is none. -/
def childValue (node : Node) (i : Nat) : Datum := (node.children[i]?.map (·.value)).getD .null

/-- What a WRITE statement writes. -/
def writtenText (visit : Node → Run Yield) (node : Node) : Run Text :=
  if node.children.isEmpty then return []
  else do
    let places := childValue node 2
    let v ← operand (if places.isNull then .kind else .numeric) visit node 0
    ofExcept (v.format (childValue node 1) places)

/-! ### Expressions -/

/-- What a variable holds, which must not be nothing. -/
def variableValue (node : Node) : Run Yield := do
  let y ← load node.slot
  if y.isNothing then
    fail (.program node.line (.unassigned (node.text.display?.getD [])))
  else return y

/-- An arithmetic operation. -/
def arithmetic (visit : Node → Run Yield) (op : ArithmeticOp) (node : Node) : Run Yield := do
  let (a, b) ← operands visit node
  return .value (← ofExcept (Value.arithmetic node.line op a b))

/-- A comparison. -/
def comparison (visit : Node → Run Yield) (op : RelationalOp) (node : Node) : Run Yield := do
  let (a, b) ← operands visit node
  return .value (← ofExcept (Value.compare node.line op a b))

/-- A logical operation; both operands are visited in any case. -/
def logical (visit : Node → Run Yield) (op : Bool → Bool → Bool) (node : Node) : Run Yield := do
  let a ← condition visit node 0
  let b ← condition visit node 1
  return .value (.boolean (op a b))

/-- The integer of a constant. -/
def integerConstant (node : Node) : Run Yield :=
  match node.value.toInteger with
  | .ok n => return .value (.integer n)
  | .error f => fail (.number f)

/-- The real of a constant. -/
def realConstant (node : Node) : Run Yield :=
  match node.value.toReal with
  | .ok x => return .value (.real x)
  | .error f => fail (.number f)

/-- The text of a constant. -/
def stringConstant (node : Node) : Run Yield :=
  match node.value.display? with
  | some s => return .value (.text s)
  | none => fail (.number .overlong)

/-! ### All nodes -/

/-- A statement gives nothing. -/
def statement (action : Run Unit) : Run Yield := do
  action
  return .nothing

/-- The rule of every kind of node, given how other nodes are visited and the number of rounds
that a loop may take. -/
def visitNode (level : Int) (visit : Node → Run Yield) (fuel : Nat) (node : Node) : Run Yield :=
  match node.kind with
  | .program => statement do
    -- the message is made at every level, and left only from level one on
    let name ← shown node.text.display?
    trace level 1 fun _ => some ("executing program " ++ name)
    visitAll visit node.children
  | .compound => statement (visitAll visit node.children)
  | .assign => statement (assign level visit node)
  | .loop => statement <|
    match node.children.getLast? with
    | some test => repeatLoop visit node.children.dropLast test fuel
    | none => fail .noTest
  | .test => do
    let outcome ← condition visit node 0
    trace level 3 fun _ => some (lineMessage node.line ("until -> " ++ outcomeText outcome))
    return .value (.boolean outcome)
  | .write => statement do write (← writtenText visit node)
  | .writeln => statement do write ((← writtenText visit node) ++ "\n")
  | .conditional => statement do
    let outcome ← condition visit node 0
    trace level 3 fun _ => some (lineMessage node.line ("if -> " ++ outcomeText outcome))
    if outcome then
      let _ ← visit (← child node 1)
    else
      match node.children[2]? with
      | some c => let _ ← visit c
      | none => return ()
  | .whileLoop => statement <|
    match node.children with
    | [test, body] => whileLoop visit test body fuel
    | children => fail (.wrongArity 2 children.length)
  | .forLoop => statement (forStatement visit fuel node)
  | .select => statement (selectStatement level visit node)
  | .selectBranch => statement do
    let _ ← visit (← child node 1)
  | .selectConstants => return .list (← visitEach visit node.children)
  | .add => arithmetic visit .add node
  | .subtract => arithmetic visit .subtract node
  | .multiply => arithmetic visit .multiply node
  | .divide => arithmetic visit .divide node
  | .intDivide => arithmetic visit .intDivide node
  | .equal | .caseEqual => comparison visit .equal node
  | .unequal => comparison visit .unequal node
  | .less => comparison visit .less node
  | .greater => comparison visit .greater node
  | .atMost => comparison visit .atMost node
  | .atLeast => comparison visit .atLeast node
  | .and => logical visit (· && ·) node
  | .or => logical visit (· || ·) node
  | .not => return .value (.boolean !(← condition visit node 0))
  | .var => variableValue node
  | .integerConstant => integerConstant node
  | .realConstant => realConstant node
  | .stringConstant => stringConstant node
  | .other name => fail (.unexpectedNode name)

/-- Visits a node with the given level of detail of the trace and the given amount of fuel. -/
def visit (level : Int) : Nat → Node → Run Yield
  | 0, _ => throw .exhausted
  | fuel + 1, node => visitNode level (visit level fuel) fuel node

end MiniPascal.Run

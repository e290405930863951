import MiniPascal.Fault

/-!
# Operators on values

Arithmetic is exact on integers. Where a real meets an integer, the integer is first **promoted**
to the nearest real, which fails if that is infinite. The quotient of two integers is the real
nearest to the exact quotient. Equality is defined for all values, order for two numbers and for
two values of one kind.

* `MiniPascal.Value.promote`: two numbers brought to one kind.
* `MiniPascal.Value.arithmetic`, `MiniPascal.Value.equals`, `MiniPascal.Value.compare`: the
  operators. The line says where a program uses them.
-/

namespace MiniPascal

/-- The arithmetic operators; a symbol that is not one of them is kept for the complaint. -/
inductive ArithmeticOp
  | add
  | subtract
  | multiply
  | divide
  | intDivide
  | other (symbol : Text)
deriving DecidableEq

/-- The operator that a symbol stands for. -/
def ArithmeticOp.ofSymbol (symbol : Text) : ArithmeticOp :=
  if symbol = "+" then add
  else if symbol = "-" then subtract
  else if symbol = "*" then multiply
  else if symbol = "/" then divide
  else if symbol = "DIV" then intDivide
  else other symbol

/-- The relational operators; a symbol that is not one of them is kept for the complaint. -/
inductive RelationalOp
  | equal
  | unequal
  | less
  | greater
  | atMost
  | atLeast
  | other (symbol : Text)
deriving DecidableEq

/-- The operator that a symbol stands for. -/
def RelationalOp.ofSymbol (symbol : Text) : RelationalOp :=
  if symbol = "=" then equal
  else if symbol = "<>" then unequal
  else if symbol = "<" then less
  else if symbol = ">" then greater
  else if symbol = "<=" then atMost
  else if symbol = ">=" then atLeast
  else other symbol

namespace Value

/-! ### Numbers of two kinds -/

/-- The real nearest to an integer, which must be finite. -/
def realOfInt (n : Int) : Except Fault Binary64 :=
  let x := Binary64.ofInt n
  if x.isInfinite then .error (.number .tooLarge) else .ok x

/-- Two numbers of one kind. -/
inductive Pair
  | integers (m n : Int)
  | reals (x y : Binary64)

/-- Two numbers brought to one kind: an integer beside a real becomes a real. -/
def promote (line : Int) : Value → Value → Except Fault Pair
  | integer m, integer n => .ok (.integers m n)
  | real x, real y => .ok (.reals x y)
  | integer m, real y => (realOfInt m).map (.reals · y)
  | real x, integer n => (realOfInt n).map (.reals x ·)
  | a, b => .error (.program line (.numbersRequired a.kind b.kind))

/-! ### Arithmetic -/

/-- The real nearest to the quotient of two integers, which must be finite. -/
def quotient (line m n : Int) : Except Fault Value :=
  if n = 0 then .error (.program line .divisionByZero)
  else
    let x := Binary64.ofQuotient m n
    if x.isInfinite then .error (.number .quotientTooLarge) else .ok (real x)

/-- The quotient of two integers, truncated toward zero: that of their sizes, and its opposite if
only one of them is negative. -/
def truncatedQuotient (m n : Int) : Int :=
  let quotient : Int := (m.natAbs / n.natAbs : Nat)
  if 0 ≤ m ↔ 0 ≤ n then quotient else -quotient

/-- An operator on two integers. Whole division truncates toward zero. -/
def integerArithmetic (line : Int) : ArithmeticOp → Int → Int → Except Fault Value
  | .add, m, n => .ok (integer (m + n))
  | .subtract, m, n => .ok (integer (m - n))
  | .multiply, m, n => .ok (integer (m * n))
  | .divide, m, n => quotient line m n
  | .intDivide, m, n =>
    if n = 0 then .error (.program line .divisionByZero)
    else .ok (integer (truncatedQuotient m n))
  | .other symbol, _, _ => .error (.program line (.unknownArithmetic symbol))

/-- An operator on two reals. -/
def realArithmetic (line : Int) : ArithmeticOp → Binary64 → Binary64 → Except Fault Value
  | .add, x, y => .ok (real (x.add y))
  | .subtract, x, y => .ok (real (x.sub y))
  | .multiply, x, y => .ok (real (x.mul y))
  | .divide, x, y =>
    if y.isZero then .error (.program line .divisionByZero) else .ok (real (x.div y))
  | .intDivide, _, _ => .error (.program line .integersRequired)
  | .other symbol, _, _ => .error (.program line (.unknownArithmetic symbol))

/-- An arithmetic operator on two values, which have to be numbers. -/
def arithmetic (line : Int) (op : ArithmeticOp) (a b : Value) : Except Fault Value := do
  match ← promote line a b with
  | .integers m n => integerArithmetic line op m n
  | .reals x y => realArithmetic line op x y

/-! ### Comparison -/

/-- Whether two values are equal. Numbers are compared by their numeric value; other values of
different kinds are never equal. -/
def equals : Value → Value → Except Fault Bool
  | boolean a, boolean b => .ok (a == b)
  | text a, text b => .ok (a == b)
  | integer m, integer n => .ok (m == n)
  | real x, real y => .ok (x.equals y)
  | integer m, real y => (realOfInt m).map (·.equals y)
  | real x, integer n => (realOfInt n).map x.equals
  | _, _ => .ok false

/-- The order of two truth values, the false one before the true one. -/
def compareBool : Bool → Bool → Ordering
  | false, true => .lt
  | true, false => .gt
  | _, _ => .eq

/-- The order of two values, `none` if one of them is a NaN. Texts are ordered by the code
points of their characters. -/
def order? (line : Int) : Value → Value → Except Fault (Option Ordering)
  | boolean a, boolean b => .ok (some (compareBool a b))
  | text a, text b => .ok (some (a.compare b))
  | integer m, integer n => .ok (some (Ord.compare m n))
  | real x, real y => .ok (x.compare? y)
  | integer m, real y => (realOfInt m).map (·.compare? y)
  | real x, integer n => (realOfInt n).map x.compare?
  | a, b => .error (.program line (.incomparable a.kind b.kind))

/-- Whether an order is one that an ordering operator asks for. -/
def orderHolds (line : Int) : RelationalOp → Option Ordering → Except Fault Bool
  | .less, o => .ok (o == some .lt)
  | .greater, o => .ok (o == some .gt)
  | .atMost, o => .ok (o == some .lt || o == some .eq)
  | .atLeast, o => .ok (o == some .gt || o == some .eq)
  | .equal, o => .ok (o == some .eq)
  | .unequal, o => .ok (o != some .eq)
  | .other symbol, _ => .error (.program line (.unknownRelation symbol))

/-- A relational operator on two values. -/
def relation (line : Int) (op : RelationalOp) (a b : Value) : Except Fault Bool :=
  match op with
  | .equal => equals a b
  | .unequal => (equals a b).map (!·)
  | op => do orderHolds line op (← order? line a b)

/-- The outcome of a relational operator as a value. -/
def compare (line : Int) (op : RelationalOp) (a b : Value) : Except Fault Value :=
  (relation line op a b).map boolean

end Value

end MiniPascal

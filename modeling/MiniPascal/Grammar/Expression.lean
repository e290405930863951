import MiniPascal.Grammar.Cursor

/-!
# Reading expressions

An expression is a simple expression, or two with a relation between them; a simple expression
is a chain of terms, and a term a chain of factors. Chains group to the left:

    expression : simple [ relation simple ]
    simple     : term { ( + | - | DIV | OR ) term }
    term       : factor { ( * | / | AND ) factor }
    factor     : variable | [ - ] number | string | ( expression ) | NOT factor

An operand that could not be read is left out of its operator's children.

The readers of the larger forms take the reader of factors as a parameter. Factors themselves are
read with a bound on their nesting, which no text exceeds that has fewer tokens
(`MiniPascal.Reading.expression`).
-/

namespace MiniPascal

/-! ### Operators -/

namespace Token.Kind

/-- The relation that a token stands for. -/
def relation? : Kind → Option Node.Kind
  | symbol .equals => some .equal
  | symbol .notEquals => some .unequal
  | symbol .lessThan => some .less
  | symbol .greaterThan => some .greater
  | symbol .lessEquals => some .atMost
  | symbol .greaterEquals => some .atLeast
  | _ => none

/-- The operator between terms that a token stands for. -/
def additive? : Kind → Option Node.Kind
  | symbol .plus => some .add
  | symbol .minus => some .subtract
  | keyword .divKw => some .intDivide
  | keyword .orKw => some .or
  | _ => none

/-- The operator between factors that a token stands for. -/
def multiplicative? : Kind → Option Node.Kind
  | symbol .star => some .multiply
  | symbol .slash => some .divide
  | keyword .andKw => some .and
  | _ => none

end Token.Kind

namespace Token

/-- The constant of an integer token, which a minus sign may precede. -/
def integerNode? (negative : Bool) (t : Token) : Option Node :=
  match t.kind with
  | .integer n =>
    some { kind := .integerConstant, line := t.line,
           text := .text (if negative then "-" ++ t.text else t.text),
           value := .int (if negative then -n else n) }
  | _ => none

/-- The constant of a number token, which a minus sign may precede. -/
def numberNode? (negative : Bool) (t : Token) : Option Node :=
  match t.kind with
  | .real x =>
    some { kind := .realConstant, line := t.line,
           text := .text (if negative then "-" ++ t.text else t.text),
           value := .real (if negative then x.neg else x) }
  | _ => t.integerNode? negative

/-- The constant of a string token. -/
def stringNode? (t : Token) : Option Node :=
  let node (s : Text) : Option Node :=
    some { kind := .stringConstant, line := t.line, text := .text t.text, value := .text s }
  match t.kind with
  | .character c => node [c]
  | .string s => node s
  | _ => none

end Token

namespace Reading

/-! ### Leaves -/

/-- A variable that is used: it has to be in the symbol table already. -/
def variableUse : Reading Node := do
  let t ← current
  if (← get).table.contains t.text then
    advance
    return { kind := .var, line := t.line, text := .text t.text,
             slot := some (SymbolTable.key t.text) }
  else
    complain .undeclared
    advance
    return { kind := .var, line := t.line, text := .text t.text }

/-- A constant behind its sign, as the given function makes it from its token. -/
def constantBehind (node? : Bool → Token → Option Node) (c : Complaint) (negative : Bool) :
    Reading (Option Node) := do
  match node? negative (← current) with
  | some node =>
    advance
    return some node
  | none =>
    reject c
    return none

/-- A constant that a minus sign may precede. -/
def signedConstant (node? : Bool → Token → Option Node) (c : Complaint) :
    Reading (Option Node) := do
  let negative := (← kind) = .symbol .minus
  if negative then advance
  constantBehind node? c negative

/-- A number that a minus sign may precede. -/
def signedNumber (c : Complaint) : Reading (Option Node) := signedConstant Token.numberNode? c

/-- An integer that a minus sign may precede. -/
def signedInteger (c : Complaint) : Reading (Option Node) := signedConstant Token.integerNode? c

/-! ### Chains of operands -/

/-- The rest of a chain behind its first operand. -/
def chain (operator? : Token.Kind → Option Node.Kind) (operand : Reading (Option Node)) :
    Nat → Option Node → Reading (Option Node)
  | 0, _ => throw .exhausted
  | fuel + 1, left => do
    let t ← current
    match operator? t.kind with
    | none => return left
    | some kind =>
      advance
      let right ← operand
      chain operator? operand fuel
        (some { kind, line := t.line, children := left.toList ++ right.toList })

/-- A term, given how factors are read. -/
def termOf (factor : Reading (Option Node)) : Reading (Option Node) := do
  let left ← factor
  chain Token.Kind.multiplicative? factor (← budget) left

/-- A simple expression, given how factors are read. -/
def simpleOf (factor : Reading (Option Node)) : Reading (Option Node) := do
  let left ← termOf factor
  chain Token.Kind.additive? (termOf factor) (← budget) left

/-- An expression, given how factors are read. -/
def expressionOf (factor : Reading (Option Node)) : Reading (Option Node) := do
  let left ← simpleOf factor
  let t ← current
  match t.kind.relation? with
  | none => return left
  | some kind =>
    advance
    let right ← simpleOf factor
    return some { kind, line := t.line, children := left.toList ++ right.toList }

/-! ### Factors -/

/-- A factor, given how the factors within it are read. -/
def factorOf (inner : Reading (Option Node)) : Reading (Option Node) := do
  let t ← current
  match t.kind with
  | .keyword .notKw =>
    advance
    let operand ← inner
    return some { kind := .not, line := t.line, children := operand.toList }
  | .identifier => some <$> variableUse
  | .integer _ | .real _ | .symbol .minus => signedNumber .expectingNumber
  | .symbol .leftParen =>
    advance
    let node ← expressionOf inner
    let _ ← expect (.symbol .rightParen) .expectingRightParen
    return node
  | _ =>
    match t.stringNode? with
    | some node =>
      advance
      return some node
    | none =>
      reject .unexpectedToken
      return none

/-- A factor that nests at most as deep as the fuel says. -/
def factor : Nat → Reading (Option Node)
  | 0 => throw .exhausted
  | fuel + 1 => factorOf (factor fuel)

/-- An expression. Every level of nesting takes a token, so that the number of tokens bounds it. -/
def expression : Reading (Option Node) := do
  expressionOf (factor (← budget))

end Reading

end MiniPascal

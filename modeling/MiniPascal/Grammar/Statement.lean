import MiniPascal.Grammar.Expression

/-!
# Reading statements

    statement  : assignment | compound | if | while | repeat | for | case | write | writeln | empty
    compound   : BEGIN statement { ; statement } END
    assignment : variable := expression
    if         : IF expression THEN statement [ ELSE statement ]
    while      : WHILE expression DO statement
    repeat     : REPEAT statement { ; statement } UNTIL expression
    for        : FOR assignment ( TO | DOWNTO ) expression DO statement
    case       : CASE expression OF { constants : statement ; } END
    write      : WRITE ( argument [ : width [ : places ] ] )
    writeln    : WRITELN [ ( argument [ : width [ : places ] ] ) ]

The statement behind THEN is a single one, so that an ELSE belongs to the innermost IF that has
none yet. A part that could not be read is left out of its statement's children, and where one
error would call for the next, only the first is reported.

The reader of every form takes the reader of the statements within it as a parameter; statements
themselves are read with a bound on their nesting, which no text exceeds that has fewer tokens
(`MiniPascal.Reading.statement`).
-/

namespace MiniPascal

namespace Reading

/-! ### Lists of statements -/

/-- A statement behind THEN, ELSE, DO or the labels of a branch. If there is none, it is an empty
compound statement. -/
def nested (inner : Reading (Option Node)) : Reading Node := do
  let t ← current
  match ← inner with
  | some node => return node
  | none => return { kind := .compound, line := t.line }

/-- What follows a statement of a list that started at the given cursor: semicolons, or a
complaint that there are none. A token at which nothing was read is passed over. -/
def separator (terminal : Token.Kind) (start : Cursor) : Reading Unit := do
  let now ← get
  let kind := now.current.kind
  if kind = .symbol .semicolon then skipSemicolons (← budget)
  else if kind.startsStatement then complain .missingSemicolon
  else if now.rest.length = start.rest.length && kind ≠ terminal && kind ≠ .endOfFile then
    if now.reports.size = start.reports.size then complain .unexpectedToken
    advance
  else return ()

/-- A statement of a list with what follows it. -/
def statementRound (inner : Reading (Option Node)) (terminal : Token.Kind) :
    Reading (Option Node) := do
  let start ← get
  let node ← inner
  separator terminal start
  return node

/-- Statements up to the terminal token or the end of the text. -/
def statements (inner : Reading (Option Node)) (terminal : Token.Kind) : Nat → Reading (List Node)
  | 0 => throw .exhausted
  | fuel + 1 => do
    let kind ← kind
    if kind = terminal || kind = .endOfFile then return []
    else
      let node ← statementRound inner terminal
      let rest ← statements inner terminal fuel
      return node.toList ++ rest

/-- A compound statement. -/
def compoundOf (inner : Reading (Option Node)) : Reading Node := do
  let t ← current
  advance
  let children ← statements inner (.keyword .endKw) (← budget)
  let _ ← expect (.keyword .endKw) .expectingEnd
  return { kind := .compound, line := t.line, children }

/-! ### Assignments -/

/-- The right-hand side of an assignment. -/
def rightSide : Reading (Option Node) := do
  if ← expect (.symbol .becomes) .missingBecomes then expression else return none

/-- An assignment, which enters its variable in the symbol table. -/
def assignment : Reading Node := do
  let t ← current
  modify fun cursor => { cursor with table := cursor.table.enter t.text }
  advance
  let target : Node :=
    { kind := .var, line := t.line, text := .text t.text, slot := some (SymbolTable.key t.text) }
  let value ← rightSide
  return { kind := .assign, line := t.line, children := target :: value.toList }

/-! ### Choices and loops -/

/-- The statement behind ELSE, if there is an ELSE. -/
def alternative (inner : Reading (Option Node)) : Reading (List Node) := do
  if (← kind) = .keyword .elseKw then
    advance
    return [← nested inner]
  else return []

/-- The statements of an IF from its THEN on, if there is a THEN. -/
def thenPart (inner : Reading (Option Node)) : Reading (List Node) := do
  if (← kind) = .keyword .thenKw then
    advance
    let first ← nested inner
    let second ← alternative inner
    return first :: second
  else return []

/-- The statements of an IF behind its condition. -/
def consequences (inner : Reading (Option Node)) : Reading (List Node) := do
  if (← kind) ≠ .keyword .thenKw then reject .expectingThen
  thenPart inner

/-- An IF statement. -/
def conditionalOf (inner : Reading (Option Node)) : Reading Node := do
  let t ← current
  advance
  let condition ← expression
  let branches ← consequences inner
  return { kind := .conditional, line := t.line, children := condition.toList ++ branches }

/-- The statement behind DO, if there is a DO. -/
def body (inner : Reading (Option Node)) : Reading (List Node) := do
  if (← kind) = .keyword .doKw then
    advance
    return [← nested inner]
  else return []

/-- A WHILE statement. -/
def whileOf (inner : Reading (Option Node)) : Reading Node := do
  let t ← current
  advance
  let condition ← expression
  if (← kind) ≠ .keyword .doKw then reject .expectingDo
  let statement ← body inner
  return { kind := .whileLoop, line := t.line, children := condition.toList ++ statement }

/-- The test at the end of a REPEAT statement. -/
def untilTest : Reading (List Node) := do
  let t ← current
  if ← expect (.keyword .untilKw) .expectingUntil then
    let condition ← expression
    return [{ kind := .test, line := t.line, children := condition.toList }]
  else return []

/-- A REPEAT statement. -/
def repeatOf (inner : Reading (Option Node)) : Reading Node := do
  let t ← current
  advance
  let children ← statements inner (.keyword .untilKw) (← budget)
  let test ← untilTest
  return { kind := .loop, line := t.line, children := children ++ test }

/-- The assignment in the header of a FOR statement. -/
def controlAssignment : Reading (List Node) := do
  if (← kind) = .identifier then return [← assignment]
  else
    reject .expectingControlVariable
    return []

/-- The limit in the header of a FOR statement, before which there were the given number of
reports; an earlier error in the header makes a complaint superfluous. -/
def limit (reports : Nat) : Reading (List Node) := do
  match ← kind with
  | .keyword .toKw | .keyword .downtoKw =>
    advance
    return (← expression).toList
  | _ =>
    if (← reportCount) = reports then reject .expectingTo
    return []

/-- A FOR statement. -/
def forOf (inner : Reading (Option Node)) : Reading Node := do
  let t ← current
  advance
  let reports ← reportCount
  let control ← controlAssignment
  let descending := (← kind) = .keyword .downtoKw
  let limit ← limit reports
  if (← kind) ≠ .keyword .doKw && (← reportCount) = reports then reject .expectingDo
  let statement ← body inner
  return { kind := .forLoop, line := t.line, descending, children := control ++ limit ++ statement }

/-! ### CASE statements -/

/-- A label of a branch. -/
def label : Reading (Option Node) := do
  match (← current).stringNode? with
  | some node =>
    advance
    return some node
  | none => signedNumber .invalidConstant

/-- A comma and the label behind it. -/
def labelRound : Reading (Option Node) := do
  advance
  label

/-- The labels of a branch behind the first one. -/
def moreLabels : Nat → Reading (List Node)
  | 0 => throw .exhausted
  | fuel + 1 => do
    if (← kind) = .symbol .comma then
      let node ← labelRound
      let rest ← moreLabels fuel
      return node.toList ++ rest
    else return []

/-- The labels of a branch. -/
def labels : Reading Node := do
  let t ← current
  let first ← label
  let rest ← moreLabels (← budget)
  return { kind := .selectConstants, line := t.line, children := first.toList ++ rest }

/-- The statement of a branch behind its labels, before which there were the given number of
reports. -/
def branchStatement (inner : Reading (Option Node)) (reports : Nat) : Reading (List Node) := do
  if (← kind) = .symbol .colon then
    advance
    return [← nested inner]
  else
    if (← reportCount) = reports then reject .expectingColon
    return []

/-- What follows a branch that started at the given cursor: semicolons, or a complaint that there
are none. A token at which no branch can go on is passed over. -/
def branchSeparator (start : Cursor) : Reading Unit := do
  let now ← get
  let kind := now.current.kind
  if kind = .symbol .semicolon then skipSemicolons (← budget)
  else if kind = .keyword .endKw || kind = .endOfFile then return ()
  else
    if now.reports.size = start.reports.size then complain .missingSemicolon
    if now.rest.length = start.rest.length || kind.followsStatement then advance

/-- A branch of a CASE statement with what follows it, or a semicolon that stands for none. -/
def branchRound (inner : Reading (Option Node)) : Reading (List Node) := do
  let start ← get
  if start.current.kind = .symbol .semicolon then
    advance
    return []
  else
    let constants ← labels
    let statement ← branchStatement inner start.reports.size
    branchSeparator start
    return [{ kind := .selectBranch, line := start.current.line,
              children := constants :: statement }]

/-- The branches of a CASE statement up to its END or the end of the text. -/
def branches (inner : Reading (Option Node)) : Nat → Reading (List Node)
  | 0 => throw .exhausted
  | fuel + 1 => do
    let kind ← kind
    if kind = .keyword .endKw || kind = .endOfFile then return []
    else
      let first ← branchRound inner
      let rest ← branches inner fuel
      return first ++ rest

/-- The branches of a CASE statement from its OF to its END, if there is an OF. -/
def ofPart (inner : Reading (Option Node)) : Reading (List Node) := do
  if (← kind) = .keyword .ofKw then
    advance
    let branches ← branches inner (← budget)
    let _ ← expect (.keyword .endKw) .expectingEnd
    return branches
  else return []

/-- The branches of a CASE statement behind its selector. -/
def branchesPart (inner : Reading (Option Node)) : Reading (List Node) := do
  if (← kind) ≠ .keyword .ofKw then reject .expectingOf
  ofPart inner

/-- A CASE statement. -/
def selectOf (inner : Reading (Option Node)) : Reading Node := do
  let t ← current
  advance
  let selector ← expression
  let branches ← branchesPart inner
  return { kind := .select, line := t.line, children := selector.toList ++ branches }

/-! ### WRITE statements -/

/-- What a WRITE statement writes: a variable, a string or a number. -/
def writeArgument : Reading (Option Node) := do
  let t ← current
  match t.kind with
  | .identifier => some <$> variableUse
  | .integer _ | .real _ | .symbol .minus => signedNumber .expectingNumber
  | _ =>
    match t.stringNode? with
    | some node =>
      advance
      return some node
    | none =>
      reject .invalidWrite
      return none

/-- A part of the format of a WRITE statement behind a colon: nothing if there is no colon, and
otherwise an integer, if one could be read. -/
def formatPart (c : Complaint) : Reading (Option (Option Node)) := do
  if (← kind) = .symbol .colon then
    advance
    return some (← signedInteger c)
  else return none

/-- The field width and the number of decimal places, and whether what follows can be read. -/
def writeFormat : Reading (List Node × Bool) := do
  match ← formatPart .invalidWidth with
  | none => return ([], true)
  | some none => return ([], false)
  | some (some width) =>
    match ← formatPart .invalidPlaces with
    | none => return ([width], true)
    | some none => return ([width], false)
    | some (some places) => return ([width, places], true)

/-- The arguments of a WRITE statement from its opening parenthesis to the closing one. -/
def writeArguments : Reading (List Node) := do
  if ← expect (.symbol .leftParen) .missingLeftParen then
    match ← writeArgument with
    | none => return []
    | some argument =>
      let (format, complete) ← writeFormat
      if complete then
        let _ ← expect (.symbol .rightParen) .missingRightParen
      return argument :: format
  else return []

/-- A WRITE or WRITELN statement; only WRITELN may go without arguments. -/
def writeStatement (statement : Node.Kind) : Reading Node := do
  let t ← current
  advance
  if statement = .writeln && (← kind) ≠ .symbol .leftParen then
    return { kind := statement, line := t.line }
  else
    let children ← writeArguments
    return { kind := statement, line := t.line, children }

/-! ### All statements -/

/-- A statement that starts with an identifier. WRITE and WRITELN are no reserved words. -/
def identifierStatement (name : Text) : Reading Node :=
  if Text.lowercase name = "write" then writeStatement .write
  else if Text.lowercase name = "writeln" then writeStatement .writeln
  else assignment

/-- A statement, given how the statements within it are read; nothing if it is empty or cannot
be read. -/
def statementOf (inner : Reading (Option Node)) : Reading (Option Node) := do
  let t ← current
  match t.kind with
  | .identifier => some <$> identifierStatement t.text
  | .keyword .beginKw => some <$> compoundOf inner
  | .keyword .repeatKw => some <$> repeatOf inner
  | .keyword .ifKw => some <$> conditionalOf inner
  | .keyword .whileKw => some <$> whileOf inner
  | .keyword .forKw => some <$> forOf inner
  | .keyword .caseKw => some <$> selectOf inner
  | kind =>
    if kind.followsEmptyStatement then return none
    else
      reject .unexpectedToken
      return none

/-- A statement that nests at most as deep as the fuel says. -/
def statement : Nat → Reading (Option Node)
  | 0 => throw .exhausted
  | fuel + 1 => statementOf (statement fuel)

end Reading

end MiniPascal

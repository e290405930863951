import MiniPascal.Grammar.Statement

/-!
# Reading programs

    program : PROGRAM name ; compound { ; } .

The period may be left out behind a semicolon. Reading a program always gives a tree, unless an
overlong integer stops it; the tree of a program with errors is incomplete and is not to be run.

* `MiniPascal.Reading.program`: reads a program.
* `MiniPascal.Parse`, `MiniPascal.parse`: the outcome of reading a program text.
-/

namespace MiniPascal

namespace Reading

/-- The name of a program, which enters it in the symbol table. -/
def programName : Reading (Option Text) := do
  let t ← current
  if t.kind = .identifier then
    modify fun cursor => { cursor with table := cursor.table.enter t.text }
    advance
    return some t.text
  else
    reject .expectingName
    return none

/-- The compound statement of a program. -/
def programBody : Reading (List Node) := do
  if (← kind) = .keyword .beginKw then
    let fuel ← budget
    return [← compoundOf (statement fuel)]
  else
    reject .expectingBegin
    return []

/-- The end of a program. -/
def programEnd : Reading Unit := do
  let bare := (← kind) ≠ .symbol .semicolon
  skipSemicolons (← budget)
  if (← kind) = .symbol .period then advance
  else if bare then reject .expectingPeriod
  else return ()

/-- Logs the end of reading a program of the given name. -/
def logProgram (name : Option Text) : Reading Unit :=
  modify fun cursor =>
    { cursor with
      log := cursor.log.push ⟨.info, .parser,
        "parsed program " ++ name.getD "None" ++ ": " ++ Numeral.write cursor.reports.size ++
          " error(s)"⟩ }

/-- A program. -/
def program : Reading Node := do
  advance
  let t ← current
  let _ ← expect (.keyword .programKw) .expectingProgram
  let name ← programName
  let _ ← expect (.symbol .semicolon) .missingSemicolon
  let children ← programBody
  programEnd
  logProgram name
  return { kind := .program, line := t.line, text := (name.map Datum.text).getD .null, children }

end Reading

/-- The outcome of reading a program text: its tree, unless an overlong integer was met, the
symbol table, all reports, and the log. -/
structure Parse where
  tree : Except Halt Node
  table : SymbolTable
  reports : Array Report
  log : Array Log.Entry

/-- The number of errors that comes with the tree: all reports count. -/
def Parse.errorCount (p : Parse) : Except Halt Nat := p.tree.map fun _ => p.reports.size

/-- The cursor in front of a feed. No token is in hand yet. -/
def Cursor.start (feed : Feed) (table : SymbolTable) : Cursor :=
  { feed with current := ⟨.endOfFile, 1, []⟩, table }

/-- Reads the program of a feed, with the names of the given symbol table declared. -/
def parseFeed (feed : Feed) (table : SymbolTable) : Parse :=
  match Reading.program (.start feed table) with
  | .ok tree cursor => ⟨.ok tree, cursor.table, cursor.reports, cursor.log⟩
  | .error halt cursor => ⟨.error halt, cursor.table, cursor.reports, cursor.log⟩

/-- Reads a program text, with the names of the given symbol table declared, behind earlier
reports. -/
def parse (source : Text) (table : SymbolTable) (reports : Array Report) : Parse :=
  parseFeed (Feed.ofSource source reports) table

end MiniPascal

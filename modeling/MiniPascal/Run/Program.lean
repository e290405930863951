import MiniPascal.Grammar.Program
import MiniPascal.Run.Visit

/-!
# Running a program

A program text is read, and if nothing was reported it is run. Its output begins with the
reports, if there are any.

* `MiniPascal.execute`: runs a tree.
* `MiniPascal.runProgram`: reads a program text and runs it.
-/

namespace MiniPascal

/-- The outcome of running a tree. -/
structure Execution where
  /-- What stopped the run before its end, if something did. -/
  stop : Option Stop
  table : SymbolTable
  output : Text
  log : Array Log.Entry

/-- Runs a tree on a symbol table, with the given level of detail of the trace and the given
amount of fuel. -/
def execute (level : Int) (fuel : Nat) (tree : Node) (table : SymbolTable) : Execution :=
  match Run.visit level fuel tree ⟨table, #[], #[]⟩ with
  | .ok _ m => ⟨none, m.table, m.output.toList, m.log⟩
  | .error stop m => ⟨some stop, m.table, m.output.toList, m.log⟩

/-- The outcome of reading a program text and running it. -/
structure ProgramRun where
  /-- The number of reports, unless reading was halted. -/
  errorCount : Except Halt Nat
  /-- What stopped the run before its end, if something did. -/
  stop : Option Stop
  table : SymbolTable
  output : Text
  log : Array Log.Entry

/-- Reads a program text, and runs it if nothing was reported. -/
def runProgram (level : Int) (fuel : Nat) (source : Text) : ProgramRun :=
  let p := parse source .empty #[]
  let printed := Report.renderAll p.reports.toList
  match p.tree with
  | .error halt => ⟨.error halt, none, p.table, printed, p.log⟩
  | .ok tree =>
    if p.reports.isEmpty then
      let e := execute level fuel tree p.table
      ⟨.ok 0, e.stop, e.table, e.output, p.log ++ e.log⟩
    else ⟨.ok p.reports.size, none, p.table, printed, p.log⟩

end MiniPascal

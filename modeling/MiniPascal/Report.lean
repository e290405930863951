import MiniPascal.Text.Numeral

/-!
# Error reports

Errors that are found while a program text is read do not stop the reading. Each one is
**reported**: its kind, the line, what is wrong, and the text of the token at which it was
found. A program with reports is not run.
-/

namespace MiniPascal

/-- The stage of reading that finds an error. -/
inductive Report.Kind
  /-- Characters that form no token. -/
  | token
  /-- A token that cannot stand where it stands. -/
  | syntactic
  /-- A variable that is used and never assigned before. -/
  | semantic
deriving DecidableEq, Inhabited

/-- The name of a kind of report. -/
def Report.Kind.name : Report.Kind → String
  | token => "TOKEN"
  | syntactic => "SYNTAX"
  | semantic => "SEMANTIC"

/-- An error found while a program text is read. -/
structure Report where
  kind : Report.Kind
  line : Int
  message : Text
  text : Text
deriving DecidableEq, Inhabited

namespace Report

/-- The line that is printed for a report, with its line end. -/
def render (r : Report) : Text :=
  r.kind.name ++ " ERROR at line " ++ Numeral.write r.line ++ ": " ++ r.message ++ " at '" ++
    r.text ++ "'\n"

/-- What is printed for reports, in order. -/
def renderAll (reports : List Report) : Text := reports.flatMap render

/-- The number of reports of one kind. -/
def countOf (kind : Kind) (reports : List Report) : Nat := reports.countP (·.kind = kind)

end Report

end MiniPascal

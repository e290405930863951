import MiniPascal.Text.Basic

/-!
# The log

Reading and running a program leave a **log** of what happened, for whoever wants to follow it.
An entry has a level, the part of the program that made it, and a message.
-/

namespace MiniPascal.Log

/-- How detailed an entry is. -/
inductive Level
  | info
  | debug
deriving DecidableEq

/-- The name of a level. -/
def Level.name : Level → String
  | info => "INFO"
  | debug => "DEBUG"

/-- The part of the program that makes an entry. -/
inductive Origin
  | scanner
  | parser
  | executor
deriving DecidableEq

/-- The name of a part in the log. -/
def Origin.name : Origin → String
  | scanner => "simple.scanner"
  | parser => "simple.parser"
  | executor => "simple.executor"

/-- An entry of the log. -/
structure Entry where
  level : Level
  origin : Origin
  message : Text
deriving DecidableEq

/-- An entry as a line of a log file. -/
def Entry.render (e : Entry) : Text :=
  e.origin.name ++ " - " ++ e.level.name ++ " - " ++ e.message ++ "\n"

end MiniPascal.Log

import MiniPascal.CommandLine.Response

/-!
# The command

Reads the arguments, looks at the file that they name, and does what the response says. With any
verbosity a log file is written.
-/

open MiniPascal

namespace MiniPascal.CommandLine

/-- The name of the log file. -/
def logFile : String := "debug.txt"

/-- More fuel than any run uses up. -/
def runFuel : Nat := 1152921504606846976

/-- What this runtime says of its own accord. -/
def runtime : Runtime where
  wordOverflow := "int too large for a machine word"
  undecodable _ := "the file is not UTF-8"
  notJson _ := "the text is not JSON"

/-- What is found at a path. -/
def findFile (path : Text) : IO FileContent :=
  try
    return .bytes (← IO.FS.readBinFile path.toString)
  catch
    | .noFileOrDirectory .. => return .missing
    | .invalidArgument .. => return .tooLong
    | _ => return .unreadable

/-- Does what a response says, and gives the exit code. -/
def carryOut (verbosity : Nat) (r : Response) : IO UInt32 := do
  (← IO.getStdout).putStr r.output.toString
  (← IO.getStdout).flush
  if let some diagnostic := r.diagnostic then
    (← IO.getStderr).putStr (diagnostic.message runtime).toString
  if let some (path, text) := r.written then IO.FS.writeFile path.toString text
  if let some text := logText? verbosity r.log then IO.FS.writeFile logFile text.toString
  match r.ending with
  | .exit code => return UInt32.ofNat code
  | .breakdown _ => return 1

/-- Runs the command with the given words as its arguments. -/
def runCommand (words : List String) : IO UInt32 := do
  match Arguments.parse (words.map Text.ofString) with
  | .error .help => carryOut 0 helpResponse
  | .error .usage =>
    (← IO.getStderr).putStr helpText
    return 2
  | .ok arguments =>
    if arguments.verbosity ≠ 0 then IO.FS.writeFile logFile ""
    match arguments.job? with
    | none =>
      (← IO.getStderr).putStr helpText
      return 2
    | some (job, path) =>
      let path := normalPath path
      let found ← findFile path
      carryOut arguments.verbosity (respond arguments.verbosity runFuel job path found)

end MiniPascal.CommandLine

/-- The command. -/
def main (words : List String) : IO UInt32 := CommandLine.runCommand words

import MiniPascal.CommandLine.Arguments
import MiniPascal.CommandLine.File
import MiniPascal.Datum.Json
import MiniPascal.Node.Document
import MiniPascal.Node.Dump
import MiniPascal.Run.Program

/-!
# What a command does

A command turns the content of a file into a **response**: what is printed, what is written, and
how the command ends. It may end with an exit code, or break off because of something that it
has no answer to.

* `MiniPascal.CommandLine.Response`: the response of a command.
* `MiniPascal.CommandLine.respond`: the response to a job on a file.
-/

namespace MiniPascal.CommandLine

/-! ### Responses -/

/-- Why a tree document cannot be loaded. -/
inductive DocumentFault
  /-- The file is not UTF-8. -/
  | undecodable (content : ByteArray)
  /-- The text is not JSON. -/
  | notJson (chars : List Char)
  /-- The datum is no tree. -/
  | load (fault : Node.LoadFault)

/-- The wording of a fault in a tree document. -/
def DocumentFault.message (runtime : Runtime) : DocumentFault → Text
  | undecodable content => runtime.undecodable content
  | notJson chars => runtime.notJson chars
  | load fault => fault.message

/-- What is said about a command that fails. -/
inductive Diagnostic
  | notFound (path : Text)
  | invalidTree (path : Text) (fault : DocumentFault)
  | runtime (fault : Fault)

/-- The wording of a diagnostic. -/
def Diagnostic.message (runtime : Runtime) : Diagnostic → Text
  | notFound path => "Error: file " ++ path ++ " not found\n"
  | invalidTree path fault =>
    "Error: invalid parse tree file " ++ path ++ ": " ++ fault.message runtime ++ "\n"
  | .runtime fault => "Runtime error: " ++ fault.message runtime ++ "\n"

/-- Why a command breaks off. -/
inductive Breakdown
  /-- A source file is not UTF-8. -/
  | undecodable
  /-- The path is that of something that cannot be read. -/
  | unreadable
  /-- The path of a file to read or to write is too long. -/
  | tooLong
  /-- Reading met an overlong integer. -/
  | halt (h : Halt)
  /-- A tree document has a name that is no text, or an infinite number. -/
  | load (fault : Node.LoadFault)
  /-- A tree cannot be dumped. -/
  | dump (fault : Node.DumpFault)
  /-- The fuel of a run is used up. -/
  | exhausted
deriving DecidableEq

/-- How a command ends. -/
inductive Ending
  | exit (code : Nat)
  | breakdown (b : Breakdown)
deriving DecidableEq

/-- The response of a command. -/
structure Response where
  ending : Ending
  output : Text := []
  diagnostic : Option Diagnostic := none
  /-- A file that is written, with its text. -/
  written : Option (Text × String) := none
  log : Array Log.Entry := #[]

/-- The text of the log file of a command with the given verbosity; without any there is no log
file, and verbosity one takes only the entries for information. -/
def logText? (verbosity : Nat) (log : Array Log.Entry) : Option Text :=
  if verbosity = 0 then none
  else
    let shown := log.toList.filter fun e => e.level = .info || 2 ≤ verbosity
    some (shown.flatMap Log.Entry.render)

/-! ### Help -/

/-- How the command is used. -/
def helpText : String :=
  "usage: simple [-h] [-v]\n" ++
  "              (-scan | -parse | -execute | --emit-tree SOURCE_FILE | --tree TREE_JSON_FILE)\n" ++
  "              [source]\n" ++
  "\n" ++
  "Simple language interpreter\n" ++
  "\n" ++
  "positional arguments:\n" ++
  "  source                source file of the program\n" ++
  "\n" ++
  "options:\n" ++
  "  -h, --help            show this help message and exit\n" ++
  "  -v                    increase debug verbosity (can be repeated)\n" ++
  "  -scan                 print the tokens of the source file\n" ++
  "  -parse                print the parse tree of the source file\n" ++
  "  -execute              run the program in the source file\n" ++
  "  --emit-tree SOURCE_FILE\n" ++
  "                        write the parse tree as JSON\n" ++
  "  --tree TREE_JSON_FILE\n" ++
  "                        execute a parse tree JSON file\n"

/-- The response to being asked for help. -/
def helpResponse : Response := { ending := .exit 0, output := helpText }

/-! ### Jobs on a program text -/

/-- A token as a line of the list of tokens: its kind, in a field of twelve columns, and its
text. -/
def tokenLine (t : Token) : Text :=
  let name := t.kind.name
  Text.spaces (12 - name.length) ++ name ++ " : " ++ t.text ++ "\n"

/-- Lists the tokens of a program text. Error tokens are reported in front of their line. -/
def scanResponse (source : Text) : Response :=
  let (tokens, feed, done) := (Feed.ofSource source #[]).remaining
  let lines := tokens.map fun t => Report.renderAll t.reports ++ tokenLine t
  { ending := if done then .exit 0 else .breakdown (.halt .overlong)
    output := "Tokens:\n\n" ++ lines.flatten
    log := feed.log }

/-- Reads a program text and goes on with its tree and symbol table. If there are reports, they
are printed with their number, and nothing else is done. -/
def withTree (source : Text) (next : Node → SymbolTable → Response) : Response :=
  let p := MiniPascal.parse source .empty #[]
  let printed := Report.renderAll p.reports.toList
  match p.tree with
  | .error h => { ending := .breakdown (.halt h), output := printed, log := p.log }
  | .ok tree =>
    if p.reports.isEmpty then
      let r := next tree p.table
      { r with log := p.log ++ r.log }
    else
      { ending := .exit 1
        output := printed ++ "\nThere were " ++ Numeral.write p.reports.size ++ " syntax errors.\n"
        log := p.log }

/-- Prints the dump of a tree. -/
def dumpResponse (tree : Node) : Response :=
  match tree.dump with
  | .ok s => { ending := .exit 0, output := "Parse tree:\n\n" ++ s }
  | .error fault => { ending := .breakdown (.dump fault), output := "Parse tree:\n\n" }

/-- Runs a tree. -/
def runResponse (level fuel : Nat) (tree : Node) (table : SymbolTable) : Response :=
  let e := execute level fuel tree table
  match e.stop with
  | none => { ending := .exit 0, output := e.output, log := e.log }
  | some (.fault f) =>
    { ending := .exit 1, output := e.output, diagnostic := some (.runtime f), log := e.log }
  | some .exhausted => { ending := .breakdown .exhausted, output := e.output, log := e.log }

/-- Saves the tree of a program. -/
def emitResponse (path : Text) (tree : Node) : Response :=
  if pathFits (treePath path) then
    { ending := .exit 0
      output := treePath path ++ "\n"
      written := some (treePath path, tree.toDatum.toIndentedJson 0) }
  else { ending := .breakdown .tooLong }

/-! ### Jobs on a tree document -/

/-- Whether a fault of loading is answered; the others break the command off. -/
def isAnswered : Node.LoadFault → Bool
  | .nameNotText _ => false
  | .number .infinite | .number .tooLarge => false
  | _ => true

/-- The response to a tree document that cannot be loaded. -/
def invalidTree (path : Text) (fault : DocumentFault) : Response :=
  { ending := .exit 1, diagnostic := some (.invalidTree path fault) }

/-- Loads a tree document and runs its tree. -/
def documentResponse (level fuel : Nat) (path : Text) (content : ByteArray) : Response :=
  match decodeText? content with
  | none => invalidTree path (.undecodable content)
  | some chars =>
    match Datum.ofJson? (String.ofList chars) with
    | none => invalidTree path (.notJson chars)
    | some datum =>
      match Node.ofDatum datum .empty with
      | .ok tree table => runResponse level fuel tree table
      | .error fault _ =>
        if isAnswered fault then invalidTree path (.load fault)
        else { ending := .breakdown (.load fault) }

/-! ### All jobs -/

/-- The response to a job on a program text. -/
def sourceResponse (level fuel : Nat) (job : Job) (path : Text) (source : Text) : Response :=
  match job with
  | .scan => scanResponse source
  | .parse => withTree source fun tree _ => dumpResponse tree
  | .emitTree => withTree source fun tree _ => emitResponse path tree
  | .execute | .runTree => withTree source fun tree table => runResponse level fuel tree table

/-- The response to a job on what is found at a path in normal form, with the given verbosity
and an amount of fuel for running. -/
def respond (verbosity fuel : Nat) (job : Job) (path : Text) (found : FileContent) : Response :=
  match found with
  | .missing => { ending := .exit 1, diagnostic := some (.notFound path) }
  | .unreadable => { ending := .breakdown .unreadable }
  | .tooLong => { ending := .breakdown .tooLong }
  | .bytes content =>
    if job = .runTree then documentResponse verbosity fuel path content
    else
      match decodeText? content with
      | none => { ending := .breakdown .undecodable }
      | some chars => sourceResponse verbosity fuel job path (Text.ofChars chars)

end MiniPascal.CommandLine

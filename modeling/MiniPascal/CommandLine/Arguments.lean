import MiniPascal.Text.Digit

/-!
# Command-line arguments

The arguments choose **one action** and, for some of them, a source file:

    [-v ...] ( -scan | -parse | -execute | --emit-tree FILE | --tree FILE ) [FILE]

An option may be shortened to any beginning that no other option shares. The argument of an
option is the next word or follows an equals sign. Letters that are options of their own may be
joined to an option with one dash, so that `-vv` is `-v -v`, and `-scan=v` is `-scan -v`. Behind
`--` no word is an option; a word that looks like a negative number, or that holds a blank and is
not known, is none either.

* `MiniPascal.CommandLine.classify`: what a word is.
* `MiniPascal.CommandLine.Arguments.parse`: what the arguments ask for.
-/

namespace MiniPascal.CommandLine

/-! ### Options -/

/-- The options. -/
inductive Opt
  | help
  | verbose
  | scan
  | parse
  | execute
  | emitTree
  | tree
deriving DecidableEq

/-- The names of the options. -/
def optionNames : List (Text × Opt) :=
  [("-h", .help), ("--help", .help), ("-v", .verbose), ("-scan", .scan), ("-parse", .parse),
   ("-execute", .execute), ("--emit-tree", .emitTree), ("--tree", .tree)]

/-- Whether the option has an argument. -/
def Opt.takesArgument : Opt → Bool
  | emitTree | tree => true
  | _ => false

/-- The option of exactly this name. -/
def exactOption? (name : Text) : Option Opt :=
  (optionNames.find? (·.1 = name)).map (·.2)

/-- The options that letters stand for, each of which has to be one. -/
def letterOptions? : Text → Option (List Opt)
  | [] => some []
  | c :: rest => do
    let opt ← exactOption? [.char '-', c]
    return opt :: (← letterOptions? rest)

/-! ### Words -/

/-- What a word is. -/
inductive Word
  | plain (text : Text)
  /-- An option, with what an equals sign attaches to it. -/
  | option (opt : Opt) (attached : Option Text)
  /-- An option with one dash, with the letters joined to it. -/
  | joined (opt : Opt) (letters : Text)
  /-- Something that looks like an option and is none. -/
  | unknown
  /-- Short for several options. -/
  | ambiguous
deriving DecidableEq

/-- The part before the first equals sign, and what follows that sign. -/
def splitEquals (word : Text) : Text × Option Text :=
  match word.dropWhile (· ≠ .char '=') with
  | [] => (word, none)
  | _ :: tail => (word.takeWhile (· ≠ .char '='), some tail)

/-- The options that a word with two dashes may be short for. -/
def longCandidates (word : Text) : List Word :=
  let (start, attached) := splitEquals word
  optionNames.filterMap fun (name, opt) =>
    if start.isPrefixOf name then some (.option opt attached) else none

/-- The options that a word with one dash may be short for, or whose letter it starts with. -/
def shortCandidates (word : Text) : List Word :=
  optionNames.filterMap fun (name, opt) =>
    if name = word.take 2 then some (.joined opt (word.drop 2))
    else if word.isPrefixOf name then some (.option opt none)
    else none

/-- Whether the text is digits, and perhaps a point that has digits behind it. -/
def looksNumeric (text : Text) : Bool :=
  match text.dropWhile Text.isDigit with
  | [] => !text.isEmpty
  | .char '.' :: fraction => !fraction.isEmpty && fraction.all Text.isDigit
  | _ => false

/-- Whether the word looks like a negative number; a line end behind it does not count. -/
def looksNegative (word : Text) : Bool :=
  match word with
  | .char '-' :: body =>
    looksNumeric (if body.getLast? = some (.char '\n') then body.dropLast else body)
  | _ => false

/-- The word behind which no word is an option. -/
def twoDashes : Text := "--"

/-- Whether the word starts with two dashes. -/
def hasTwoDashes (word : Text) : Bool := twoDashes.isPrefixOf word

/-- What a word with a dash is that is not the exact name of an option. -/
def classifyInexact (word : Text) : Word :=
  match if hasTwoDashes word then longCandidates word else shortCandidates word with
  | [candidate] => candidate
  | _ :: _ :: _ => .ambiguous
  | [] => if looksNegative word || word.contains (.char ' ') then .plain word else .unknown

/-- What a word in front of any `--` is. -/
def classify (word : Text) : Word :=
  match word with
  | .char '-' :: _ :: _ =>
    match exactOption? word with
    | some opt => .option opt none
    | none =>
      let (name, attached) := splitEquals word
      match attached, exactOption? name with
      | some tail, some opt =>
        if hasTwoDashes name then .option opt (some tail) else .joined opt tail
      | _, _ => classifyInexact word
  | _ => .plain word

/-! ### Reading the arguments -/

/-- What the program is asked to do. -/
inductive Action
  | scan
  | parse
  | execute
  | emitTree (path : Text)
  | tree (path : Text)
deriving DecidableEq

/-- The option that chooses an action. -/
def Action.opt : Action → Opt
  | scan => .scan
  | parse => .parse
  | execute => .execute
  | emitTree _ => .emitTree
  | tree _ => .tree

/-- Why there is nothing to do. -/
inductive Refusal
  /-- The arguments are not understood. -/
  | usage
  /-- Only help was asked for. -/
  | help
deriving DecidableEq

/-- What the arguments ask for, as far as they are read. -/
structure Draft where
  verbosity : Nat
  action : Option Action
  source : Option Text
  /-- Whether there were words that nothing asks for. -/
  surplus : Bool

namespace Draft

/-- Chooses an action; two different options exclude each other. -/
def choose (p : Draft) (action : Action) : Except Refusal Draft :=
  match p.action with
  | none => .ok { p with action := some action }
  | some chosen =>
    if chosen.opt = action.opt then .ok { p with action := some action } else .error .usage

/-- Takes an option that has no argument. -/
def flag (p : Draft) : Opt → Except Refusal Draft
  | .help => .error .help
  | .verbose => .ok { p with verbosity := p.verbosity + 1 }
  | .scan => p.choose .scan
  | .parse => p.choose .parse
  | .execute => p.choose .execute
  | _ => .error .usage

/-- Takes an option with its argument; an option that has none cannot be given one. -/
def withArgument (p : Draft) (opt : Opt) (argument : Text) : Except Refusal Draft :=
  match opt with
  | .emitTree => p.choose (.emitTree argument)
  | .tree => p.choose (.tree argument)
  | _ => .error .usage

/-- Takes options that have no argument, in order. -/
def flags (p : Draft) : List Opt → Except Refusal Draft
  | [] => .ok p
  | opt :: opts => do (← p.flag opt).flags opts

/-- Takes an option with the letters joined to it, of which there has to be one at least. -/
def joined (p : Draft) (opt : Opt) (letters : Text) : Except Refusal Draft :=
  match letterOptions? letters with
  | some (letter :: others) => p.flags (opt :: letter :: others)
  | _ => .error .usage

/-- Takes an option with the argument that an equals sign attaches to it; `--` is no argument. -/
def attached (p : Draft) (opt : Opt) (argument : Text) : Except Refusal Draft :=
  p.withArgument opt (if argument = twoDashes then [] else argument)

/-- Takes a plain word: the first one is the source file. -/
def plain (p : Draft) (word : Text) : Draft :=
  match p.source with
  | none => { p with source := some word }
  | some _ => { p with surplus := true }

/-- Takes the words behind `--`, which are plain. -/
def rest (p : Draft) (words : List Text) : Draft := words.foldl plain p

/-- Takes words one after the other. A `--` that neither stands right behind a plain word nor can
have the source file behind it is one word too many. -/
def read (p : Draft) : List Text → Except Refusal Draft
  | [] => .ok p
  | word :: words =>
    if word = twoDashes then .ok ({ p with surplus := p.surplus || p.source.isSome }.rest words)
    else
      match classify word with
      | .plain text =>
        if words.head? = some twoDashes then .ok ((p.plain text).rest (words.drop 1))
        else (p.plain text).read words
      | .unknown | .ambiguous => { p with surplus := true }.read words
      | .joined opt letters => do (← p.joined opt letters).read words
      | .option opt (some argument) => do (← p.attached opt argument).read words
      | .option opt none =>
        if opt.takesArgument then
          match words with
          | next :: words =>
            match classify next with
            | .plain text => do (← p.withArgument opt text).read words
            | _ => .error .usage
          | [] => .error .usage
        else do (← p.flag opt).read words

end Draft

/-- What the arguments ask for. -/
structure Arguments where
  verbosity : Nat
  action : Action
  source : Option Text
deriving DecidableEq

/-- Whether one of the words that may be options is short for several. -/
def hasAmbiguous (words : List Text) : Bool :=
  (words.takeWhile (· ≠ twoDashes)).any (classify · = .ambiguous)

/-- What the arguments ask for. An action has to be chosen, and every word has to have a use; a
word that is short for several options is refused before anything is done. -/
def Arguments.parse (words : List Text) : Except Refusal Arguments :=
  if hasAmbiguous words then .error .usage
  else do
    let p ← Draft.read ⟨0, none, none, false⟩ words
    match p.action with
    | some action =>
      if p.surplus then .error .usage else .ok ⟨p.verbosity, action, p.source⟩
    | none => .error .usage

/-! ### The job -/

/-- What is done with a file. -/
inductive Job
  | scan
  | parse
  | execute
  | emitTree
  | runTree
deriving DecidableEq

/-- The job and the file that the arguments name. A tree option with an empty file name counts
for nothing, so that the source file is run. -/
def Arguments.job? (a : Arguments) : Option (Job × Text) :=
  let ofSource (job : Job) : Option (Job × Text) :=
    match a.source with
    | some path => if path.isEmpty then none else some (job, path)
    | none => none
  match a.action with
  | .emitTree path => if path.isEmpty then ofSource .execute else some (.emitTree, path)
  | .tree path => if path.isEmpty then ofSource .execute else some (.runTree, path)
  | .scan => ofSource .scan
  | .parse => ofSource .parse
  | .execute => ofSource .execute

end MiniPascal.CommandLine

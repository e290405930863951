import MiniPascal.CommandLine.Response
import MiniPascal.Proofs.Grammar.Totality
import MiniPascal.Proofs.Run.Fuel

/-!
# The gate in front of a run

No program text with errors is run. There are two ways to run a text, by itself
(`MiniPascal.runProgram`) and as the file of a command, and three jobs of a command read a program text.
They all stand behind one **gate**: the number of reports. If it is not zero, they print the reports and
stop, and a command also tells the number. If it is zero, a run prints the same in both ways, also when
it breaks off halfway; a command then says what was wrong with it, and what has been printed stays.

* `MiniPascal.CommandLine.Asks`: a command that asks for a job on a file.
* `MiniPascal.CommandLine.Response.Refuses`: a response that gives nothing but the reports.
* `MiniPascal.CommandLine.Response.Conveys`: a response that shows a run.
* `MiniPascal.CommandLine.gate_agrees`: what the number of reports decides.
-/

namespace MiniPascal

variable {source : Text} {n : Nat}

/-! ### The two ways to run a text -/

/-- The tree is there, and there are as many reports as are counted. -/
theorem exists_tree_and_reports (h : (parse source .empty #[]).errorCount = .ok n) :
    let p := parse source .empty #[]
    ∃ tree, p.tree = .ok tree ∧ p.reports.size = n ∧ p.reports.isEmpty = (n = 0 : Bool) := by
  intro p
  obtain ⟨tree, htree, hsize⟩ := Parse.errorCount_eq_ok_iff.1 h
  have hsize : p.reports.size = n := hsize
  exact ⟨tree, htree, hsize, by rw [Array.isEmpty, hsize]⟩

/-- **A text with errors is not run**: its reports are printed, and that is all. -/
theorem runProgram_of_pos (h : (parse source .empty #[]).errorCount = .ok n) (hn : 0 < n) (level : Int)
    (fuel : Nat) :
    let p := parse source .empty #[]
    runProgram level fuel source =
      ⟨.ok n, none, p.table, Report.renderAll p.reports.toList, p.log⟩ := by
  intro p
  obtain ⟨tree, htree, hsize, hreports⟩ := exists_tree_and_reports h
  simp [runProgram, htree, hsize, hreports, hn.ne', p]

/-- A text without errors is run. -/
theorem runProgram_of_zero {tree : Node} (h : (parse source .empty #[]).errorCount = .ok 0)
    (htree : (parse source .empty #[]).tree = .ok tree) (level : Int) (fuel : Nat) :
    let p := parse source .empty #[]
    let e := execute level fuel tree p.table
    runProgram level fuel source = ⟨.ok 0, e.stop, e.table, e.output, p.log ++ e.log⟩ := by
  intro p e
  obtain ⟨-, -, -, hreports⟩ := exists_tree_and_reports h
  simp [runProgram, htree, hreports, p, e]

namespace CommandLine

/-- A command refuses a text with errors. -/
theorem withTree_of_pos (h : (MiniPascal.parse source .empty #[]).errorCount = .ok n) (hn : 0 < n)
    (next : Node → SymbolTable → Response) :
    let p := MiniPascal.parse source .empty #[]
    withTree source next =
      { ending := .exit 1
        output := Report.renderAll p.reports.toList ++ "\nThere were " ++ Numeral.write n ++
          " syntax errors.\n"
        log := p.log } := by
  intro p
  obtain ⟨tree, htree, hsize, hreports⟩ := exists_tree_and_reports h
  simp [withTree, htree, hsize, hreports, hn.ne', p]

/-- A command goes on with a text without errors. -/
theorem withTree_of_zero {tree : Node} (h : (MiniPascal.parse source .empty #[]).errorCount = .ok 0)
    (htree : (MiniPascal.parse source .empty #[]).tree = .ok tree)
    (next : Node → SymbolTable → Response) :
    let p := MiniPascal.parse source .empty #[]
    let r := next tree p.table
    withTree source next = { r with log := p.log ++ r.log } := by
  intro p r
  obtain ⟨-, -, -, hreports⟩ := exists_tree_and_reports h
  simp [withTree, htree, hreports, p, r]

/-! ### Commands -/

/-- The words are those of a command without any verbosity that asks for the job on the file. -/
def Asks (words : List Text) (job : Job) (path : Text) : Prop :=
  ∃ a, Arguments.parse words = .ok a ∧ a.verbosity = 0 ∧ a.job? = some (job, path)

/-- **Each of the options asks for its job** on a file whose path looks like no option. -/
theorem asks_of_plain {path : Text} (h : classify path = .plain path) (hpath : path ≠ [])
    (hdashes : path ≠ twoDashes) :
    Asks ["-parse", path] .parse path ∧ Asks ["-execute", path] .execute path ∧
      Asks ["--emit-tree", path] .emitTree path := by
  have hempty : path.isEmpty = false := by simpa using hpath
  have hparse : classify "-parse" = .option .parse none ∧ ("-parse" : Text) ≠ twoDashes := by
    decide +kernel
  have hexecute : classify "-execute" = .option .execute none ∧ ("-execute" : Text) ≠ twoDashes := by
    decide +kernel
  have hemit : classify "--emit-tree" = .option .emitTree none ∧ ("--emit-tree" : Text) ≠ twoDashes := by
    decide +kernel
  refine ⟨⟨⟨0, .parse, some path⟩, ?_, rfl, by simp [Arguments.job?, hempty]⟩,
    ⟨⟨0, .execute, some path⟩, ?_, rfl, by simp [Arguments.job?, hempty]⟩,
    ⟨⟨0, .emitTree path, none⟩, ?_, rfl, by simp [Arguments.job?, hempty]⟩⟩
  · simp [Arguments.parse, hasAmbiguous, List.takeWhile, Draft.read, Opt.takesArgument, Draft.flag,
      Draft.choose, Draft.plain, Bind.bind, Except.bind, h, hdashes, hparse]
  · simp [Arguments.parse, hasAmbiguous, List.takeWhile, Draft.read, Opt.takesArgument, Draft.flag,
      Draft.choose, Draft.plain, Bind.bind, Except.bind, h, hdashes, hexecute]
  · simp [Arguments.parse, hasAmbiguous, List.takeWhile, Draft.read, Opt.takesArgument,
      Draft.withArgument, Draft.choose, Bind.bind, Except.bind, h, hdashes, hemit]

/-- The jobs that read a program text as a whole. -/
def Job.readsProgram (job : Job) : Prop := job = .parse ∨ job = .execute ∨ job = .emitTree

/-- **The response gives the reports and their number, and nothing else.** -/
structure Response.Refuses (r : Response) (printed : Text) (n : Nat) : Prop where
  output : r.output = printed ++ "\nThere were " ++ Numeral.write n ++ " syntax errors.\n"
  ending : r.ending = .exit 1
  diagnostic : r.diagnostic = none
  written : r.written = none

/-- **The response shows a run**: all that it has written, and why it ended if not by itself. -/
structure Response.Conveys (r : Response) (e : Execution) : Prop where
  output : r.output = e.output
  written : r.written = none
  normal : e.stop = none → r.ending = .exit 0 ∧ r.diagnostic = none
  fault : ∀ f, e.stop = some (.fault f) → r.ending = .exit 1 ∧
    ∃ d, r.diagnostic = some d ∧
      ∀ runtime, d.message runtime = "Runtime error: " ++ f.message runtime ++ "\n"

theorem runResponse_conveys (level fuel : Nat) (tree : Node) (table : SymbolTable) :
    (runResponse level fuel tree table).Conveys (execute level fuel tree table) := by
  unfold runResponse
  generalize execute level fuel tree table = e
  obtain ⟨stop, table, output, log⟩ := e
  cases stop with
  | none => exact ⟨rfl, rfl, fun _ => ⟨rfl, rfl⟩, nofun⟩
  | some stop =>
    cases stop with
    | fault f =>
      refine ⟨rfl, rfl, nofun, fun f' hf' => ?_⟩
      cases hf'
      exact ⟨rfl, _, rfl, fun _ => rfl⟩
    | exhausted => exact ⟨rfl, rfl, nofun, nofun⟩

/-- Every job that reads a program text does so through the same gate. -/
theorem exists_withTree {job : Job} (hjob : job.readsProgram) (level fuel : Nat) (path source : Text) :
    ∃ next, sourceResponse level fuel job path source = withTree source next := by
  rcases hjob with rfl | rfl | rfl
  · exact ⟨fun tree _ => dumpResponse tree, rfl⟩
  · exact ⟨fun tree table => runResponse level fuel tree table, rfl⟩
  · exact ⟨fun tree _ => emitResponse path tree, rfl⟩

theorem respond_bytes {job : Job} {content : ByteArray} {chars : List Char} (hjob : job ≠ .runTree)
    (hchars : decodeText? content = some chars) (verbosity fuel : Nat) (path : Text) :
    respond verbosity fuel job path (.bytes content) =
      sourceResponse verbosity fuel job path (.ofChars chars) := by
  simp only [respond, if_neg hjob, hchars]

/-- **The gate.** Take a file whose text was read with `n` errors, and a command without any verbosity
that asks for a job on it. If there are errors then running the text by itself gives their number,
prints the reports and does nothing else; and the command prints the same reports, whatever its job,
then an empty line and their number. If there are none, and the run ends, then it prints the same in
both ways: the command to run it ends well, or with the fault that broke the run off. In no case is
there a log file. -/
theorem gate_agrees {words : List Text} {job : Job} {path : Text} {content : ByteArray}
    {chars : List Char} {n : Nat} (hasks : Asks words job path) (hjob : job.readsProgram)
    (hchars : decodeText? content = some chars)
    (hcount : (MiniPascal.parse (.ofChars chars) .empty #[]).errorCount = .ok n) :
    let source : Text := .ofChars chars
    let p := MiniPascal.parse source .empty #[]
    let printed := Report.renderAll p.reports.toList
    ∃ a, Arguments.parse words = .ok a ∧ a.job? = some (job, path) ∧
      (∀ log, logText? a.verbosity log = none) ∧
      (0 < n → (∀ level fuel, runProgram level fuel source = ⟨.ok n, none, p.table, printed, p.log⟩) ∧
        ∀ fuel, (respond a.verbosity fuel job (normalPath path) (.bytes content)).Refuses printed n) ∧
      (n = 0 → job = .execute → ∃ tree, p.tree = .ok tree ∧ ∀ e, Ends 0 tree p.table e →
        ∃ least, ∀ fuel, least ≤ fuel →
          runProgram 0 fuel source = ⟨.ok 0, e.stop, e.table, e.output, p.log ++ e.log⟩ ∧
          (respond a.verbosity fuel job (normalPath path) (.bytes content)).Conveys e) := by
  intro source p printed
  obtain ⟨a, hwords, hverbosity, hnames⟩ := hasks
  refine ⟨a, hwords, hnames, fun log => by rw [hverbosity]; rfl, fun hn => ?_, ?_⟩
  · refine ⟨fun level fuel => runProgram_of_pos hcount hn level fuel, fun fuel => ?_⟩
    have hne : job ≠ .runTree := by rcases hjob with rfl | rfl | rfl <;> nofun
    obtain ⟨next, hnext⟩ := exists_withTree hjob a.verbosity fuel (normalPath path) source
    rw [respond_bytes hne hchars, hnext, withTree_of_pos hcount hn]
    exact ⟨rfl, rfl, rfl, rfl⟩
  · intro hn hexecute
    subst hn hexecute
    obtain ⟨tree, htree, -⟩ := exists_tree_and_reports hcount
    refine ⟨tree, htree, fun e hends => ?_⟩
    obtain ⟨-, least, hleast⟩ := hends
    refine ⟨least, fun fuel hfuel => ?_⟩
    rw [respond_bytes (by decide) hchars, hverbosity, sourceResponse, withTree_of_zero hcount htree,
      runProgram_of_zero hcount htree, hleast fuel hfuel]
    have hconveys := runResponse_conveys 0 fuel tree p.table
    rw [show execute ((0 : Nat) : Int) fuel tree p.table = e from hleast fuel hfuel] at hconveys
    exact ⟨rfl, hconveys.output, hconveys.written, hconveys.normal, hconveys.fault⟩

/-- A program that is refused for two errors, and one that fails when it has written a line. -/
theorem gate_agrees_refused_and_run :
    (let content := "PROGRAM a;\nBEGIN writeln(x)\nEND".toUTF8
      let printed : Text := "SEMANTIC ERROR at line 2: Undeclared identifier at 'x'\n" ++
        "SYNTAX ERROR at line 3: Expecting . at ''\n"
      ∃ a, Arguments.parse ["-parse", "program.txt"] = .ok a ∧ ∀ fuel,
        let r := respond a.verbosity fuel .parse (normalPath "program.txt") (.bytes content)
        r.output = printed ++ "\nThere were 2 syntax errors.\n" ∧ r.ending = .exit 1 ∧ r.written = none ∧
          (runProgram 0 fuel (.ofChars "PROGRAM a;\nBEGIN writeln(x)\nEND".toList)).output = printed) ∧
    let content := "PROGRAM a;\nBEGIN writeln('x'); a := 1 DIV 0 END.".toUTF8
    ∃ a, Arguments.parse ["-execute", "program.txt"] = .ok a ∧ ∃ fuel,
      let r := respond a.verbosity fuel .execute (normalPath "program.txt") (.bytes content)
      r.output = "x\n" ∧ r.ending = .exit 1 ∧ ∃ d, r.diagnostic = some d ∧
        ∀ runtime, d.message runtime = "Runtime error: line 2: division by zero\n" := by
  have hpath : classify "program.txt" = .plain "program.txt" ∧ ("program.txt" : Text) ≠ [] ∧
      ("program.txt" : Text) ≠ twoDashes := by
    decide +kernel
  obtain ⟨hasksParse, hasksExecute, -⟩ := asks_of_plain hpath.1 hpath.2.1 hpath.2.2
  constructor
  · intro content printed
    let chars := "PROGRAM a;\nBEGIN writeln(x)\nEND".toList
    have hchars : decodeText? content = some chars := by decide +kernel
    have hp : (MiniPascal.parse (.ofChars chars) .empty #[]).errorCount.toOption = some 2 ∧
        Report.renderAll (MiniPascal.parse (.ofChars chars) .empty #[]).reports.toList = printed := by
      decide +kernel
    obtain ⟨hcount, hprinted⟩ := hp
    obtain ⟨a, hwords, -, -, hrefused, -⟩ :=
      gate_agrees hasksParse (.inl rfl) hchars (eq_ok_of_toOption hcount)
    obtain ⟨hrun, hrefuses⟩ := hrefused (by decide)
    rw [hprinted] at hrun hrefuses
    refine ⟨a, hwords, fun fuel => ?_⟩
    obtain ⟨houtput, hending, -, hwritten⟩ := hrefuses fuel
    refine ⟨houtput.trans ?_, hending, hwritten, congrArg ProgramRun.output (hrun 0 fuel)⟩
    decide +kernel
  · intro content
    let chars := "PROGRAM a;\nBEGIN writeln('x'); a := 1 DIV 0 END.".toList
    have hchars : decodeText? content = some chars := by decide +kernel
    let p := MiniPascal.parse (.ofChars chars) .empty #[]
    have hp : p.errorCount.toOption = some 0 ∧ (p.tree.toOption.map fun t =>
        ((execute 0 20 t p.table).stop, (execute 0 20 t p.table).output)) =
          some (some (.fault (.program 2 .divisionByZero)), Text.ofString "x\n") := by
      decide +kernel
    obtain ⟨hcount, hrun⟩ := hp
    obtain ⟨a, hwords, -, -, -, hexecute⟩ :=
      gate_agrees hasksExecute (.inr (.inl rfl)) hchars (eq_ok_of_toOption hcount)
    obtain ⟨tree, htree, hends⟩ := hexecute rfl rfl
    have htree : p.tree = .ok tree := htree
    rw [htree] at hrun
    obtain ⟨hstop, houtput⟩ := Prod.mk.inj (Option.some.inj hrun)
    have hrun : Ends 0 tree p.table (execute 0 20 tree p.table) := ends_of_stop_ne (by simp [hstop])
    obtain ⟨least, hleast⟩ := hends _ hrun
    obtain ⟨-, hconveys⟩ := hleast least (Nat.le_refl least)
    obtain ⟨hexit, d, hd, hmessage⟩ := hconveys.fault _ hstop
    refine ⟨a, hwords, least, hconveys.output.trans houtput, hexit, d, hd, fun runtime =>
      (hmessage runtime).trans ?_⟩
    dsimp only [Fault.message]
    decide +kernel

end CommandLine

end MiniPascal

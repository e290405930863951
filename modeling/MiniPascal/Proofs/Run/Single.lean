import MiniPascal.Proofs.Grammar.Acceptance
import MiniPascal.Proofs.Run.Choice
import MiniPascal.Proofs.Token.Literal

/-!
# Programs of one statement

The shortest program around a statement begins with four tokens and a blank, and ends with a blank and
two tokens. What the program does is what the statement does: its text is cut as it is cut in front of
the end of the program, its tree is the only statement of the program, and the run of the program is the
visit of that tree, with empty output and the variables that the statement declares.

* `MiniPascal.Text.asProgram`: the text of the program around that of a statement.
* `MiniPascal.lexemes_asProgram`: its lexemes.
* `MiniPascal.runProgram_asProgram`: its run.
* `MiniPascal.runProgram_writeln`: a program that writes a constant.
-/

namespace MiniPascal

open Reading

/-- The program that consists of a statement. -/
def Text.asProgram (x : Text) : Text := "PROGRAM p; BEGIN " ++ (x ++ " END.")

/-- The tokens of such a program but for those of the statement, the last of which are on the given
line. -/
def Outline.single (line : Nat) : Outline where
  program := ⟨.keyword .programKw, 1, "PROGRAM"⟩
  name := ⟨.identifier, 1, "p"⟩
  semicolon := ⟨.symbol .semicolon, 1, ";"⟩
  opening := ⟨.keyword .beginKw, 1, "BEGIN"⟩
  closing := ⟨.keyword .endKw, line, "END"⟩
  ending := [⟨.symbol .period, line, "."⟩]
  program_kind := rfl
  name_kind := rfl
  semicolon_kind := rfl
  opening_kind := rfl
  closing_kind := rfl
  derives_ending := @DerivesEnding.period [] _ (by simp) rfl

section Statement

variable {x : Text} {ts : List Token} {s : Node} {line : Nat}

/-- **The lexemes of a program of one statement.** -/
theorem lexemes_asProgram (hx : ∀ c ∈ (x ++ " END.").head?, Text.isBlank c = false)
    (h : lexemes (x ++ " END.") =
      (ts ++ [⟨.keyword .endKw, line, "END"⟩, ⟨.symbol .period, line, "."⟩] : List Token).map
        .token) :
    lexemes x.asProgram = ((Outline.single line).tokens ts).map .token := by
  let front : List Piece :=
    [⟨.word, "PROGRAM"⟩, ⟨.blank, " "⟩, ⟨.word, "p"⟩, ⟨.symbol .semicolon, ";"⟩, ⟨.blank, " "⟩,
     ⟨.word, "BEGIN"⟩]
  let last : Piece := ⟨.blank, " "⟩
  have hfront : pieces "PROGRAM p; BEGIN " = front ++ [last] := by decide +kernel
  have hlast : pieces (last.text ++ (x ++ " END.")) = last :: pieces (x ++ " END.") :=
    pieces_space_append hx
  have hlexemes : lexemes "PROGRAM p; BEGIN " =
      ([⟨.keyword .programKw, 1, "PROGRAM"⟩, ⟨.identifier, 1, "p"⟩, ⟨.symbol .semicolon, 1, ";"⟩,
        ⟨.keyword .beginKw, 1, "BEGIN"⟩] : List Token).map .token := by decide +kernel
  rw [Text.asProgram, lexemes_append hfront (by decide) hlast (by decide), hlexemes, h,
    ← List.map_append]
  rfl

/-- **A program of one statement is read without errors**, and its tree is that of the statement. -/
theorem parse_asProgram (hlexemes : lexemes x.asProgram = ((Outline.single line).tokens ts).map .token)
    (hd : DerivesStatement .statement line ts [s]) (hclean : ∀ t ∈ ts, t.isError = false)
    (hnearest : s.ElseNearest) (hdeclared : Declared .empty ((Outline.single line).tree [s]).mentions) :
    (parse x.asProgram .empty #[]).tree = .ok ((Outline.single line).tree [s]) ∧
      (parse x.asProgram .empty #[]).table =
        SymbolTable.empty.enterAll ((Outline.single line).tree [s]).mentions ∧
      (parse x.asProgram .empty #[]).reports = #[] := by
  have hfeed : (Feed.ofSource x.asProgram #[]).rest =
      ((Outline.single line).tokens ts).map .token ++ [] := by
    rw [List.append_nil]
    exact hlexemes
  have hclean' : ∀ t ∈ (Outline.single line).tokens ts, t.isError = false := by
    intro t ht
    simp only [Outline.tokens, Outline.single, List.cons_append, List.mem_cons, List.mem_append,
      List.not_mem_nil, or_false] at ht
    rcases ht with rfl | rfl | rfl | rfl | ht | rfl | rfl
    all_goals first
      | exact hclean t ht
      | rfl
  have hends : EndsProgram ((Outline.single line).ending.map .token ++ []) :=
    ⟨(Outline.single line).ending, [], rfl, (Outline.single line).derives_ending,
      by simp [FrontClean], .inl ⟨_, rfl, rfl⟩⟩
  obtain ⟨c, hprogram, htable, hreports⟩ := program_of_readsList hfeed
    (fun t ht => (token_of_mem_lexemes ht).2.1) hclean' (readsList_of_derives (.one hd))
    (by simpa using hnearest) hdeclared hends
  rw [parse, parseFeed_of_ok hprogram]
  exact ⟨rfl, htable, Array.toList_inj.1 hreports⟩

namespace Run

/-- A statement that succeeds does so as the only one. -/
theorem visitAll_of_ok {visit : Node → Run Yield} {y : Yield} {m m' : Machine}
    (h : visit s m = .ok y m') : visitAll visit [s] m = .ok () m' := by
  rw [visitAll, bind_of_ok h]
  rfl

end Run

/-- The visit of the tree of a program of one statement is that of the statement, behind a trace. -/
theorem Outline.visit_single (line : Nat) {level : Int} {fuel : Nat} {table table' : SymbolTable}
    {output : Array CodePoint} {y : Yield}
    (h : ∀ log, ∃ log', Run.visit level fuel s ⟨table, #[], log⟩ = .ok y ⟨table', output, log'⟩) :
    ∃ log, Run.visit level (fuel + 2) ((single line).tree [s]) ⟨table, #[], #[]⟩ =
      .ok .nothing ⟨table', output, log⟩ := by
  obtain ⟨log, hlog⟩ := Run.exists_trace level 1 ("executing program " ++ "p") ⟨table, #[], #[]⟩
  obtain ⟨log', hvisit⟩ := h log
  have hbody : Run.visit level (fuel + 1)
      { kind := .compound, line := (1 : Nat), children := [s] } ⟨table, #[], log⟩ =
        .ok .nothing ⟨table', output, log'⟩ := by
    rw [Run.visit, Run.visitNode]
    exact Run.bind_of_ok (Run.visitAll_of_ok hvisit)
  refine ⟨log', ?_⟩
  rw [Run.visit, Run.visitNode]
  refine Run.bind_of_ok (a := ()) ?_
  exact (Run.bind_of_ok hlog).trans (Run.visitAll_of_ok hbody)

/-- **The run of a program of one statement** is the visit of the statement, which may leave a
trace. -/
theorem runProgram_asProgram {level : Int} {fuel : Nat} {table : SymbolTable}
    {output : Array CodePoint} {y : Yield}
    (htree : (parse x.asProgram .empty #[]).tree = .ok ((Outline.single line).tree [s]))
    (hreports : (parse x.asProgram .empty #[]).reports = #[])
    (h : ∀ log, ∃ log', Run.visit level fuel s ⟨(parse x.asProgram .empty #[]).table, #[], log⟩ =
      .ok y ⟨table, output, log'⟩) :
    ∃ log, runProgram level (fuel + 2) x.asProgram = ⟨.ok 0, none, table, output.toList, log⟩ := by
  obtain ⟨log, hrun⟩ := Outline.visit_single line h
  set p := parse x.asProgram .empty #[] with hp
  have hexecute : execute level (fuel + 2) ((Outline.single line).tree [s]) p.table =
      ⟨none, table, output.toList, log⟩ := by
    rw [execute, hrun]
  have hempty : p.reports.isEmpty = true := by
    rw [hreports]
    rfl
  rw [runProgram, ← hp]
  simp only [htree, hempty, if_true, hexecute]
  exact ⟨_, rfl⟩

end Statement

/-! ### Programs that write a constant -/

/-- The program that writes what the text stands for. -/
theorem writeln_asProgram (y : Text) :
    ("PROGRAM p; BEGIN writeln(" : Text) ++ y ++ ") END." =
      Text.asProgram ("writeln(" ++ (y ++ ")")) := by
  have hfront : ("PROGRAM p; BEGIN writeln(" : Text) = "PROGRAM p; BEGIN " ++ "writeln(" := rfl
  have hend : (") END." : Text) = ")" ++ " END." := rfl
  simp only [Text.asProgram, hfront, hend, List.append_assoc]

/-- The lexemes of what stands behind the constant. -/
theorem lexemes_closing : lexemes ") END." =
    ([⟨.symbol .rightParen, 1, ")"⟩, ⟨.keyword .endKw, 1, "END"⟩, ⟨.symbol .period, 1, "."⟩] :
      List Token).map .token := by
  decide +kernel

section Constants

variable {c n : Node} {v : Value} {w : Text}

/-- **A WRITELN of a constant** writes the value and a line end, and does nothing else. -/
theorem Run.visit_writeln (hk : n.kind = .writeln) (hc : n.children = [c])
    (hv : c.constant? = some v) (hw : v.format .null .null = .ok w) (level : Int) (fuel : Nat)
    (m : Machine) :
    Run.visit level (fuel + 2) n m =
      .ok .nothing { m with output := m.output ++ (w ++ "\n" : Text) } := by
  have hwritten : Run.writtenText (Run.visit level (fuel + 1)) n = pure w := by
    rw [Run.writtenText, if_neg (by simp [hc])]
    dsimp only
    rw [Run.operand, Run.child_eq (c := c) (by simp [hc]), pure_bind, Run.visit_constant hv, pure_bind,
      Run.valueOf_value, pure_bind]
    simp only [Run.childValue, hc, List.getElem?_cons_succ, List.getElem?_nil, Option.map_none,
      Option.getD_none, hw]
    rfl
  rw [Run.visit, Run.visitNode, hk]
  dsimp only
  rw [hwritten, pure_bind]
  rfl

/-- The tokens of a WRITELN of a constant, the last of which is on the given line. -/
def writelnTokens (line : Nat) (ts : List Token) : List Token :=
  ⟨.identifier, 1, "writeln"⟩ :: ⟨.symbol .leftParen, 1, "("⟩ :: ts ++
    [⟨.symbol .rightParen, line, ")"⟩]

/-- The tree of a WRITELN of a constant. -/
def writelnNode (c : Node) : Node := { kind := .writeln, line := (1 : Nat), children := [c] }

section Statement

variable {ts : List Token} {line : Nat}

theorem derives_writeln (hd : DerivesConstant ts c) :
    DerivesStatement .statement line (writelnTokens line ts) [writelnNode c] := by
  have hwrite : (⟨.identifier, 1, "writeln"⟩ : Token).writeKind? = some .writeln := by
    decide +kernel
  have hderives : DerivesStatement .statement line (⟨.identifier, 1, "writeln"⟩ ::
      ⟨.symbol .leftParen, 1, "("⟩ :: ts ++ [] ++ [⟨.symbol .rightParen, line, ")"⟩])
      [writelnNode c] :=
    .write rfl hwrite rfl (.constant hd) .none rfl
  rwa [List.append_nil] at hderives

theorem mentions_writeln (hd : DerivesConstant ts c) : (writelnNode c).mentions = [] := by
  rw [Node.mentions_of_kind (by simp [writelnNode]) (by simp [writelnNode]) (by simp [writelnNode])]
  simp [writelnNode, hd.mentions]

theorem elseNearest_writeln (hd : DerivesConstant ts c) : (writelnNode c).ElseNearest :=
  Node.elseNearest_of_kind (by simp [writelnNode]) (by simpa [writelnNode] using hd.elseNearest)

theorem isError_of_mem_writelnTokens (h : ∀ t ∈ ts, t.isError = false) {t : Token}
    (ht : t ∈ writelnTokens line ts) : t.isError = false := by
  simp only [writelnTokens, List.cons_append, List.mem_cons, List.mem_append, List.not_mem_nil,
    or_false] at ht
  rcases ht with rfl | rfl | ht | rfl
  · rfl
  · rfl
  · exact h t ht
  · rfl

/-- A parenthesis stands for itself, whatever is behind it. -/
theorem pieces_leftParen_append (t : Text) :
    pieces ("(" ++ t) = ⟨.symbol .leftParen, "("⟩ :: pieces t := by
  have hmeasure : Piece.measure (.char '(') t = (.symbol .leftParen, 0) := by
    rw [Piece.measure_other (by decide) (by decide) (by decide) (by decide) (by decide)]
    cases t <;> rfl
  show pieces (.char '(' :: t) = _
  rw [pieces_cons, hmeasure]
  rfl

/-- **The lexemes of a WRITELN of a constant** in front of the end of a program. -/
theorem lexemes_writeln {y : Text} (h : lexemes (y ++ ") END.") =
      (ts ++ [⟨.symbol .rightParen, line, ")"⟩, ⟨.keyword .endKw, line, "END"⟩,
        ⟨.symbol .period, line, "."⟩] : List Token).map .token) :
    lexemes ("writeln(" ++ (y ++ ")") ++ " END.") =
      (writelnTokens line ts ++
        [⟨.keyword .endKw, line, "END"⟩, ⟨.symbol .period, line, "."⟩] : List Token).map .token := by
  have hsplit : ("writeln(" : Text) ++ (y ++ ")") ++ " END." = "writeln(" ++ (y ++ ") END.") := by
    simp only [List.append_assoc]
    rfl
  have hfront : pieces "writeln(" = [⟨.word, "writeln"⟩] ++ [⟨.symbol .leftParen, "("⟩] := by
    decide +kernel
  have hhead : lexemes "writeln(" =
      [.token ⟨.identifier, 1, "writeln"⟩, .token ⟨.symbol .leftParen, 1, "("⟩] := by
    decide +kernel
  rw [hsplit, lexemes_append hfront (by decide) (pieces_leftParen_append _) (by decide), hhead, h]
  simp [writelnTokens]

end Statement

/-- **The program that writes a constant** writes its value and a line end. The constant is given by
the text `y`, its tokens and its tree. -/
theorem runProgram_writeln {y : Text} {ts : List Token} {line : Nat}
    (hlexemes : lexemes (y ++ ") END.") = (ts ++ [⟨.symbol .rightParen, line, ")"⟩,
      ⟨.keyword .endKw, line, "END"⟩, ⟨.symbol .period, line, "."⟩] : List Token).map .token)
    (hd : DerivesConstant ts c) (hclean : ∀ t ∈ ts, t.isError = false) (hv : c.constant? = some v)
    (hw : v.format .null .null = .ok w) (level : Int) (fuel : Nat) :
    ∃ table log, runProgram level (fuel + 4) (Text.asProgram ("writeln(" ++ (y ++ ")"))) =
      ⟨.ok 0, none, table, w ++ "\n", log⟩ := by
  have hblank : ∀ d ∈ (("writeln(" : Text) ++ (y ++ ")") ++ " END.").head?, Text.isBlank d = false := by
    rintro d ⟨⟩
    decide
  have hdeclared : Declared .empty ((Outline.single line).tree [writelnNode c]).mentions := by
    simp [Outline.mentions_tree, mentions_writeln hd, Declared]
  obtain ⟨htree, -, hreports⟩ := parse_asProgram (lexemes_asProgram hblank (lexemes_writeln hlexemes))
    (derives_writeln hd) (fun _ => isError_of_mem_writelnTokens hclean) (elseNearest_writeln hd)
    hdeclared
  have hvisit (table : SymbolTable) (log : Array Log.Entry) :
      ∃ log', Run.visit level (fuel + 2) (writelnNode c) ⟨table, #[], log⟩ =
        .ok .nothing ⟨table, #[] ++ (w ++ "\n" : Text), log'⟩ :=
    ⟨log, Run.visit_writeln rfl rfl hv hw level fuel _⟩
  obtain ⟨log, hrun⟩ := runProgram_asProgram htree hreports (hvisit _)
  have houtput : ((#[] : Array CodePoint) ++ (w ++ "\n" : Text)).toList = w ++ "\n" := by
    simp
  rw [houtput] at hrun
  exact ⟨_, log, hrun⟩

end Constants

end MiniPascal

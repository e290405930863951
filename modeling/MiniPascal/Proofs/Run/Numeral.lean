import MiniPascal.Proofs.Run.Frame
import MiniPascal.Proofs.Run.Single
import MiniPascal.Proofs.Token.Numeral
import MiniPascal.Proofs.Value.Format

/-!
# Integers come back

An integer is written as a numeral, and where a program has the numeral it has the integer: a minus sign is
folded into the constant behind it, whether the constant is the right-hand side of an assignment or what
a WRITE statement writes. So a variable to which the numeral is assigned holds the integer, and a program
that writes the numeral writes it as it is. Only an integer of more than 4300 digits is neither written
nor read.

* `MiniPascal.Numeral.assignment`: the tree of a program that assigns an integer.
* `MiniPascal.Numeral.RoundTrips`, `MiniPascal.numerals_round_trip`: what becomes of an integer in a
  program.
-/

namespace MiniPascal

/-! ### Assigning -/

/-- A variable that is entered and then stored to holds what is stored, under its name. -/
theorem SymbolTable.lookup_store_enter (table : SymbolTable) (name : Text) (y : Yield) :
    ((table.enter name).store (key name) y).lookup name = some y := by
  rw [lookup, get?_store, if_pos rfl, get?_enter, if_pos rfl]
  cases table.get? (key name) <;> rfl

/-! ### Programs -/

namespace Numeral

/-- The text in a program that assigns it. -/
def assigning (t : Text) : Text := "PROGRAM p; BEGIN x := " ++ t ++ " END."

/-- The text in a program that writes it. -/
def writing (t : Text) : Text := "PROGRAM p; BEGIN writeln(" ++ t ++ ") END."

/-- **The tree of the program that assigns a constant integer** with the given text. -/
def assignment (t : Text) (n : Int) : Node :=
  { kind := .program, line := 1, text := .text "p", children := [
    { kind := .compound, line := 1, children := [
      { kind := .assign, line := 1, children := [
        { kind := .var, line := 1, text := .text "x", slot := some "x" },
        { kind := .integerConstant, line := 1, text := .text t, value := .int n }] }] }] }

/-- **What becomes of an integer that is written as the given text.** -/
structure RoundTrips (n : Int) (t : Text) : Prop where
  /-- The integer is written so. -/
  formatted : (Value.integer n).format .null .null = .ok t
  /-- A program that assigns the text is read without errors, and assigns a constant. -/
  parsed : (parse (assigning t) .empty #[]).tree = .ok (assignment t n) ∧
    (parse (assigning t) .empty #[]).reports = #[]
  /-- The variable then holds the integer. -/
  assigned (level : Int) (fuel : Nat) (h : 4 ≤ fuel) : ∃ table log,
    runProgram level fuel (assigning t) = ⟨.ok 0, none, table, [], log⟩ ∧
      table.lookup "x" = some (.value (.integer n))
  /-- A program that writes the text writes it with a line end. -/
  printed (level : Int) (fuel : Nat) (h : 4 ≤ fuel) : ∃ table log,
    runProgram level fuel (writing t) = ⟨.ok 0, none, table, t ++ "\n", log⟩

variable {n : Int}

theorem format_eq (h : isOverlong n = false) :
    (Value.integer n).format .null .null = .ok (Text.ofString (write n)) := by
  have htext : (Value.integer n).toText? = some (Text.ofString (write n)) := by
    rw [Value.toText?, write?, if_neg (by simp [h]), Option.map_some]
  have hplain : (Value.integer n).bodyText .null = (Value.integer n).plainText := rfl
  rw [Value.format_null, hplain, Value.plainText, htext]

theorem description?_isSome (h : isOverlong n = false) :
    (Yield.value (.integer n)).description?.isSome = true := by
  have hdescription : (Yield.value (.integer n)).description? = (Value.integer n).description? := by
    rw [Yield.description?]
  rw [hdescription, Value.description?, write?, if_neg (by simp [h])]
  rfl

section Assignment

variable (n)

/-- The tokens of an assignment of a numeral. -/
def assignmentTokens : List Token :=
  ⟨.identifier, 1, "x"⟩ :: ⟨.symbol .becomes, 1, ":="⟩ :: tokens 1 n

/-- The tree of an assignment of a numeral. -/
def assignmentNode : Node :=
  { kind := .assign, line := (1 : Nat),
    children := [Token.variableNode ⟨.identifier, 1, "x"⟩, Numeral.node 1 n] }

theorem derives_assignment (next : Nat) :
    DerivesStatement .statement next (assignmentTokens n) [assignmentNode n] := by
  have hterm : DerivesExpression (.chain .term) (tokens 1 n) (Numeral.node 1 n) :=
    .operand (.constant (derivesConstant_numeral 1 n))
  have hexpression : DerivesExpression .expression (tokens 1 n) (Numeral.node 1 n) :=
    .simple (.operand hterm)
  exact .assignment (.intro rfl rfl hexpression) (by decide +kernel)

theorem mentions_assignment : (assignmentNode n).mentions = [.declares "x"] := by
  rw [Node.mentions_assign rfl rfl]
  simp [Token.variableNode, (derivesConstant_numeral 1 n).mentions]

theorem elseNearest_assignment : (assignmentNode n).ElseNearest := by
  refine Node.elseNearest_of_kind (by simp [assignmentNode]) fun c hc => ?_
  simp only [assignmentNode, List.mem_cons, List.not_mem_nil, or_false] at hc
  rcases hc with rfl | rfl
  · exact Token.elseNearest_variableNode _
  · exact (derivesConstant_numeral 1 n).elseNearest

theorem isError_of_mem_assignmentTokens {t : Token} (h : t ∈ assignmentTokens n) :
    t.isError = false := by
  rcases List.mem_cons.1 h with rfl | h
  · rfl
  · rcases List.mem_cons.1 h with rfl | h
    · rfl
    · exact isError_of_mem_tokens h

/-- **The lexemes of an assignment of a numeral** in front of the end of a program. -/
theorem lexemes_assignment (h : (Binary64.decimalDigits n.natAbs).length ≤ maxDigits) :
    lexemes (("x := " : Text) ++ Text.ofString (write n) ++ " END.") =
      (assignmentTokens n ++
        [⟨.keyword .endKw, 1, "END"⟩, ⟨.symbol .period, 1, "."⟩] : List Token).map .token := by
  have hfront : pieces "x := " =
      [⟨.word, "x"⟩, ⟨.blank, " "⟩, ⟨.symbol .becomes, ":="⟩] ++ [⟨.blank, " "⟩] := by
    decide +kernel
  have hhead : lexemes "x := " =
      ([⟨.identifier, 1, "x"⟩, ⟨.symbol .becomes, 1, ":="⟩] : List Token).map .token := by
    decide +kernel
  have hend : lexemes " END." =
      ([⟨.keyword .endKw, 1, "END"⟩, ⟨.symbol .period, 1, "."⟩] : List Token).map .token := by
    decide +kernel
  have hdigit : Text.NoDigit " END." := by
    rintro c ⟨⟩
    decide
  rw [List.append_assoc, lexemes_append hfront (by decide)
      (pieces_space_append (isBlank_head?_write n _)) (by decide), hhead,
    lexemes_numeral_append h hdigit (by decide), hend, ← List.map_append, ← List.map_append]
  rfl

end Assignment

theorem assigning_eq (t : Text) : assigning t = Text.asProgram ("x := " ++ t) := by
  have hfront : ("PROGRAM p; BEGIN x := " : Text) = "PROGRAM p; BEGIN " ++ "x := " := rfl
  simp only [assigning, Text.asProgram, hfront, List.append_assoc]

theorem tree_assignmentNode (n : Int) :
    (Outline.single 1).tree [assignmentNode n] = assignment (Text.ofString (write n)) n := by
  have hkey : SymbolTable.key "x" = "x" := rfl
  simp only [assignmentNode, Token.variableNode, hkey]
  rfl

section Programs

variable (h : (Binary64.decimalDigits n.natAbs).length ≤ maxDigits)
include h

/-- **The program that assigns a numeral is read without errors**, and enters two names. -/
theorem parse_assigning :
    (parse (assigning (Text.ofString (write n))) .empty #[]).tree =
        .ok ((Outline.single 1).tree [assignmentNode n]) ∧
      (parse (assigning (Text.ofString (write n))) .empty #[]).table =
        (SymbolTable.empty.enter "p").enter "x" ∧
      (parse (assigning (Text.ofString (write n))) .empty #[]).reports = #[] := by
  have hblank : ∀ c ∈ (("x := " : Text) ++ Text.ofString (write n) ++ " END.").head?,
      Text.isBlank c = false := by
    rintro c ⟨⟩
    decide
  have hmentions : ((Outline.single 1).tree [assignmentNode n]).mentions =
      [.declares "p", .declares "x"] := by
    rw [Outline.mentions_tree, Node.mentionsAll_cons, mentions_assignment]
    rfl
  have hparse := parse_asProgram (lexemes_asProgram hblank (lexemes_assignment n h))
    (derives_assignment n 1) (fun _ => isError_of_mem_assignmentTokens n) (elseNearest_assignment n)
    (by rw [hmentions]; exact trivial)
  rw [hmentions] at hparse
  rw [assigning_eq]
  exact hparse

/-- **The run of this program** leaves the integer in the variable, at every level of detail. -/
theorem runProgram_assigning (level : Int) (fuel : Nat) :
    ∃ log, runProgram level (fuel + 4) (assigning (Text.ofString (write n))) =
      ⟨.ok 0, none, ((SymbolTable.empty.enter "p").enter "x").store "x" (.value (.integer n)), [],
        log⟩ := by
  obtain ⟨htree, htable, hreports⟩ := parse_assigning h
  have hconstant : (Numeral.node 1 n).constant? = some (.integer n) := rfl
  have hslot : (Token.variableNode ⟨.identifier, 1, "x"⟩).slot = some ("x" : Text) := rfl
  have hvalue (m : Machine) :
      Run.visit level (fuel + 1) (Numeral.node 1 n) m = .ok (.value (.integer n)) m := by
    rw [Run.visit_constant hconstant]
    rfl
  have hvisit (log : Array Log.Entry) :
      ∃ log', Run.visit level (fuel + 2) (assignmentNode n)
          ⟨(SymbolTable.empty.enter "p").enter "x", #[], log⟩ =
        .ok .nothing ⟨((SymbolTable.empty.enter "p").enter "x").store "x" (.value (.integer n)), #[],
          log'⟩ := by
    refine (Run.visit_assign_of_ok rfl rfl hslot rfl (hvalue _)).resolve_left fun ⟨hu, _⟩ => ?_
    have hsome := description?_isSome (isOverlong_eq_false_iff.2 h)
    rw [hu.hidden] at hsome
    cases hsome
  rw [assigning_eq] at htree htable hreports ⊢
  exact runProgram_asProgram htree hreports (by rw [htable]; exact hvisit)

/-- **The run of the program that writes a numeral.** -/
theorem runProgram_writing (level : Int) (fuel : Nat) :
    ∃ table log, runProgram level (fuel + 4) (writing (Text.ofString (write n))) =
      ⟨.ok 0, none, table, Text.ofString (write n) ++ "\n", log⟩ := by
  have hdigit : Text.NoDigit ") END." := by
    rintro c ⟨⟩
    decide
  have hlexemes : lexemes (Text.ofString (write n) ++ ") END.") =
      (tokens 1 n ++ [⟨.symbol .rightParen, 1, ")"⟩, ⟨.keyword .endKw, 1, "END"⟩,
        ⟨.symbol .period, 1, "."⟩] : List Token).map .token := by
    rw [lexemes_numeral_append h hdigit (by decide), lexemes_closing, ← List.map_append]
  rw [writing, writeln_asProgram]
  exact runProgram_writeln (v := .integer n) hlexemes (derivesConstant_numeral 1 n)
    (fun _ => isError_of_mem_tokens) rfl (format_eq (isOverlong_eq_false_iff.2 h)) level fuel

end Programs

end Numeral

open Numeral

/-- **Every integer of at most 4300 digits comes back**, from the text that it is written as. -/
theorem numerals_round_trip {n : Int} (h : (Nat.toDigits 10 n.natAbs).length ≤ 4300) :
    Numeral.RoundTrips n (Text.ofString (write n)) where
  formatted := format_eq (isOverlong_eq_false_iff.2 h)
  parsed := by
    obtain ⟨htree, -, hreports⟩ := parse_assigning h
    rw [tree_assignmentNode] at htree
    exact ⟨htree, hreports⟩
  assigned level fuel hfuel := by
    obtain ⟨k, rfl⟩ := Nat.exists_eq_add_of_le' hfuel
    obtain ⟨log, hrun⟩ := runProgram_assigning h level k
    have hkey : SymbolTable.key "x" = "x" := by decide +kernel
    have hlookup := SymbolTable.lookup_store_enter (SymbolTable.empty.enter "p") "x"
      (.value (.integer n))
    rw [hkey] at hlookup
    exact ⟨_, log, hrun, hlookup⟩
  printed level fuel hfuel := by
    obtain ⟨k, rfl⟩ := Nat.exists_eq_add_of_le' hfuel
    exact runProgram_writing h level k

/-- A negative integer. -/
theorem numerals_round_trip_negative :
    (Nat.toDigits 10 (-42 : Int).natAbs).length ≤ 4300 ∧ Numeral.RoundTrips (-42) "-42" := by
  have hlength : (Nat.toDigits 10 (-42 : Int).natAbs).length ≤ 4300 := by decide
  exact ⟨hlength, numerals_round_trip hlength⟩

end MiniPascal

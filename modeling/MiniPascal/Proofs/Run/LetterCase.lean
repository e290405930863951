import MiniPascal.Proofs.Grammar.Totality
import MiniPascal.Proofs.Run.Lockstep
import MiniPascal.Proofs.Token.LetterCase

/-!
# Programs in other letters

Words may be written in capitals or in small letters, here one way and there another. A reserved word is
found by its capital form, a variable and the name of a procedure by its lower case, and neither depends
on the case of the letters. Everywhere else a spelling is only kept, to be shown: in reports, in the tree,
and in what stops a run.

* `MiniPascal.case_independent`: the respelled text, from its tokens to its runs.
-/

namespace MiniPascal

/-- **The case of letters does not matter** in words. A text and another one in which words are respelled
have lexemes of the same kinds and values, one by one and on the same lines. They are read with the same
number of errors, the same symbol table, and reports that differ in the case of letters only. At any
level of detail of the trace both programs diverge, or both end for the same reason and on the same line,
with the same output and the same values of all variables. -/
theorem case_independent {source source' : Text} (h : Respelled (pieces source) source')
    (table : SymbolTable) :
    let r := parse source table #[]
    let r' := parse source' table #[]
    List.Forall₂ (Lexeme.Alike .caseless) (lexemes source) (lexemes source') ∧
    r.errorCount = r'.errorCount ∧ r.Alike .caseless r' ∧
    ∀ tree tree', r.tree = .ok tree → r'.tree = .ok tree' →
      ∀ level, Diverges level tree r.table ∧ Diverges level tree' r'.table ∨
        ∃ e e', Ends level tree r.table e ∧ Ends level tree' r'.table e' ∧ e.Alike .caseless e' := by
  intro r r'
  have hlexemes := lexemes_respelled h
  have halike : r.Alike .caseless r' := parse_alike table hlexemes
  exact ⟨hlexemes, halike.errorCount_eq, halike, fun _ _ htree htree' => halike.runs htree htree'⟩

/-- A program in small letters and in mixed ones. The text of a string stays. -/
theorem case_independent_division :
    let source : Text := "program a; begin writeln('x'); x := 1 div 0 end."
    let source' : Text := "Program A; BEGIN WriteLn('x'); X := 1 Div 0 END."
    let r := parse source .empty #[]
    let r' := parse source' .empty #[]
    Respelled (pieces source) source' ∧ r'.errorCount = .ok 0 ∧
      ∃ tree tree' e e', r.tree = .ok tree ∧ r'.tree = .ok tree' ∧
        Ends 0 tree r.table e ∧ Ends 0 tree' r'.table e' ∧
        e.stop = some (.fault (.program 1 .divisionByZero)) ∧ e.output = "x\n" ∧
        e.Alike .caseless e' := by
  intro source source' r r'
  have hread : r.errorCount.toOption = some 0 ∧ r.tree.toOption.isSome = true ∧
      r'.tree.toOption.isSome = true ∧
      (r.tree.toOption.map fun t => (execute 0 20 t r.table).stop) =
        some (some (.fault (.program 1 .divisionByZero))) ∧
      (r.tree.toOption.map fun t => (execute 0 20 t r.table).output) = some ("x\n" : Text) := by
    decide +kernel
  obtain ⟨hcount, hsome, hsome', hstop, houtput⟩ := hread
  obtain ⟨tree, htree⟩ := Option.isSome_iff_exists.1 hsome
  obtain ⟨tree', htree'⟩ := Option.isSome_iff_exists.1 hsome'
  have hrespelled : Respelled (pieces source) source' := by decide +kernel
  obtain ⟨-, hcount', -, hruns⟩ := case_independent hrespelled .empty
  rw [htree, Option.map_some, Option.some.injEq] at hstop houtput
  have hends : Ends 0 tree r.table (execute 0 20 tree r.table) :=
    ends_of_stop_ne (by rw [hstop]; simp)
  refine ⟨hrespelled, hcount'.symm.trans (eq_ok_of_toOption hcount), tree, tree', ?_⟩
  rcases hruns tree tree' (eq_ok_of_toOption htree) (eq_ok_of_toOption htree') 0 with
    ⟨hdiverges, -⟩ | ⟨e, e', he, he', halike⟩
  · cases hstop.symm.trans (hdiverges 20)
  · obtain rfl := he.unique hends
    exact ⟨_, e', eq_ok_of_toOption htree, eq_ok_of_toOption htree', he, he', hstop, houtput, halike⟩

end MiniPascal

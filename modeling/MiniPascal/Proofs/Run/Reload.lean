import MiniPascal.Proofs.Grammar.Declaration
import MiniPascal.Proofs.Node.Reload
import MiniPascal.Proofs.Run.Fuel

/-!
# Saving what was read, and running it later

A tree that comes from a program text can be saved and loaded again on a new symbol table, whatever
errors there were. Reading and loading bind variables by different rules: reading enters the names
that are assigned to, and loading all that it meets. They agree as long as no variable is used that
is not declared, because a name that is declared in front of its uses is met there first. Then the
loaded tree and the names in the table are the same as before, and so is the run.

* `MiniPascal.ofDatum_toDatum_of_tree`: loading gives back the tree and the table.
* `MiniPascal.reload_same_iff`: exactly if no variable was undeclared.
* `MiniPascal.reload_runs`: the run of the loaded tree.
-/

namespace MiniPascal

open Node

variable {source : Text} {table : SymbolTable} {tree : Node}

/-- No variable was undeclared exactly if every variable of the tree is bound. -/
theorem forall_kind_ne_iff (h : (parse source table #[]).tree = .ok tree) :
    (∀ r ∈ (parse source table #[]).reports.toList, r.kind ≠ .semantic) ↔
      ∀ v ∈ tree.preorder, v.kind = .var → v.slot ≠ none := by
  obtain ⟨hbuilt, c, -, hreports, hmeets⟩ := exists_meets_of_tree h
  obtain ⟨added, hadded, hmap⟩ := hmeets.reports
  rw [hreports, hadded, ← unbound?_eq_nil_iff fun v hv hk => hbuilt.built_of_variable hv hk,
    ← occurrences, ← hmap, List.map_eq_nil_iff, List.filter_eq_nil_iff]
  simp [Cursor.start, Feed.ofSource]

/-- **Loading gives back the tree and the symbol table** if no variable was undeclared. -/
theorem ofDatum_toDatum_of_tree (h : (parse source table #[]).tree = .ok tree)
    (hdeclared : ∀ r ∈ (parse source table #[]).reports.toList, r.kind ≠ .semantic) :
    ofDatum tree.toDatum table = .ok tree (parse source table #[]).table := by
  obtain ⟨hbuilt, c, htable, -, hmeets⟩ := exists_meets_of_tree h
  have hbound := (forall_kind_ne_iff h).1 hdeclared
  have hnone : tree.occurrences.filterMap Occurrence.unbound? = [] :=
    (unbound?_eq_nil_iff fun v hv hk => hbuilt.built_of_variable hv hk).2 hbound
  -- what is used is declared in front of it, so that only what is declared is entered
  have henter : table.enterNames (tree.occurrences.map Occurrence.name) =
      table.enterNames (tree.occurrences.filterMap Occurrence.declared?) :=
    hmeets.resolved.enterNames_eq hnone
  rw [hbuilt.loads table, hbuilt.rebound_eq_self hbound, henter]
  exact congrArg (EStateM.Result.ok tree) (htable.trans hmeets.table).symm

/-- **Loading a saved tree gives an equal one exactly if no variable was undeclared** in its text,
which may have errors of any other kind; then the names are in the same order, too. -/
theorem reload_same_iff (h : (parse source .empty #[]).tree = .ok tree) :
    let p := parse source .empty #[]
    ∃ tree' table', ofDatum tree.toDatum .empty = .ok tree' table' ∧
      (tree'.same tree = true ↔ ∀ r ∈ p.reports.toList, r.kind ≠ .semantic) ∧
      ((∀ r ∈ p.reports.toList, r.kind ≠ .semantic) → table'.names = p.table.names) := by
  intro p
  obtain ⟨hbuilt, -⟩ := exists_meets_of_tree h
  refine ⟨_, _, hbuilt.loads .empty, ?_, fun hdeclared => ?_⟩
  · rw [hbuilt.same_rebound_iff, forall_kind_ne_iff h]
  · have hload := ofDatum_toDatum_of_tree h hdeclared
    rw [hbuilt.loads .empty] at hload
    exact congrArg SymbolTable.names (EStateM.Result.ok.inj hload).2

/-- A text with a mistake of grammar and an undeclared variable: the variable is bound when the tree
is loaded, and that makes it differ. -/
theorem reload_same_iff_undeclared :
    let p := parse "PROGRAM a; BEGIN b := C 1 END." .empty #[]
    ∃ tree tree' table', p.tree = .ok tree ∧ ofDatum tree.toDatum .empty = .ok tree' table' ∧
      tree'.same tree = false := by
  intro p
  have hp : p.tree.toOption.isSome = true ∧ ¬∀ r ∈ p.reports.toList, r.kind ≠ .semantic := by
    decide +kernel
  obtain ⟨tree, htree⟩ := Option.isSome_iff_exists.1 hp.1
  have htree := eq_ok_of_toOption htree
  obtain ⟨tree', table', hload, hsame, -⟩ := reload_same_iff htree
  refine ⟨tree, tree', table', htree, hload, ?_⟩
  rw [← Bool.not_eq_true, hsame]
  exact hp.2

/-- **A saved tree runs like the original**, if its text has no errors. With any level of detail of
the trace both runs diverge, or they end in the same way, with the same output and the same symbol
table. -/
theorem reload_runs (h : (parse source .empty #[]).errorCount = .ok 0) :
    let p := parse source .empty #[]
    ∃ tree tree' table', p.tree = .ok tree ∧ ofDatum tree.toDatum .empty = .ok tree' table' ∧
      ∀ level, Diverges level tree p.table ∧ Diverges level tree' table' ∨
        ∃ e, Ends level tree p.table e ∧ Ends level tree' table' e := by
  intro p
  obtain ⟨tree, htree, hsize⟩ := Parse.errorCount_eq_ok_iff.1 h
  have hdeclared : ∀ r ∈ p.reports.toList, r.kind ≠ .semantic := by
    rw [Array.size_eq_zero_iff.1 hsize]
    nofun
  refine ⟨tree, tree, p.table, htree, ofDatum_toDatum_of_tree htree hdeclared, fun level => ?_⟩
  rcases diverges_or_ends level tree p.table with hdiverges | ⟨e, hends⟩
  · exact .inl ⟨hdiverges, hdiverges⟩
  · exact .inr ⟨e, hends, hends⟩

/-- A variable that is written in two ways is one variable again in the loaded tree. -/
theorem reload_runs_division :
    let p := parse "PROGRAM a;\nBEGIN X := 3; x := X DIV 0 END." .empty #[]
    p.errorCount = .ok 0 ∧ ∃ tree tree' table',
      p.tree = .ok tree ∧ ofDatum tree.toDatum .empty = .ok tree' table' ∧
        ∃ e, Ends 0 tree p.table e ∧ Ends 0 tree' table' e ∧
          e.stop = some (.fault (.program 2 .divisionByZero)) := by
  intro p
  have hp : p.errorCount.toOption = some 0 ∧
      (p.tree.toOption.map fun t => (execute 0 20 t p.table).stop) =
        some (some (.fault (.program 2 .divisionByZero))) := by decide +kernel
  have hcount : p.errorCount = .ok 0 := eq_ok_of_toOption hp.1
  obtain ⟨tree, tree', table', htree, hload, hrun⟩ := reload_runs hcount
  have hstop : (execute 0 20 tree p.table).stop = some (.fault (.program 2 .divisionByZero)) := by
    have h := hp.2
    rw [htree] at h
    exact Option.some.inj h
  have hends : Ends 0 tree p.table (execute 0 20 tree p.table) :=
    ends_of_stop_ne (by rw [hstop]; simp)
  refine ⟨hcount, tree, tree', table', htree, hload, ?_⟩
  rcases hrun 0 with ⟨hdiverges, -⟩ | ⟨e, he, he'⟩
  · cases hstop.symm.trans (hdiverges 20)
  · exact ⟨e, he, he', by rw [he.unique hends, hstop]⟩

end MiniPascal

import MiniPascal.Proofs.Grammar.Builders
import MiniPascal.Proofs.Grammar.Totality

/-!
# Declarations and errors of meaning

Reading a program text, with errors or without, gives a tree from which everything can be told that
was done to the symbol table on the way, and every report of an undeclared variable. The nodes of
the tree in pre-order stand in the order in which they were met in the text.

* `MiniPascal.exists_meets_of_tree`: what is met on the way are the occurrences in the tree.
* `MiniPascal.declarations_of_tree`: what that says of the reports, of every variable, and of the
  symbol table.
-/

namespace MiniPascal

open Node SymbolTable

theorem numeric_start (source : Text) (table : SymbolTable) (reports : Array Report) :
    (Cursor.start (.ofSource source reports) table).Numeric :=
  ⟨by simp [Cursor.start], fun _ ht => (token_of_mem_lexemes ht).2.2⟩

variable {source : Text} {table : SymbolTable} {reports : Array Report} {tree : Node}

/-- **What is met while a text is read are the occurrences in its tree.** -/
theorem exists_meets_of_tree (h : (parse source table reports).tree = .ok tree) :
    BuiltProgram tree ∧ ∃ c, (parse source table reports).table = c.table ∧
      (parse source table reports).reports = c.reports ∧
      (Cursor.start (.ofSource source reports) table).Meets tree.occurrences c := by
  obtain ⟨c, hprogram, htable, hreports⟩ := exists_cursor_of_tree h
  obtain ⟨hbuilt, hmeets⟩ := Reading.meets_program hprogram (numeric_start source table reports)
  exact ⟨hbuilt, c, htable, hreports, hmeets⟩

/-- A variable is bound as the declarations in front of it say. -/
theorem Resolved.slot_of_preorder {before after : List Node} {v : Node}
    (h : Resolved table tree.occurrences) (hsplit : tree.preorder = before ++ v :: after)
    (hbuilt : Built v) (hv : v.kind = .var) :
    ∃ name, v.text = .text name ∧
      v.slot = if key name ∈ table.names ∨ key name ∈ (before.filterMap declaredName?).map key
        then some (key name) else none := by
  obtain ⟨name, htext, hoccurrence, -⟩ := hbuilt.occurrence?_eq hv
  refine ⟨name, htext, ?_⟩
  rw [occurrences, hsplit, List.filterMap_append, List.filterMap_cons, hoccurrence] at h
  simpa only [filterMap_declared?] using h.slot_eq

/-- **Declarations and errors of meaning**, for a text with or without errors and any names that are
declared from the start. The reports of undeclared variables are, in order and one for one, the
variables of the tree that are not bound, in pre-order. A variable is not bound if its name is not
there from the start, nor declared in front of it by the program or as the target of an assignment;
otherwise it is bound to the entry of its name. The names behind the text are those from the start
and then the new ones that the tree declares, each where it is declared first. -/
theorem declarations_of_tree (h : (parse source table reports).tree = .ok tree) :
    let p := parse source table reports
    (tree.kind = .program ∧ ∀ n ∈ tree.preorder.tail, n.kind ≠ .program) ∧
    (∃ added, p.reports.toList = reports.toList ++ added ∧
      ((added.filter (·.kind = .semantic)).map fun r => (r.line, Datum.text r.text)) =
        (tree.preorder.filter fun v => v.kind = .var ∧ v.slot = none).map
          fun v => (v.line, v.text)) ∧
    (∀ before v after, tree.preorder = before ++ v :: after → v.kind = .var →
      ∃ name, v.text = .text name ∧
        (v.slot = none ↔
          key name ∉ table.names ∧ key name ∉ (before.filterMap declaredName?).map key) ∧
        (v.slot ≠ none → v.slot = some (key name) ∧ key name ∈ p.table.names)) ∧
    p.table.names = table.names ++
      (((tree.preorder.filterMap declaredName?).map key).filter (· ∉ table.names)).eraseDups := by
  intro p
  obtain ⟨hbuilt, c, htable, hreports, hmeets⟩ := exists_meets_of_tree h
  have htable : p.table = table.enterNames (tree.preorder.filterMap declaredName?) := by
    rw [← filterMap_declared?]
    exact htable.trans hmeets.table
  refine ⟨⟨hbuilt.kind_eq, fun n hn => (hbuilt.built_of_mem_tail hn).kind_ne⟩, ?_,
    fun before v after hsplit hv => ?_, ?_⟩
  · obtain ⟨added, hadded, hmap⟩ := hmeets.reports
    refine ⟨added, (congrArg Array.toList hreports).trans hadded, ?_⟩
    rw [← map_unbound? fun _ hv hk => hbuilt.built_of_variable hv hk, ← occurrences, ← hmap,
      List.map_map]
    rfl
  · have hv' : Built v := hbuilt.built_of_variable (by simp [hsplit]) hv
    obtain ⟨name, htext, hslot⟩ := hmeets.resolved.slot_of_preorder hsplit hv' hv
    by_cases hthere : key name ∈ table.names ∨
      key name ∈ (before.filterMap declaredName?).map key
    · have hbound : v.slot = some (key name) := hslot.trans (if_pos hthere)
      -- what is declared in front of the variable is declared in the tree
      have hin : key name ∈ p.table.names := by
        rw [htable, ← contains_iff, contains_enterNames, hsplit, List.filterMap_append,
          List.map_append, List.mem_append]
        exact hthere.imp_right .inl
      exact ⟨name, htext, iff_of_false (by simp [hbound]) fun hnot => not_or.2 hnot hthere,
        fun _ => ⟨hbound, hin⟩⟩
    · have hnone : v.slot = none := hslot.trans (if_neg hthere)
      exact ⟨name, htext, iff_of_true hnone (not_or.1 hthere), fun hbound => absurd hnone hbound⟩
  · rw [htable, names_enterNames]

/-- A text with errors of every kind, in which two variables are not declared. -/
theorem declarations_of_tree_mixed :
    let p := parse "PROGRAM a;\nBEGIN b := C + Z # ;\n B := c / END" ⟨[("z", .nothing)]⟩ #[]
    ∃ tree, p.tree = .ok tree ∧ p.table.names = (["z", "a", "b"] : List Text) ∧
      ((tree.preorder.filter fun v => v.kind = .var ∧ v.slot = none).map
        fun v => (v.line, v.text)) = [(2, .text "C"), (3, .text "c")] := by
  intro p
  have hp : p.tree.toOption.isSome = true ∧ p.table.names = (["z", "a", "b"] : List Text) ∧
      ((p.reports.toList.filter (·.kind = .semantic)).map fun r => (r.line, r.text)) =
        ([(2, "C"), (3, "c")] : List (Int × Text)) := by decide +kernel
  obtain ⟨tree, htree⟩ := Option.isSome_iff_exists.1 hp.1
  have htree := eq_ok_of_toOption htree
  obtain ⟨-, ⟨added, hadded, hmap⟩, -, -⟩ := declarations_of_tree htree
  refine ⟨tree, htree, hp.2.1, ?_⟩
  have hdata := congrArg (List.map fun x => (x.1, Datum.text x.2)) hp.2.2
  rw [List.map_map] at hdata
  rw [← hmap, ← List.nil_append added, ← hadded]
  exact hdata

end MiniPascal

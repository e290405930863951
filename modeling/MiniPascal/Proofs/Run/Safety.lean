import MiniPascal.Proofs.Grammar.Source
import MiniPascal.Proofs.Run.Fuel
import MiniPascal.Proofs.Run.Rules

/-!
# Programs without errors run safely

If nothing is reported while a program text is read, nothing goes wrong in its run but what the
program asks for: a cause that is reported with its line, a number that is too large for a real, or a
value that cannot be written. There is no node that lacks a child, no variable without an entry in
the symbol table, and no operation on something that is not a value. A run that goes on for ever uses
up every amount of fuel.

The run may start with any values in the variables, such as those that an earlier run has left.

* `MiniPascal.execute_excused`: a run with some amount of fuel.
* `MiniPascal.diverges_or_ends_excused`: the run of a text without errors.
-/

namespace MiniPascal

/-! ### The symbol table behind a text -/

theorem SymbolTable.plain_empty : empty.Plain := by
  intro key items h
  cases h

theorem SymbolTable.Plain.enter {table : SymbolTable} (h : table.Plain) (name : Text) :
    (table.enter name).Plain := by
  intro key items hget
  rw [get?_enter] at hget
  cases hkey : table.get? key with
  | some y =>
    rw [hkey, Option.some_or] at hget
    exact h key items (hkey.trans hget)
  | none =>
    rw [hkey, Option.none_or] at hget
    split at hget <;> cases hget

theorem SymbolTable.Plain.enterAll {table : SymbolTable} (h : table.Plain) (ms : List Mention) :
    (table.enterAll ms).Plain := by
  induction ms generalizing table with
  | nil => exact h
  | cons m ms ih =>
    cases m with
    | declares name => exact ih (h.enter name)
    | uses name => exact ih h

/-! ### Runs -/

/-- A run of an anchored tree keeps the names of the variables, puts no list into any of them, and
stops for a reason that is excused. -/
theorem execute_excused {names : List Text} {tree : Node} (hshaped : Shaped .program tree)
    (hanchored : tree.Anchored names) {table : SymbolTable} (hnames : table.names = names)
    (hplain : table.Plain) (fuel : Nat) :
    let e := execute 0 fuel tree table
    e.table.names = names ∧ e.table.Plain ∧ ∀ f, e.stop = some (.fault f) → Excused tree f := by
  have hsettled : (⟨table, #[], #[]⟩ : Machine).Settled names [] := ⟨hnames, hplain, by simp⟩
  have hsafe := (Run.visits_visit hanchored fuel).node hshaped .root [] _ hsettled
  unfold execute
  cases hrun : Run.visit 0 fuel tree ⟨table, #[], #[]⟩ with
  | ok y m =>
    rw [hrun] at hsafe
    exact ⟨hsafe.1.names, hsafe.1.plain, by simp⟩
  | error stop m =>
    rw [hrun] at hsafe
    refine ⟨hsafe.1.names, hsafe.1.plain, fun f hf => hsafe.2 f ?_⟩
    simpa using hf

/-- **The run of a text without errors** diverges, or it ends by itself or with a fault that is
excused. This holds for all values that its variables may have at the start, and at the end there is
again a value or nothing in each of them. -/
theorem diverges_or_ends_excused {source : Text}
    (h : (parse source .empty #[]).errorCount = .ok 0) :
    ∃ tree, (parse source .empty #[]).tree = .ok tree ∧
      (parse source .empty #[]).table.Plain ∧
      ∀ table : SymbolTable, table.names = (parse source .empty #[]).table.names → table.Plain →
        Diverges 0 tree table ∨
          ∃ e, Ends 0 tree table e ∧ e.table.names = table.names ∧ e.table.Plain ∧
            (e.stop = none ∨ ∃ f, e.stop = some (.fault f) ∧ Excused tree f) := by
  obtain ⟨tree, htree, hshaped, hanchored, htable⟩ := exists_tree_of_errorCount h
  refine ⟨tree, htree, htable ▸ SymbolTable.plain_empty.enterAll _, fun table hnames hplain => ?_⟩
  rcases diverges_or_ends 0 tree table with hdiverges | ⟨e, hends⟩
  · exact .inl hdiverges
  · obtain ⟨hstop, least, hleast⟩ := id hends
    -- the run is what it is with the least amount of fuel that is enough
    obtain rfl := hleast least (Nat.le_refl least)
    obtain ⟨hnames', hplain', hexcused⟩ := execute_excused hshaped hanchored hnames hplain least
    refine .inr ⟨_, hends, hnames'.trans hnames.symm, hplain', ?_⟩
    cases hs : (execute 0 least tree table).stop with
    | none => exact .inl rfl
    | some stop =>
      cases stop with
      | exhausted => exact absurd hs hstop
      | fault f => exact .inr ⟨f, rfl, hexcused f hs⟩

/-- A loop that divides by zero in its first round is read without any error, and its run ends by
itself or with a fault that is excused, or diverges. -/
theorem diverges_or_ends_excused_division :
    let p := parse "PROGRAM a;\nBEGIN x := 1; WHILE x > 0 DO x := x DIV 0 END." .empty #[]
    p.errorCount = .ok 0 ∧ ∃ tree, p.tree = .ok tree ∧
      (Diverges 0 tree p.table ∨ ∃ e, Ends 0 tree p.table e ∧
        (e.stop = none ∨ ∃ f, e.stop = some (.fault f) ∧ Excused tree f)) := by
  intro p
  have hread : p.errorCount.toOption = some 0 := by decide +kernel
  have hcount : p.errorCount = .ok 0 := eq_ok_of_toOption hread
  obtain ⟨tree, htree, hplain, hrun⟩ := diverges_or_ends_excused hcount
  refine ⟨hcount, tree, htree, (hrun p.table rfl hplain).imp id ?_⟩
  rintro ⟨e, hends, -, -, hstop⟩
  exact ⟨e, hends, hstop⟩

end MiniPascal

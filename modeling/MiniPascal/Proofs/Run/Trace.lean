import MiniPascal.Proofs.Grammar.Declaration
import MiniPascal.Proofs.Grammar.Source
import MiniPascal.Proofs.Run.Lockstep

/-!
# Running with a trace

A trace is there for whoever wants to follow a run, and should not change it. A run is compared here
with the run of the same tree without any trace: the two are in step, since a tree of a text is alike
to itself.

They part in one case. From level two on, the trace shows every value that is assigned, and from level
three on the selector of a CASE statement without a matching branch. An integer of more than 4300
digits cannot be shown, and asking for it stops the run. A program without a trace computes with such
integers as with any others, so that a program that ends well may fail when it is traced.

* `MiniPascal.traced_runs`: all that a trace changes.
-/

namespace MiniPascal

open Node

/-! ### A run with a trace and one without -/

/-- Two runs of one tree, the second one without a trace. -/
def Sides.untraced (level : Int) {names : List Text} {tree : Node} (h : tree.Anchored names) : Sides where
  likeness := .exact
  first := level
  second := 0
  second_eq_or_le := .inr (Int.le_refl 0)
  tree := tree
  names := names
  slots _ := h.slot
  alone := Run.CutShort level tree
  alone_of_cutShort _ _ := id

/-- **All that a trace changes.** The tree of a text without errors is run on any values of its
variables. At any level of detail the run does what it does without a trace, and the trace only adds
to the log; or it is stopped by an integer that is too long to be shown. That happens from level two
on, when the integer is in a variable, and from level three on also when it is the selector of a CASE
statement in which no branch was found. -/
theorem traced_runs {source : Text} {declared : SymbolTable}
    (h : (parse source declared #[]).errorCount = .ok 0) :
    ∃ tree, (parse source declared #[]).tree = .ok tree ∧
      ∀ table : SymbolTable, table.names = (parse source declared #[]).table.names → ∀ level : Int,
        Diverges level tree table ∧ Diverges 0 tree table ∨
        (∃ e e', Ends level tree table e ∧ Ends 0 tree table e' ∧ e.stop = e'.stop ∧
          e.table = e'.table ∧ e.output = e'.output ∧ e'.log = #[]) ∨
        2 ≤ level ∧ ∃ e, Ends level tree table e ∧ e.stop = some (.fault (.number .overlong)) ∧
          Run.CutShort level tree e.table := by
  obtain ⟨tree, htree, -, hanchored, -⟩ := exists_tree_of_errorCount h
  obtain ⟨hbuilt, -⟩ := exists_meets_of_tree htree
  refine ⟨tree, htree, fun table hnames level => ?_⟩
  rw [← hnames] at hanchored
  have hpair : (Sides.untraced level hanchored).Pair tree tree := ⟨hbuilt.alike_self, fun _ => .root⟩
  have hnames' : table.names = (Sides.untraced level hanchored).names := rfl
  rcases hpair.runs hnames' with
    hdiverge | ⟨e, e', he, he', halike, hsilent⟩ | ⟨e, he, hstop, hcut⟩
  · exact .inl hdiverge
  · exact .inr (.inl ⟨e, e', he, he', halike.stop_eq, halike.table, halike.output,
      hsilent (Int.le_refl 0)⟩)
  · exact .inr (.inr ⟨hcut.two_le, e, he, hstop, hcut⟩)

/-- A program that squares ten, and goes on to square the outcome until it has 8193 digits. -/
def squaring : Text :=
  "PROGRAM p; BEGIN x := 10; FOR i := 1 TO 13 DO x := x * x; writeln('done') END."

/-- At level one assignments leave no message, and the integers do no harm. -/
theorem traced_runs_squaring :
    let p := parse squaring .empty #[]
    p.errorCount = .ok 0 ∧ ∃ tree e e', p.tree = .ok tree ∧ Ends 1 tree p.table e ∧
      Ends 0 tree p.table e' ∧ e.stop = e'.stop ∧ e.output = e'.output := by
  intro p
  have hp : p.errorCount.toOption = some 0 ∧
      (p.tree.toOption.map fun t => (execute 0 20 t p.table).stop) = some none := by
    decide +kernel
  have hcount : p.errorCount = .ok 0 := eq_ok_of_toOption hp.1
  obtain ⟨tree, htree, hruns⟩ := traced_runs hcount
  rcases hruns p.table rfl 1 with ⟨-, hdiverges⟩ | ⟨e, e', he, he', hstop, -, houtput, -⟩ | ⟨hle, -⟩
  · have hends := hp.2
    rw [htree] at hends
    cases (hdiverges 20).symm.trans (Option.some.inj hends)
  · exact ⟨hcount, tree, e, e', htree, he, he', hstop, houtput⟩
  · exact absurd hle (by decide)

/-- At level two the run stops at the first of them that is too long, and nothing is written. -/
theorem traced_run_overlong :
    let p := parse squaring .empty #[]
    p.errorCount = .ok 0 ∧ ∃ tree e e', p.tree = .ok tree ∧ Ends 2 tree p.table e ∧
      Ends 0 tree p.table e' ∧ e.stop = some (.fault (.number .overlong)) ∧ e.output = [] ∧
      e'.stop = none ∧ e'.output = "done\n" := by
  intro p
  have hp : p.errorCount.toOption = some 0 ∧ p.tree.toOption.isSome = true ∧
      (p.tree.toOption.all fun t =>
        let e := execute 2 20 t p.table
        let e' := execute 0 20 t p.table
        e.stop = some (.fault (.number .overlong)) ∧ e.output = [] ∧ e'.stop = none ∧
          e'.output = "done\n") = true := by
    decide +kernel
  obtain ⟨hcount, hsome, hall⟩ := hp
  obtain ⟨tree, htree⟩ := Option.isSome_iff_exists.1 hsome
  rw [htree, Option.all_some, decide_eq_true_iff] at hall
  obtain ⟨hstop, houtput, hstop', houtput'⟩ := hall
  exact ⟨eq_ok_of_toOption hcount, tree, _, _, eq_ok_of_toOption htree,
    ends_of_stop_ne (by rw [hstop]; simp), ends_of_stop_ne (by rw [hstop']; simp), hstop, houtput,
    hstop', houtput'⟩

end MiniPascal

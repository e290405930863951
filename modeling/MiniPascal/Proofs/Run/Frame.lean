import Mathlib.Algebra.Group.Int.Defs
import MiniPascal.Proofs.Grammar.Source
import MiniPascal.Proofs.Run.Discipline

/-!
# What a run leaves alone

The **frame** of a run is what it does not change: the names in the symbol table, the variables to which
no assignment of the tree assigns, and the output that is there. A FOR loop writes to its control
variable by itself, but that is the target of the assignment in its header. A variable that holds
something goes on doing so, and an expression leaves the whole machine as it is.

All of this holds of a visit with any amount of fuel, and so of the machine at every moment of a run.

* `MiniPascal.Machine.Framed`: one machine comes from another one within the frame of a tree.
* `MiniPascal.Run.after_visit_expression`: an expression changes nothing.
* `MiniPascal.Run.eq_of_visit_assign_error`, `MiniPascal.Run.eq_of_visit_write_error`: neither does an
  assignment or a WRITE statement that fails.
* `MiniPascal.runs_framed`: the frame of the run of a text without errors.
-/

namespace MiniPascal

open Node

/-- The variable of the key is there, and it holds something. -/
def SymbolTable.Holds (table : SymbolTable) (key : Text) : Prop :=
  ∃ y, table.get? key = some y ∧ y.isNothing = false

theorem SymbolTable.holds_store {table : SymbolTable} {key : Text} {y : Yield}
    (hkey : key ∈ table.names) (hy : y.isNothing = false) : (table.store key y).Holds key := by
  obtain ⟨y', hy'⟩ := mem_names_iff.1 hkey
  exact ⟨y, by rw [get?_store, if_pos rfl, hy', Option.map_some], hy⟩

theorem SymbolTable.Holds.store {table : SymbolTable} {key other : Text} {y : Yield}
    (h : table.Holds other) (hy : y.isNothing = false) : (table.store key y).Holds other := by
  obtain ⟨y', hy', hy'n⟩ := h
  by_cases hk : key = other
  · subst hk
    exact holds_store (mem_names_iff.2 ⟨y', hy'⟩) hy
  · exact ⟨y', by rw [get?_store, if_neg hk, hy'], hy'n⟩

/-- **The second machine comes from the first one within the frame of a tree.** -/
structure Machine.Framed (tree : Node) (m m' : Machine) : Prop where
  /-- No variable is added, removed or moved. -/
  names : m'.table.names = m.table.names
  /-- Only targets of assignments change. -/
  get? : ∀ key, ¬tree.Assigns key → m'.table.get? key = m.table.get? key
  /-- What holds something does not lose it. -/
  holds : ∀ key, m.table.Holds key → m'.table.Holds key
  /-- The output is only appended to. -/
  output : m.output.toList <+: m'.output.toList

namespace Machine.Framed

variable {tree : Node} {m m' m'' : Machine}

theorem refl (tree : Node) (m : Machine) : Framed tree m m :=
  ⟨rfl, fun _ _ => rfl, fun _ => id, List.prefix_rfl⟩

theorem trans (h : Framed tree m m') (h' : Framed tree m' m'') : Framed tree m m'' :=
  ⟨h'.names.trans h.names, fun key hkey => (h'.get? key hkey).trans (h.get? key hkey),
    fun key hkey => h'.holds key (h.holds key hkey), h.output.trans h'.output⟩

end Machine.Framed

/-- An action keeps within the frame of a tree. -/
def Discipline.frame (tree : Node) : Discipline tree :=
  .ofRelation tree (Machine.Framed tree) (.refl tree) .trans
    (fun _ m s => ⟨rfl, fun _ _ => rfl, fun _ => id, by simp⟩)
    (fun _ m _ => ⟨rfl, fun _ _ => rfl, fun _ => id, List.prefix_rfl⟩)
    (fun key y hkey hy m => by
      refine ⟨SymbolTable.names_store _ _ _, fun other hother => ?_, fun other h => h.store hy,
        List.prefix_rfl⟩
      have hne : key ≠ other := by
        rintro rfl
        exact hother hkey
      exact (SymbolTable.get?_store _ _ _ _).trans (if_neg hne))

/-- An action changes nothing. -/
def Discipline.still {tree : Node} (h : ¬tree.Acts) : Discipline tree :=
  .ofRelation tree (fun m m' => m' = m) (fun _ => rfl) (fun h h' => h'.trans h)
    (fun hacts => absurd hacts h) (fun hacts => absurd hacts h)
    (fun _ _ hkey => absurd hkey.acts h)

namespace Run

variable {role : Role} {tree n e v : Node} {level : Int} {fuel : Nat} {m m' : Machine} {y : Yield}
  {stop : Stop}

/-! ### Expressions -/

/-- **An expression changes nothing**, whether it gives a value or fails. -/
theorem after_visit_expression (h : Shaped .expression n) (level : Int) (fuel : Nat) (m : Machine) :
    (visit level fuel n).after m = m :=
  (Discipline.still h.not_acts).obeys_visit h level fuel .root m

theorem eq_of_visit_expression_ok (h : Shaped .expression n) (hv : visit level fuel n m = .ok y m') :
    m' = m := (after_of_ok hv).symm.trans (after_visit_expression h level fuel m)

theorem eq_of_visit_expression_error (h : Shaped .expression n)
    (hv : visit level fuel n m = .error stop m') : m' = m :=
  (after_of_error hv).symm.trans (after_visit_expression h level fuel m)

/-! ### Statements that fail -/

/-- **An assignment** stores what its right-hand side gives. From level two on it leaves a message that
shows it. -/
theorem visit_assign (hk : n.kind = .assign) (hc : n.children = [v, e]) {key name : Text}
    (hs : v.slot = some key) (ht : v.text = .text name) (level : Int) (fuel : Nat) :
    visit level (fuel + 1) n = statement (do
      let y ← visit level fuel e
      store (some key) y
      trace level 2 fun _ => y.description?.map (assignmentMessage n.line name)) := by
  rw [visit, visitNode, hk]
  dsimp only
  rw [assign, hc]
  dsimp only
  rw [hs, ht]
  refine congrArg statement (bind_congr fun y => bind_congr fun _ => congrArg (trace level 2) ?_)
  funext _
  cases y.description? <;> rfl

/-- What is there to assign is stored, and then the message is left or it cannot be made. -/
theorem visit_assign_of_ok (hk : n.kind = .assign) (hc : n.children = [v, e]) {key name : Text}
    (hs : v.slot = some key) (ht : v.text = .text name) (he : visit level fuel e m = .ok y m') :
    Untold level 2 y ∧ visit level (fuel + 1) n m =
        .error (.fault (.number .overlong)) { m' with table := m'.table.store key y } ∨
      ∃ log, visit level (fuel + 1) n m = .ok .nothing { m' with table := m'.table.store key y, log } := by
  have hstore : store (some key) y m' = .ok () { m' with table := m'.table.store key y } := rfl
  rw [visit_assign hk hc hs ht, statement, bind_assoc, bind_of_ok he, bind_assoc, bind_of_ok hstore]
  by_cases hu : Untold level 2 y
  · exact .inl ⟨hu, bind_of_error (trace_of_untold hu _ _)⟩
  · obtain ⟨log, hlog⟩ := exists_trace_of_not_untold hu
      (assignmentMessage n.line name) { m' with table := m'.table.store key y }
    exact .inr ⟨log, by rw [bind_of_ok hlog]; rfl⟩

/-- An assignment fails if there is nothing to assign. -/
theorem visit_assign_of_error (hk : n.kind = .assign) (hc : n.children = [v, e]) {key name : Text}
    (hs : v.slot = some key) (ht : v.text = .text name) (he : visit level fuel e m = .error stop m') :
    visit level (fuel + 1) n m = .error stop m' := by
  rw [visit_assign hk hc hs ht, statement, bind_assoc, bind_of_error he]

/-- The text of a WRITE statement is an expression that is looked at. -/
theorem after_writtenText (hn : Shaped role n) (hk : n.kind = .write ∨ n.kind = .writeln)
    (level : Int) (fuel : Nat) (m : Machine) :
    (writtenText (visit level fuel) n).after m = m := by
  unfold writtenText
  rcases hn.children_write hk with hc | ⟨e, ns, hc, he⟩
  · rw [hc]
    rfl
  · let D := Discipline.still he.not_acts
    have hoperand (asked : Inquiry) :
        operand asked (visit level fuel) n 0 = visit level fuel e >>= valueOf asked := by
      simp only [operand, child, hc, List.getElem?_cons_zero, pure_bind]
    rw [hc]
    dsimp only
    rw [hoperand]
    exact D.seq (D.seq (D.obeys_visit he level fuel .root) (D.valueOf _)) (fun _ => D.ofExcept _) m

/-- **An assignment that fails has done nothing**, unless it is its message that cannot be made. Then the
value is in its target, and that is all it has done. -/
theorem eq_of_visit_assign_error (hn : Shaped role n) (hk : n.kind = .assign)
    (h : visit level fuel n m = .error stop m') :
    m' = m ∨ stop = .fault (.number .overlong) ∧ ∃ key y, n.target? = some key ∧ Untold level 2 y ∧
      m' = { m with table := m.table.store key y } := by
  cases fuel with
  | zero =>
    cases h
    exact .inl rfl
  | succ fuel =>
    obtain ⟨v, e, hc, hv, he⟩ := hn.children_assign hk
    obtain ⟨name, ht, hs, -⟩ := hv.mentions_variable
    cases hvalue : visit level fuel e m with
    | error stop' m₁ =>
      rw [visit_assign_of_error hk hc hs ht hvalue] at h
      cases h
      exact .inl (eq_of_visit_expression_error he hvalue)
    | ok y m₁ =>
      obtain rfl := eq_of_visit_expression_ok he hvalue
      rcases visit_assign_of_ok hk hc hs ht hvalue with ⟨hu, herror⟩ | ⟨log, hok⟩
      · obtain ⟨rfl, rfl⟩ := EStateM.Result.error.inj (herror.symm.trans h)
        exact .inr ⟨rfl, _, y, by rw [target?, if_pos hk, hc, List.head?_cons, Option.bind_some, hs], hu,
          rfl⟩
      · cases hok.symm.trans h

/-- **A WRITE statement that fails has done nothing.** -/
theorem eq_of_visit_write_error (hn : Shaped role n) (hk : n.kind = .write ∨ n.kind = .writeln)
    (h : visit level fuel n m = .error stop m') : m' = m := by
  cases fuel with
  | zero =>
    cases h
    rfl
  | succ fuel =>
    have hwritten := after_writtenText hn hk level fuel m
    rw [visit, visitNode] at h
    cases hw : writtenText (visit level fuel) n m with
    | ok s m₁ =>
      -- writing itself does not fail
      rcases hk with hk | hk <;>
        · simp only [hk, statement, bind_assoc, bind_of_ok hw] at h
          cases h
    | error stop' m₁ =>
      rw [after_of_error hw] at hwritten
      rcases hk with hk | hk <;>
        · simp only [hk, statement, bind_assoc, bind_of_error hw] at h
          cases h
          exact hwritten

end Run

/-! ### Runs of texts -/

/-- A variable of another name than those of the text is not assigned to. -/
theorem Node.Anchored.not_assigns {names : List Text} {tree : Node} {key : Text}
    (h : tree.Anchored names) (hkey : key ∉ names) : ¬tree.Assigns key := by
  rintro ⟨n, v, hn, -, hv, hs⟩
  exact hkey (h.slot v key (hn.child (List.mem_of_mem_head? hv)) hs)

/-- **The frame of a run.** The tree of a text without errors is run on any machine, with any level of
detail of the trace and any amount of fuel, so that it may end by itself or be stopped anywhere. Then
no variable is added or lost, only targets of assignments change, what holds something goes on doing
so, and the output is appended to. Moreover no expression of the tree changes anything, and neither
does an assignment or a WRITE statement that fails. There is one exception: an assignment leaves its
message when the value is stored, and if the message cannot be made the value stays in the target. -/
theorem runs_framed {source : Text} {declared : SymbolTable}
    (h : (parse source declared #[]).errorCount = .ok 0) :
    ∃ tree, (parse source declared #[]).tree = .ok tree ∧ ∀ (level : Int) (fuel : Nat) (m : Machine),
      Machine.Framed tree m ((Run.visit level fuel tree).after m) ∧
        ∀ n, tree.HasNode n →
          (n.kind.isExpression = true → (Run.visit level fuel n).after m = m) ∧
          (∀ stop m', Run.visit level fuel n m = .error stop m' →
            (n.kind = .write ∨ n.kind = .writeln → m' = m) ∧
            (n.kind = .assign → m' = m ∨ stop = .fault (.number .overlong) ∧
              ∃ key y, n.target? = some key ∧ Run.Untold level 2 y ∧
                m' = { m with table := m.table.store key y })) := by
  obtain ⟨tree, htree, hshaped, -⟩ := exists_tree_of_errorCount h
  refine ⟨tree, htree, fun level fuel m => ⟨?_, fun n hn => ?_⟩⟩
  · exact (Discipline.frame tree).obeys_visit hshaped level fuel .root m
  · obtain ⟨role, hrole⟩ := hshaped.exists_role hn
    refine ⟨fun hk => ?_, fun stop m' hstop => ⟨fun hk => ?_, fun hk => ?_⟩⟩
    · exact Run.after_visit_expression (hrole.expression_of_kind hk) level fuel m
    · exact Run.eq_of_visit_write_error hrole hk hstop
    · exact Run.eq_of_visit_assign_error hrole hk hstop

/-- A program that is stopped in its loop leaves what is there of another program. -/
theorem runs_framed_division :
    let p := parse "PROGRAM a; BEGIN FOR i := 1 TO 2 DO BEGIN writeln(i); x := i DIV 0 END END."
      .empty #[]
    let m : Machine := ⟨⟨("other", .value (.integer 7)) :: p.table.entries⟩, ("> " : Text).toArray, #[]⟩
    p.errorCount = .ok 0 ∧ ∃ tree m', p.tree = .ok tree ∧
      Run.visit 0 20 tree m = .error (.fault (.program 1 .divisionByZero)) m' ∧
      m'.table.get? "other" = some (.value (.integer 7)) ∧ "> " <+: m'.output.toList := by
  intro p m
  have hp : p.errorCount.toOption = some 0 ∧ ("other" : Text) ∉ p.table.names ∧
      (p.tree.toOption.map fun t => match Run.visit 0 20 t m with
        | .ok _ _ => none
        | .error stop _ => some stop) = some (some (.fault (.program 1 .divisionByZero))) := by
    decide +kernel
  obtain ⟨hcount, hother, hstop⟩ := hp
  have hcount : p.errorCount = .ok 0 := eq_ok_of_toOption hcount
  obtain ⟨tree, htree, hframe⟩ := runs_framed hcount
  obtain ⟨tree', htree', -, hanchored, -⟩ := exists_tree_of_errorCount hcount
  obtain rfl : tree = tree' := Except.ok.inj (htree.symm.trans htree')
  rw [htree] at hstop
  obtain ⟨hframed, -⟩ := hframe 0 20 m
  cases hv : Run.visit 0 20 tree m with
  | ok y m' =>
    simp [Except.toOption, hv] at hstop
  | error stop m' =>
    rw [Run.after_of_error hv] at hframed
    obtain rfl : stop = .fault (.program 1 .divisionByZero) := by
      simpa [Except.toOption, hv] using hstop
    exact ⟨hcount, tree, m', htree, hv, hframed.get? "other" (hanchored.not_assigns hother),
      hframed.output⟩

/-- At level two an assignment of something that cannot be shown fails, and it has changed its target by
then. -/
theorem assignment_stored_before_failing :
    let p := parse "PROGRAM a; BEGIN y := x END." ⟨[("x", .nothing)]⟩ #[]
    let m : Machine := ⟨p.table.store "x" (.value (.integer (10 ^ 4300))), #[], #[]⟩
    p.errorCount = .ok 0 ∧ ∃ tree n m', p.tree = .ok tree ∧ tree.HasNode n ∧ n.kind = .assign ∧
      Run.visit 2 20 n m = .error (.fault (.number .overlong)) m' ∧
      (m.table.get? "y").bind Yield.value? = none ∧
      (m'.table.get? "y").bind Yield.value? = some (.integer (10 ^ 4300)) := by
  intro p m
  have hp : p.errorCount.toOption = some 0 ∧ (m.table.get? "y").bind Yield.value? = none ∧
      ((p.tree.toOption.bind (Node.statement? 0)).map fun n =>
        (n.kind, match Run.visit 2 20 n m with
          | .ok _ _ => none
          | .error stop m' => some (stop, (m'.table.get? "y").bind Yield.value?))) =
        some (.assign, some (.fault (.number .overlong), some (.integer (10 ^ 4300)))) := by
    decide +kernel
  obtain ⟨hcount, hnothing, hrun⟩ := hp
  have hcount : p.errorCount = .ok 0 := eq_ok_of_toOption hcount
  obtain ⟨tree, htree, -⟩ := exists_tree_of_errorCount hcount
  have htree : p.tree = .ok tree := htree
  rw [htree] at hrun
  obtain ⟨n, hn, hrun⟩ := Option.map_eq_some_iff.1 hrun
  obtain ⟨hk, hrun⟩ := Prod.mk.inj hrun
  cases hv : Run.visit 2 20 n m with
  | ok y m' =>
    rw [hv] at hrun
    cases hrun
  | error stop m' =>
    rw [hv] at hrun
    obtain ⟨hstop, hstored⟩ := Prod.mk.inj (Option.some.inj hrun)
    exact ⟨hcount, tree, n, m', htree, .of_statement? hn, hk, hstop ▸ hv, hnothing, hstored⟩

end MiniPascal

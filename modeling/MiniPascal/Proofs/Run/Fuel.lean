import MiniPascal.Proofs.Run.Action
import MiniPascal.Run.Program

/-!
# More fuel

An amount of fuel bounds how deep visits are nested and how many rounds a loop takes. A visit that
does not use it up does the same with any greater amount, so that the run of a tree has one outcome,
or it uses up whatever fuel it gets and does not end.

An action **approximates** another one if they do the same on every machine on which the first one
does not use up its fuel. All parts of the rules keep that relation.

* `MiniPascal.Run.Approximates`: the other action does the same, or the fuel is used up.
* `MiniPascal.Run.visit_approximates`: a visit approximates the visit with more fuel.
* `MiniPascal.diverges_or_ends`: the run of a tree ends, in one way, or it diverges.
* `MiniPascal.Run.Enacts`: actions that do what the run of a tree does.
-/

namespace MiniPascal

namespace Run

variable {α β : Type}

/-- **The second action does what the first one does**, unless the first one uses up its fuel. -/
def Approximates (act act' : Run α) : Prop :=
  ∀ m, (∃ m', act m = .error .exhausted m') ∨ act m = act' m

theorem Approximates.refl (act : Run α) : Approximates act act := fun _ => .inr rfl

theorem Approximates.trans {act act' act'' : Run α} (h : Approximates act act')
    (h' : Approximates act' act'') : Approximates act act'' := by
  intro m
  rcases h m with hm | hm
  · exact .inl hm
  · rw [hm]
    exact h' m

theorem approximates_of_exhausted (act : Run α) : Approximates (throw .exhausted) act :=
  fun m => .inl ⟨m, rfl⟩

theorem Approximates.bind {act act' : Run α} {next next' : α → Run β}
    (h : Approximates act act') (h' : ∀ a, Approximates (next a) (next' a)) :
    Approximates (act >>= next) (act' >>= next') := by
  intro m
  rw [bind_apply, bind_apply]
  rcases h m with ⟨m', hm⟩ | hm
  · exact .inl ⟨m', by rw [hm]⟩
  · rw [hm]
    cases act' m with
    | ok a m' => exact h' a m'
    | error stop m' => exact .inr rfl

/-- The first action is the same. -/
theorem approximates_bind {act : Run α} {next next' : α → Run β}
    (h : ∀ a, Approximates (next a) (next' a)) :
    Approximates (act >>= next) (act >>= next') := (Approximates.refl act).bind h

theorem Approximates.map {act act' : Run α} (f : α → β) (h : Approximates act act') :
    Approximates (f <$> act) (f <$> act') := by
  rw [map_eq_pure_bind, map_eq_pure_bind]
  exact h.bind fun _ => .refl _

theorem Approximates.ite {c : Prop} [Decidable c] {act₁ act₁' act₂ act₂' : Run α}
    (h₁ : Approximates act₁ act₁') (h₂ : Approximates act₂ act₂') :
    Approximates (if c then act₁ else act₂) (if c then act₁' else act₂') := by
  by_cases hc : c
  · rwa [if_pos hc, if_pos hc]
  · rwa [if_neg hc, if_neg hc]

/-! ### Parts of the rules -/

section Rules

variable {visit visit' : Node → Run Yield} (hv : ∀ n, Approximates (visit n) (visit' n))
include hv

theorem approximates_visitAll (ns : List Node) :
    Approximates (visitAll visit ns) (visitAll visit' ns) := by
  induction ns with
  | nil => exact .refl _
  | cons n ns ih => exact (hv n).bind fun _ => ih

theorem approximates_visitEach (ns : List Node) :
    Approximates (visitEach visit ns) (visitEach visit' ns) := by
  induction ns with
  | nil => exact .refl _
  | cons n ns ih => exact (hv n).bind fun _ => ih.bind fun _ => .refl _

theorem approximates_operand (asked : Inquiry) (n : Node) (i : Nat) :
    Approximates (operand asked visit n i) (operand asked visit' n i) :=
  approximates_bind fun c => (hv c).bind fun _ => .refl _

theorem approximates_condition (n : Node) (i : Nat) :
    Approximates (condition visit n i) (condition visit' n i) :=
  (approximates_operand hv .kind n i).map Value.truth

theorem approximates_operands (n : Node) :
    Approximates (operands visit n) (operands visit' n) :=
  approximates_bind fun l => (hv l).bind fun _ => approximates_bind fun r => (hv r).bind fun _ =>
    .refl _

theorem approximates_assign (level : Int) (n : Node) :
    Approximates (assign level visit n) (assign level visit' n) := by
  unfold assign
  split
  · exact (hv _).bind fun _ => .refl _
  · exact .refl _

theorem approximates_findBranch (selector : Yield) (branches : List Node) :
    Approximates (findBranch visit selector branches) (findBranch visit' selector branches) := by
  induction branches with
  | nil => exact .refl _
  | cons branch branches ih =>
    have hlabels : Approximates (labelsOf visit branch) (labelsOf visit' branch) :=
      approximates_bind fun l => (hv l).bind fun _ => .refl _
    exact hlabels.bind fun _ => approximates_bind fun _ => .ite (.refl _) ih

theorem approximates_selectStatement (level : Int) (n : Node) :
    Approximates (selectStatement level visit n) (selectStatement level visit' n) := by
  refine approximates_bind fun c => (hv c).bind fun selector => ?_
  refine (approximates_findBranch hv selector _).bind fun found => ?_
  cases found with
  | some branch => exact (hv branch).bind fun _ => .refl _
  | none => exact .refl _

theorem approximates_writtenText (n : Node) :
    Approximates (writtenText visit n) (writtenText visit' n) :=
  .ite (.refl _) ((approximates_operand hv _ n 0).bind fun _ => .refl _)

theorem approximates_arithmetic (op : ArithmeticOp) (n : Node) :
    Approximates (arithmetic visit op n) (arithmetic visit' op n) :=
  (approximates_operands hv n).bind fun _ => .refl _

theorem approximates_comparison (op : RelationalOp) (n : Node) :
    Approximates (comparison visit op n) (comparison visit' op n) :=
  (approximates_operands hv n).bind fun _ => .refl _

theorem approximates_logical (op : Bool → Bool → Bool) (n : Node) :
    Approximates (logical visit op n) (logical visit' op n) :=
  (approximates_condition hv n 0).bind fun _ => (approximates_condition hv n 1).bind fun _ =>
    .refl _

variable {fuel fuel' : Nat} (hfuel : fuel ≤ fuel')
include hfuel

theorem approximates_repeatLoop (body : List Node) (test : Node) :
    Approximates (repeatLoop visit body test fuel) (repeatLoop visit' body test fuel') := by
  induction fuel generalizing fuel' with
  | zero => exact approximates_of_exhausted _
  | succ fuel ih =>
    obtain ⟨fuel', rfl⟩ : ∃ k, fuel' = k + 1 := ⟨fuel' - 1, by omega⟩
    refine (approximates_visitAll hv body).bind fun _ => (hv test).bind fun _ => ?_
    exact approximates_bind fun v => .ite (.refl _) (ih (by omega))

theorem approximates_whileLoop (test body : Node) :
    Approximates (whileLoop visit test body fuel) (whileLoop visit' test body fuel') := by
  induction fuel generalizing fuel' with
  | zero => exact approximates_of_exhausted _
  | succ fuel ih =>
    obtain ⟨fuel', rfl⟩ : ∃ k, fuel' = k + 1 := ⟨fuel' - 1, by omega⟩
    refine (hv test).bind fun _ => approximates_bind fun v => ?_
    exact .ite ((hv body).bind fun _ => ih (by omega)) (.refl _)

theorem approximates_forLoop (line : Int) (control : Option Text) (descending : Bool)
    (limit body : Node) :
    Approximates (forLoop visit line control descending limit body fuel)
      (forLoop visit' line control descending limit body fuel') := by
  induction fuel generalizing fuel' with
  | zero => exact approximates_of_exhausted _
  | succ fuel ih =>
    obtain ⟨fuel', rfl⟩ : ∃ k, fuel' = k + 1 := ⟨fuel' - 1, by omega⟩
    refine (hv limit).bind fun _ => approximates_bind fun _ => approximates_bind fun (_, _) =>
      approximates_bind fun _ => .ite (.refl _) ?_
    refine (hv body).bind fun _ => approximates_bind fun _ => approximates_bind fun _ =>
      approximates_bind fun _ => approximates_bind fun _ => ih (by omega)

theorem approximates_forStatement (n : Node) :
    Approximates (forStatement visit fuel n) (forStatement visit' fuel' n) := by
  unfold forStatement
  split
  · exact (hv _).bind fun _ => approximates_bind fun _ => approximates_forLoop hv hfuel _ _ _ _ _
  · exact .refl _

/-! ### All nodes -/

omit hv hfuel in
theorem Approximates.statement {action action' : Run Unit} (h : Approximates action action') :
    Approximates (statement action) (statement action') := h.bind fun _ => .refl _

/-- The rule of every kind of node, with visits that do more and more rounds for loops. -/
theorem approximates_visitNode (level : Int) (n : Node) :
    Approximates (visitNode level visit fuel n) (visitNode level visit' fuel' n) := by
  unfold visitNode
  cases n.kind with
  | program =>
    exact .statement (approximates_bind fun _ => approximates_bind fun _ => approximates_visitAll hv _)
  | compound => exact .statement (approximates_visitAll hv _)
  | assign => exact .statement (approximates_assign hv level n)
  | loop =>
    refine .statement ?_
    cases n.children.getLast? with
    | some test => exact approximates_repeatLoop hv hfuel _ _
    | none => exact .refl _
  | test => exact (approximates_condition hv n 0).bind fun _ => .refl _
  | write | writeln => exact .statement ((approximates_writtenText hv n).bind fun _ => .refl _)
  | conditional =>
    refine .statement ((approximates_condition hv n 0).bind fun _ => approximates_bind fun _ => ?_)
    refine .ite (approximates_bind fun c => (hv c).bind fun _ => .refl _) ?_
    cases n.children[2]? with
    | some c => exact (hv c).bind fun _ => .refl _
    | none => exact .refl _
  | whileLoop =>
    refine .statement ?_
    split
    · exact approximates_whileLoop hv hfuel _ _
    · exact .refl _
  | forLoop => exact .statement (approximates_forStatement hv hfuel n)
  | select => exact .statement (approximates_selectStatement hv level n)
  | selectBranch => exact .statement (approximates_bind fun c => (hv c).bind fun _ => .refl _)
  | selectConstants => exact (approximates_visitEach hv _).bind fun _ => .refl _
  | add | subtract | multiply | divide | intDivide => exact approximates_arithmetic hv _ n
  | equal | caseEqual | unequal | less | greater | atMost | atLeast =>
    exact approximates_comparison hv _ n
  | and | or => exact approximates_logical hv _ n
  | not => exact (approximates_condition hv n 0).bind fun _ => .refl _
  | var | integerConstant | realConstant | stringConstant | other => exact .refl _

end Rules

/-- **A visit that does not use up its fuel does the same with more.** -/
theorem visit_approximates (level : Int) {fuel fuel' : Nat} (h : fuel ≤ fuel') (n : Node) :
    Approximates (visit level fuel n) (visit level fuel' n) := by
  induction fuel generalizing fuel' n with
  | zero => exact approximates_of_exhausted _
  | succ fuel ih =>
    obtain ⟨fuel', rfl⟩ : ∃ k, fuel' = k + 1 := ⟨fuel' - 1, by omega⟩
    -- the same fuel bounds the depth of visits and the rounds of loops, and both grow
    exact approximates_visitNode (fun n => ih (by omega) n) (by omega) level n

end Run

/-! ### The run of a tree -/

/-- The run of a tree on a table **ends** in the given way: it does so with all amounts of fuel from
some amount on, and does not use them up. -/
def Ends (level : Int) (tree : Node) (table : SymbolTable) (e : Execution) : Prop :=
  e.stop ≠ some .exhausted ∧ ∃ least, ∀ fuel, least ≤ fuel → execute level fuel tree table = e

/-- The run of a tree on a table **diverges** if it uses up every amount of fuel. -/
def Diverges (level : Int) (tree : Node) (table : SymbolTable) : Prop :=
  ∀ fuel, (execute level fuel tree table).stop = some .exhausted

variable {level : Int} {fuel : Nat} {tree : Node} {table : SymbolTable} {e e' : Execution}

/-- An amount of fuel that is not used up is enough. -/
theorem ends_of_stop_ne (h : (execute level fuel tree table).stop ≠ some .exhausted) :
    Ends level tree table (execute level fuel tree table) := by
  refine ⟨h, fuel, fun fuel' hle => ?_⟩
  unfold execute at h ⊢
  rcases Run.visit_approximates level hle tree ⟨table, #[], #[]⟩ with ⟨m, hm⟩ | heq
  · simp [hm] at h
  · rw [heq]

/-- A run ends in one way only. -/
theorem Ends.unique (h : Ends level tree table e) (h' : Ends level tree table e') : e = e' := by
  obtain ⟨-, least, he⟩ := h
  obtain ⟨-, least', he'⟩ := h'
  rw [← he _ (Nat.le_max_left least least'), ← he' _ (Nat.le_max_right least least')]

/-- **The run of a tree ends, or it diverges.** -/
theorem diverges_or_ends (level : Int) (tree : Node) (table : SymbolTable) :
    Diverges level tree table ∨ ∃ e, Ends level tree table e := by
  by_cases h : Diverges level tree table
  · exact .inl h
  · obtain ⟨fuel, hfuel⟩ := Classical.not_forall.1 h
    exact .inr ⟨_, ends_of_stop_ne hfuel⟩

/-! ### Other actions for the run of a tree -/

namespace Run

/-- The outcome of an action on a table. -/
def outcome (act : Run Yield) (table : SymbolTable) : Execution :=
  match act ⟨table, #[], #[]⟩ with
  | .ok _ m => ⟨none, m.table, m.output.toList, m.log⟩
  | .error stop m => ⟨some stop, m.table, m.output.toList, m.log⟩

theorem execute_eq_outcome (level : Int) (fuel : Nat) (tree : Node) (table : SymbolTable) :
    execute level fuel tree table = outcome (visit level fuel tree) table := rfl

/-- On the machine the first action does what the second one does, or it uses up its fuel. -/
def ApproximatesAt (m : Machine) (act act' : Run Yield) : Prop :=
  (∃ m', act m = .error .exhausted m') ∨ act m = act' m

theorem ApproximatesAt.outcome {act act' : Run Yield} (h : ApproximatesAt ⟨table, #[], #[]⟩ act act') :
    (act.outcome table).stop = some .exhausted ∨ act.outcome table = act'.outcome table := by
  rcases h with ⟨m, hm⟩ | hm
  · exact .inl (by rw [Run.outcome, hm])
  · exact .inr (by rw [Run.outcome, Run.outcome, hm])

/-- **Actions that do what the run of a tree does**, with more and more fuel: what one of them does is
what visiting the tree does with some amount of fuel, and the other way round. -/
structure Enacts (level : Int) (table : SymbolTable) (act : Nat → Run Yield) (tree : Node) : Prop where
  of_act : ∀ fuel, ∃ fuel', ApproximatesAt ⟨table, #[], #[]⟩ (act fuel) (visit level fuel' tree)
  of_visit : ∀ fuel, ∃ fuel', ApproximatesAt ⟨table, #[], #[]⟩ (visit level fuel tree) (act fuel')

theorem enacts_visit (level : Int) (table : SymbolTable) (tree : Node) :
    Enacts level table (fun fuel => visit level fuel tree) tree :=
  ⟨fun fuel => ⟨fuel, .inr rfl⟩, fun fuel => ⟨fuel, .inr rfl⟩⟩

namespace Enacts

variable {act : Nat → Run Yield} (h : Enacts level table act tree)
include h

theorem diverges_iff :
    Diverges level tree table ↔ ∀ fuel, ((act fuel).outcome table).stop = some .exhausted := by
  constructor <;> intro hall fuel
  · obtain ⟨fuel', hat⟩ := h.of_act fuel
    rcases hat.outcome with hstop | heq
    · exact hstop
    · rw [heq]
      exact hall fuel'
  · obtain ⟨fuel', hat⟩ := h.of_visit fuel
    rcases hat.outcome with hstop | heq
    · exact hstop
    · rw [execute_eq_outcome, heq]
      exact hall fuel'

/-- An action that does not use up its fuel ends as the run does. -/
theorem ends (hstop : ((act fuel).outcome table).stop ≠ some .exhausted) :
    Ends level tree table ((act fuel).outcome table) := by
  obtain ⟨fuel', hat⟩ := h.of_act fuel
  have heq := hat.outcome.resolve_left hstop
  rw [heq] at hstop ⊢
  exact ends_of_stop_ne hstop

theorem exists_outcome (hends : Ends level tree table e) : ∃ fuel, (act fuel).outcome table = e := by
  obtain ⟨hstop, fuel, hfuel⟩ := hends
  obtain ⟨fuel', hat⟩ := h.of_visit fuel
  have he := hfuel fuel (Nat.le_refl fuel)
  rw [execute_eq_outcome] at he
  exact ⟨fuel', (hat.outcome.resolve_left (he ▸ hstop)).symm.trans he⟩

end Enacts

end Run

end MiniPascal

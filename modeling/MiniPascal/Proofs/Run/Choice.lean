import MiniPascal.Proofs.Run.Evaluation
import MiniPascal.Proofs.Run.Loops
import MiniPascal.Proofs.Run.Rules

/-!
# What a CASE statement chooses

A CASE statement compares the value of its selector with the constants of its branches from left to
right, and the first constant that is equal decides. Which branch holds this constant matters only for
the statement that is run, so the constants of all branches are put in one row, each with the statement
of its branch. The two searches, for a branch and in it for a constant, are then one search in the row.

Constants do not change the machine and the selector is visited once, so that the search takes place on
the machine on which the statement starts, and so does the statement that is chosen.

* `MiniPascal.Value.choose`: the search in a row of values.
* `MiniPascal.Node.choices`: the constants of branches with their statements.
* `MiniPascal.Run.visit_select`: a CASE statement searches the row.
* `MiniPascal.case_runs_first_match`: the first equal constant decides what the CASE statements of a
  text do.
-/

namespace MiniPascal

open Node

/-! ### One row of values -/

/-- What stands with the first of the values that is equal to the given one. The values are compared
from left to right, and a comparison that fails ends the search. -/
def Value.choose {α : Type} (v : Value) : List (Value × α) → Except Fault (Option α)
  | [] => .ok none
  | (c, a) :: row => do if ← v.equals c then return some a else v.choose row

section Choose

variable {α : Type} {v c : Value} {a : α} {row before after : List (Value × α)}

theorem Value.choose_cons (v : Value) (p : Value × α) (row : List (Value × α)) :
    v.choose (p :: row) = (do if ← v.equals p.1 then return some p.2 else v.choose row) := rfl

theorem Value.choose_append (v : Value) (row row' : List (Value × α)) :
    v.choose (row ++ row') = (do
      match ← v.choose row with
      | some a => return some a
      | none => v.choose row') := by
  induction row with
  | nil => rfl
  | cons p row ih =>
    obtain ⟨c, a⟩ := p
    rw [List.cons_append, Value.choose_cons, Value.choose_cons]
    dsimp only
    cases v.equals c with
    | error f => rfl
    | ok same =>
      cases same with
      | true => rfl
      | false => exact ih

theorem Value.choose_eq_none (h : ∀ p ∈ row, v.equals p.1 = .ok false) : v.choose row = .ok none := by
  induction row with
  | nil => rfl
  | cons p row ih =>
    rw [List.forall_mem_cons] at h
    rw [Value.choose_cons, h.1]
    exact ih h.2

theorem Value.mem_of_choose (h : v.choose row = .ok (some a)) : ∃ c, (c, a) ∈ row := by
  induction row with
  | nil => cases h
  | cons p row ih =>
    obtain ⟨c, a'⟩ := p
    rw [Value.choose_cons] at h
    dsimp only at h
    cases hc : v.equals c with
    | error f =>
      rw [hc] at h
      cases h
    | ok same =>
      rw [hc] at h
      cases same with
      | true =>
        cases h
        exact ⟨c, List.mem_cons_self⟩
      | false =>
        obtain ⟨c', hc'⟩ := ih h
        exact ⟨c', List.mem_cons_of_mem _ hc'⟩

/-- What follows the first equal value does not matter. -/
theorem Value.choose_eq_some (hbefore : ∀ p ∈ before, v.equals p.1 = .ok false)
    (hc : v.equals c = .ok true) : v.choose (before ++ (c, a) :: after) = .ok (some a) := by
  rw [Value.choose_append, Value.choose_eq_none hbefore, Value.choose_cons, hc]
  rfl

/-- A comparison that fails before any value is equal is the outcome. -/
theorem Value.choose_eq_error {f : Fault} (hbefore : ∀ p ∈ before, v.equals p.1 = .ok false)
    (hc : v.equals c = .error f) : v.choose (before ++ (c, a) :: after) = .error f := by
  rw [Value.choose_append, Value.choose_eq_none hbefore, Value.choose_cons, hc]
  rfl

end Choose

/-! ### The constants of branches -/

namespace Node

/-- The value of a constant. -/
def constant? (c : Node) : Option Value :=
  match c.kind, c.value with
  | .integerConstant, .int k => some (.integer k)
  | .realConstant, .real x => some (.real x)
  | .stringConstant, .text s => some (.text s)
  | _, _ => none

/-- The constants of a branch, in order. -/
def constants (branch : Node) : List Value :=
  match branch.children with
  | labels :: _ => labels.children.filterMap constant?
  | [] => []

/-- **The row of all constants of the branches**, each with the statement of its branch. -/
def choices (branches : List Node) : List (Value × Node) :=
  branches.flatMap fun branch =>
    match branch.children with
    | [_, s] => branch.constants.map (·, s)
    | _ => []

variable {b labels s : Node} {branches branches' : List Node}

theorem choices_cons (h : b.children = [labels, s]) :
    choices (b :: branches) = b.constants.map (·, s) ++ choices branches := by
  rw [choices, List.flatMap_cons, h]
  rfl

theorem choices_append : choices (branches ++ branches') = choices branches ++ choices branches' :=
  List.flatMap_append

/-- The values of the row are the constants of the branches. -/
theorem exists_constants_of_mem_choices {p : Value × Node} (h : p ∈ choices branches) :
    ∃ b ∈ branches, p.1 ∈ b.constants := by
  obtain ⟨b, hb, hp⟩ := List.mem_flatMap.1 h
  split at hp
  · obtain ⟨c, hc, rfl⟩ := List.mem_map.1 hp
    exact ⟨b, hb, hc⟩
  · cases hp

end Node

theorem Shaped.exists_constant {c : Node} (h : Shaped .constant c) : ∃ v, c.constant? = some v := by
  cases h with
  | number h =>
    cases h with
    | integer line text k => exact ⟨.integer k, rfl⟩
  | real line text x => exact ⟨.real x, rfl⟩
  | string line text s => exact ⟨.text s, rfl⟩

theorem map_constant? {cs : List Node} (h : ∀ c ∈ cs, Shaped .constant c) :
    cs.map constant? = (cs.filterMap constant?).map some := by
  induction cs with
  | nil => rfl
  | cons c cs ih =>
    rw [List.forall_mem_cons] at h
    obtain ⟨v, hv⟩ := h.1.exists_constant
    rw [List.map_cons, List.filterMap_cons_some hv, List.map_cons, hv, ih h.2]

/-- Every label of a branch is one of its constants. -/
theorem Shaped.exists_labels {b : Node} (h : Shaped .branch b) :
    ∃ labels s, b.children = [labels, s] ∧ Shaped .labels labels ∧ Shaped .statement s ∧
      labels.children.map constant? = b.constants.map some := by
  obtain ⟨labels, s, hc, hl, hs⟩ := Run.Shaped.children_branch h
  have hconstants : b.constants = labels.children.filterMap constant? := by
    rw [Node.constants, hc]
  have hvalues : ∀ c ∈ labels.children, Shaped .constant c := by
    cases hl with
    | labels _ _ hns => exact hns
  exact ⟨labels, s, hc, hl, hs, hconstants ▸ map_constant? hvalues⟩

namespace Run

variable {level : Int} {fuel : Nat} {n n' selector b c s : Node} {branches : List Node} {m m' : Machine}
  {v : Value}

/-! ### The search -/

/-- A constant gives its value. -/
theorem visit_constant (h : c.constant? = some v) (level : Int) (fuel : Nat) :
    visit level (fuel + 1) c = pure (.value v) := by
  unfold constant? at h
  rw [visit, visitNode]
  split at h
  · rename_i hk hv
    cases h
    simp only [hk, integerConstant, hv, Datum.toInteger]
  · rename_i hk hv
    cases h
    simp only [hk, realConstant, hv, Datum.toReal]
  · rename_i hk hv
    cases h
    simp only [hk, stringConstant, hv, Datum.display?]
  · cases h

theorem visitEach_constants {cs : List Node} {vs : List Value}
    (h : cs.map constant? = vs.map some) (level : Int) (fuel : Nat) :
    visitEach (visit level (fuel + 1)) cs = pure (vs.map .value) := by
  induction cs generalizing vs with
  | nil =>
    obtain rfl := List.map_eq_nil_iff.1 h.symm
    rfl
  | cons c cs ih =>
    cases vs with
    | nil => cases h
    | cons v vs =>
      obtain ⟨hc, hcs⟩ := List.cons.inj h
      rw [visitEach, visit_constant hc, pure_bind, ih hcs]
      rfl

/-- The labels of a branch are its constants. -/
theorem labelsOf_eq (h : Shaped .branch b) (level : Int) (fuel : Nat) :
    labelsOf (visit level (fuel + 2)) b = pure (b.constants.map .value) := by
  obtain ⟨labels, s, hc, hl, -, hvalues⟩ := h.exists_labels
  have hvisit : visit level (fuel + 2) labels = pure (.list (b.constants.map .value)) := by
    cases hl with
    | labels line _ _ =>
      rw [visit, visitNode]
      dsimp only
      rw [visitEach_constants hvalues, pure_bind]
  rw [labelsOf, child_eq (c := labels) (by simp [hc]), pure_bind, hvisit, pure_bind]

/-- The search for a label in a branch. -/
theorem matchesLabel_eq {α : Type} (v : Value) (vs : List Value) (a : α) :
    matchesLabel (.value v) (vs.map .value) = Option.isSome <$> ofExcept (v.choose (vs.map (·, a))) := by
  induction vs with
  | nil => rfl
  | cons c vs ih =>
    rw [List.map_cons, matchesLabel, bothValues_value, pure_bind, List.map_cons, Value.choose_cons]
    dsimp only
    cases v.equals c with
    | error f => rfl
    | ok same =>
      cases same with
      | true => rfl
      | false => exact ih

/-- **The search for a branch is the search in the row of all constants**, for anything that comes next
and does with a branch what it does with its statement. -/
theorem findBranch_bind {β : Type} {next next' : Option Node → Run β}
    (hbranches : ∀ b ∈ branches, Shaped .branch b) (hnone : next none = next' none)
    (hsome : ∀ b ∈ branches, ∀ labels s, b.children = [labels, s] → next (some b) = next' (some s))
    (level : Int) (fuel : Nat) (v : Value) :
    findBranch (visit level (fuel + 2)) (.value v) branches >>= next =
      ofExcept (v.choose (choices branches)) >>= next' := by
  induction branches with
  | nil =>
    rw [findBranch, pure_bind, hnone]
    rfl
  | cons b branches ih =>
    rw [List.forall_mem_cons] at hbranches hsome
    obtain ⟨labels, s, hc, -⟩ := Shaped.children_branch hbranches.1
    rw [findBranch, labelsOf_eq hbranches.1, pure_bind, matchesLabel_eq v b.constants s,
      choices_cons hc, Value.choose_append]
    cases hchosen : v.choose (b.constants.map (·, s)) with
    | error f => rfl
    | ok found =>
      cases found with
      | none => exact ih hbranches.2 hsome.2
      | some s' =>
        obtain ⟨c, hmem⟩ := Value.mem_of_choose hchosen
        obtain ⟨_, _, hs⟩ := List.mem_map.1 hmem
        cases hs
        exact hsome.1 labels s hc

/-- The visit of a statement gives nothing. -/
theorem visit_statement (h : Shaped .statement s) (level : Int) (fuel : Nat) :
    (do let _ ← visit level fuel s; return .nothing) = visit level fuel s := by
  cases fuel with
  | zero => rfl
  | succ fuel =>
    have hform : ∃ action, visit level (fuel + 1) s = statement action := by
      cases h with
      | assignment h =>
        rw [visit, visitNode, h.kind_assignment]
        exact ⟨_, rfl⟩
      | write _ hk =>
        rcases hk with rfl | rfl <;> exact ⟨_, rfl⟩
      | _ => exact ⟨_, rfl⟩
    obtain ⟨action, haction⟩ := hform
    rw [haction]
    simp only [statement, bind_assoc, pure_bind]

/-- A branch does what its statement does. -/
theorem visit_branch {labels : Node} (hb : Shaped .branch b) (hc : b.children = [labels, s])
    (level : Int) (fuel : Nat) : visit level (fuel + 1) b = visit level fuel s := by
  cases hb with
  | branch line hl hs =>
    cases hc
    rw [visit, visitNode, ← visit_statement hs]
    simp only [statement, child, List.getElem?_cons_succ, List.getElem?_cons_zero, pure_bind, bind_assoc]

/-- **A CASE statement searches the row of all constants** for the value of its selector, and does what
the statement does that is found. -/
theorem visit_select (hk : n.kind = .select) (hc : n.children = selector :: branches)
    (hbranches : ∀ b ∈ branches, Shaped .branch b)
    (hselector : visit level (fuel + 2) selector m = .ok (.value v) m) :
    visit level (fuel + 3) n m = (do
      match ← ofExcept (v.choose (choices branches)) with
      | some s => visit level (fuel + 1) s
      | none => statement (trace level 3 fun _ =>
          (Yield.value v).description?.map (unmatchedMessage n.line))) m := by
  have hselect : visit level (fuel + 3) n = statement (selectStatement level (visit level (fuel + 2)) n) := by
    rw [visit, visitNode, hk]
  rw [hselect, statement, selectStatement, child_eq (c := selector) (by simp [hc]), pure_bind, bind_assoc,
    bind_of_ok hselector, hc, List.drop_succ_cons, List.drop_zero, bind_assoc]
  refine congrFun (findBranch_bind hbranches ?_ (fun b hb labels s hbc => ?_) level fuel v) m
  · rfl
  have hb := hbranches b hb
  obtain ⟨labels', s', hbc', -, hs⟩ := Shaped.children_branch hb
  obtain ⟨rfl, rfl⟩ : labels' = labels ∧ s' = s := by simpa using hbc'.symm.trans hbc
  simp only [visit_branch hb hbc, bind_assoc, pure_bind, visit_statement hs]

/-! ### The first match -/

/-- **The CASE statement runs what stands with the first equal constant** when its selector has the
given value. -/
structure ChoosesFirst (level : Int) (m : Machine) (n selector : Node) (branches : List Node)
    (v : Value) : Prop where
  /-- The statement does that stands with the first equal constant. -/
  first : ∀ before c s after, choices branches = before ++ (c, s) :: after →
    (∀ p ∈ before, v.equals p.1 = .ok false) → v.equals c = .ok true → ActsAs level m n s
  /-- What follows this constant, in its branch and behind it, does not matter: it may be different in
  another CASE statement with the same selector. -/
  later : ∀ before c s after n' branches', choices branches = before ++ (c, s) :: after →
    (∀ p ∈ before, v.equals p.1 = .ok false) → v.equals c = .ok true → n'.kind = .select →
    n'.children = selector :: branches' → (∀ b ∈ branches', Shaped .branch b) →
    before ++ [(c, s)] <+: choices branches' → ActsAs level m n' n
  /-- Nothing is done if no constant is equal. From level three on there is a message that shows the
  value. -/
  none : (∀ p ∈ choices branches, v.equals p.1 = .ok false) → ¬Untold level 3 (.value v) →
    ∃ least m', (∀ fuel, least ≤ fuel → visit level fuel n m = .ok .nothing m') ∧
      m'.table = m.table ∧ m'.output = m.output ∧ (level < 3 → m' = m)
  /-- If the message cannot be made the run stops there, and nothing else is done. -/
  untold : (∀ p ∈ choices branches, v.equals p.1 = .ok false) → Untold level 3 (.value v) →
    ∃ least, ∀ fuel, least ≤ fuel → visit level fuel n m = .error (.fault (.number .overlong)) m
  /-- A comparison that fails before any constant is equal stops the run. -/
  fails : ∀ before c s after f, choices branches = before ++ (c, s) :: after →
    (∀ p ∈ before, v.equals p.1 = .ok false) → v.equals c = .error f →
    ∃ least, ∀ fuel, least ≤ fuel → visit level fuel n m = .error (.fault f) m
  /-- Among integers the first branch is run that lists the value. -/
  lists : ∀ k before b after labels s, v = .integer k →
    (∀ b ∈ branches, ∀ c ∈ b.constants, ∃ j, c = .integer j) → branches = before ++ b :: after →
    b.children = [labels, s] → .integer k ∈ b.constants → (∀ b' ∈ before, .integer k ∉ b'.constants) →
    ActsAs level m n s

/-- With enough fuel a CASE statement does what comes of the search. -/
theorem exists_visit_select (hk : n.kind = .select) (hc : n.children = selector :: branches)
    (hbranches : ∀ b ∈ branches, Shaped .branch b) (hselector : Evaluates level m selector v) :
    ∃ least, ∀ fuel, least ≤ fuel → visit level (fuel + 2) n m = (do
      match ← ofExcept (v.choose (choices branches)) with
      | some s => visit level fuel s
      | none => statement (trace level 3 fun _ =>
          (Yield.value v).description?.map (unmatchedMessage n.line))) m := by
  obtain ⟨least, hleast⟩ := hselector.exists_least
  refine ⟨least + 1, fun fuel hle => ?_⟩
  obtain ⟨fuel, rfl⟩ : ∃ k, fuel = k + 1 := ⟨fuel - 1, by omega⟩
  exact visit_select hk hc hbranches (hleast _ (by omega))

/-- The statement that is found is what runs. -/
theorem exists_visit_of_choose (hk : n.kind = .select) (hc : n.children = selector :: branches)
    (hbranches : ∀ b ∈ branches, Shaped .branch b) (hselector : Evaluates level m selector v)
    (hchosen : v.choose (choices branches) = .ok (some s)) :
    ∃ least, ∀ fuel, least ≤ fuel → visit level (fuel + 2) n m = visit level fuel s m := by
  obtain ⟨least, hleast⟩ := exists_visit_select hk hc hbranches hselector
  refine ⟨least, fun fuel hle => ?_⟩
  rw [hleast fuel hle, hchosen]
  rfl

theorem actsAs_of_choose (hk : n.kind = .select) (hc : n.children = selector :: branches)
    (hbranches : ∀ b ∈ branches, Shaped .branch b) (hselector : Evaluates level m selector v)
    (hchosen : v.choose (choices branches) = .ok (some s)) : ActsAs level m n s := by
  obtain ⟨least, hleast⟩ := exists_visit_of_choose hk hc hbranches hselector hchosen
  exact ⟨least, 2, hleast⟩

/-- Two CASE statements that find the same statement do the same. -/
theorem actsAs_of_choose_choose {branches' : List Node} (hk : n.kind = .select)
    (hc : n.children = selector :: branches) (hbranches : ∀ b ∈ branches, Shaped .branch b)
    (hk' : n'.kind = .select) (hc' : n'.children = selector :: branches')
    (hbranches' : ∀ b ∈ branches', Shaped .branch b) (hselector : Evaluates level m selector v)
    (hchosen : v.choose (choices branches) = .ok (some s))
    (hchosen' : v.choose (choices branches') = .ok (some s)) : ActsAs level m n' n := by
  obtain ⟨least, hleast⟩ := exists_visit_of_choose hk hc hbranches hselector hchosen
  obtain ⟨least', hleast'⟩ := exists_visit_of_choose hk' hc' hbranches' hselector hchosen'
  refine ⟨least + least' + 2, 0, fun fuel hle => ?_⟩
  obtain ⟨fuel, rfl⟩ : ∃ k, fuel = k + 2 := ⟨fuel - 2, by omega⟩
  exact (hleast' fuel (by omega)).trans (hleast fuel (by omega)).symm

/-- Among integers the search finds the statement of the first branch that lists the integer. -/
theorem choose_choices_of_integers {k : Int} {before after : List Node} {labels : Node}
    (hbranches : ∀ b' ∈ before ++ b :: after, ∀ c ∈ b'.constants, ∃ j, c = .integer j)
    (hc : b.children = [labels, s]) (hk : .integer k ∈ b.constants)
    (hbefore : ∀ b' ∈ before, .integer k ∉ b'.constants) :
    (Value.integer k).choose (choices (before ++ b :: after)) = .ok (some s) := by
  have hunequal {c : Value} (hc : ∃ j, c = .integer j) (hne : c ≠ .integer k) :
      (Value.integer k).equals c = .ok false := by
    obtain ⟨j, rfl⟩ := hc
    have hkj : k ≠ j := fun heq => hne (heq ▸ rfl)
    simpa [Value.equals] using hkj
  obtain ⟨front, back, hconstants, hfront⟩ := List.eq_append_cons_of_mem hk
  have hrow : choices (before ++ b :: after) =
      (choices before ++ front.map (·, s)) ++ (.integer k, s) :: (back.map (·, s) ++ choices after) := by
    simp only [choices_append, choices_cons hc, hconstants, List.map_append, List.map_cons,
      List.append_assoc, List.cons_append]
  rw [hrow]
  refine Value.choose_eq_some (fun p hp => ?_) (by simp [Value.equals])
  rcases List.mem_append.1 hp with hp | hp
  · obtain ⟨b', hb', hp⟩ := exists_constants_of_mem_choices hp
    exact hunequal (hbranches b' (List.mem_append_left _ hb') _ hp) fun heq =>
      hbefore b' hb' (heq ▸ hp)
  · obtain ⟨c, hcf, rfl⟩ := List.mem_map.1 hp
    have hmem : c ∈ b.constants := hconstants ▸ List.mem_append_left _ hcf
    exact hunequal (hbranches b (by simp) c hmem) fun heq => hfront (heq ▸ hcf)

/-- A CASE statement that finds nothing leaves a message. -/
theorem exists_visit_unmatched (hk : n.kind = .select) (hc : n.children = selector :: branches)
    (hbranches : ∀ b ∈ branches, Shaped .branch b) (hselector : Evaluates level m selector v)
    (hnone : v.choose (choices branches) = .ok none) :
    ∃ least, ∀ fuel, least ≤ fuel → visit level fuel n m = statement (trace level 3 fun _ =>
      (Yield.value v).description?.map (unmatchedMessage n.line)) m := by
  obtain ⟨least, hleast⟩ := exists_visit_select hk hc hbranches hselector
  refine ⟨least + 2, fun fuel hle => ?_⟩
  obtain ⟨fuel, rfl⟩ : ∃ k, fuel = k + 2 := ⟨fuel - 2, by omega⟩
  rw [hleast fuel (by omega), hnone]
  rfl

/-- **A CASE statement runs what stands with the first equal constant.** -/
theorem choosesFirst (hk : n.kind = .select) (hc : n.children = selector :: branches)
    (hbranches : ∀ b ∈ branches, Shaped .branch b) (hselector : Evaluates level m selector v) :
    ChoosesFirst level m n selector branches v where
  first before c s after hrow hbefore heq :=
    actsAs_of_choose hk hc hbranches hselector (hrow ▸ Value.choose_eq_some hbefore heq)
  later before c s after n' branches' hrow hbefore heq hk' hc' hbranches' hbegin := by
    obtain ⟨after', hrow'⟩ := hbegin
    rw [List.append_assoc] at hrow'
    exact actsAs_of_choose_choose hk hc hbranches hk' hc' hbranches' hselector
      (hrow ▸ Value.choose_eq_some hbefore heq) (hrow' ▸ Value.choose_eq_some hbefore heq)
  none hrow hshown := by
    obtain ⟨least, hleast⟩ :=
      exists_visit_unmatched hk hc hbranches hselector (Value.choose_eq_none hrow)
    obtain ⟨log, hlog⟩ := exists_trace_of_not_untold hshown (unmatchedMessage n.line) m
    refine ⟨least, { m with log }, fun fuel hle => ?_, rfl, rfl, fun hlevel => ?_⟩
    · rw [hleast fuel hle, statement, bind_of_ok hlog]
      rfl
    · rw [trace_eq hlevel] at hlog
      exact (EStateM.Result.ok.inj hlog).2.symm
  untold hrow hhidden := by
    obtain ⟨least, hleast⟩ :=
      exists_visit_unmatched hk hc hbranches hselector (Value.choose_eq_none hrow)
    refine ⟨least, fun fuel hle => ?_⟩
    rw [hleast fuel hle, statement, bind_of_error (trace_of_untold hhidden _ m)]
  fails before c s after f hrow hbefore hfault := by
    obtain ⟨least, hleast⟩ := exists_visit_select hk hc hbranches hselector
    refine ⟨least + 2, fun fuel hle => ?_⟩
    obtain ⟨fuel, rfl⟩ : ∃ k, fuel = k + 2 := ⟨fuel - 2, by omega⟩
    rw [hleast fuel (by omega), hrow, Value.choose_eq_error hbefore hfault]
    rfl
  lists k before b after labels s hv hintegers hsplit hbc hmem hbefore := by
    subst hv hsplit
    exact actsAs_of_choose hk hc hbranches hselector
      (choose_choices_of_integers hintegers hbc hmem hbefore)

end Run

theorem Shaped.children_select {role : Role} {n : Node} (h : Shaped role n) (hk : n.kind = .select) :
    ∃ selector branches, n.children = selector :: branches ∧ ∀ b ∈ branches, Shaped .branch b := by
  induction h with
  | number _ ih | ofVariable _ ih | ofConstant _ ih | ofLeaf _ ih | assignment _ _ _ ih => exact ih hk
  | select _ _ hns => exact ⟨_, _, rfl, hns⟩
  | write _ hw => rcases hw with rfl | rfl <;> cases hk
  | @binary _ kind _ _ hb =>
    dsimp only at hk
    subst hk
    cases hb
  | _ => cases hk

/-- **CASE runs the first matching branch only.** Take any CASE statement in the tree of a text without
errors, at any level of detail of the trace, and any machine on which its selector has a value. All
labels of its branches are constants. The value is compared with them from left to right, and the
statement of the branch with the first equal one is what runs, on the machine as it is. -/
theorem case_runs_first_match {source : Text} {declared : SymbolTable}
    (h : (parse source declared #[]).errorCount = .ok 0) :
    ∃ tree, (parse source declared #[]).tree = .ok tree ∧ ∀ n, tree.HasNode n → n.kind = .select →
      ∃ selector branches, n.children = selector :: branches ∧
        (∀ b ∈ branches, ∃ labels s, b.children = [labels, s] ∧
          labels.children.map Node.constant? = b.constants.map some) ∧
        ∀ level m v, Run.Evaluates level m selector v →
          Run.ChoosesFirst level m n selector branches v := by
  obtain ⟨tree, htree, hshaped, -⟩ := exists_tree_of_errorCount h
  refine ⟨tree, htree, fun n hn hk => ?_⟩
  obtain ⟨role, hrole⟩ := hshaped.exists_role hn
  obtain ⟨selector, branches, hc, hbranches⟩ := hrole.children_select hk
  refine ⟨selector, branches, hc, fun b hb => ?_, fun level m v => Run.choosesFirst hk hc hbranches⟩
  obtain ⟨labels, s, hbc, -, -, hconstants⟩ := (hbranches b hb).exists_labels
  exact ⟨labels, s, hbc, hconstants⟩

/-- The third branch lists the value, too, and so does the second one once more. -/
theorem case_runs_first_match_twice :
    let p := parse "PROGRAM a; BEGIN CASE x OF 1: write('a'); 3, 2, 2: write('b'); 2: write('c') END END."
      ⟨[("x", .nothing)]⟩ #[]
    let m : Machine := ⟨⟨[("x", .value (.integer 2))]⟩, #[], #[]⟩
    p.errorCount = .ok 0 ∧ ∃ tree n s, p.tree = .ok tree ∧ tree.HasNode n ∧ n.kind = .select ∧
      s.children.head?.bind (·.value.display?) = some (Text.ofString "b") ∧ Run.ActsAs 0 m n s := by
  intro p m
  let written (s : Node) : Option Text := s.children.head?.bind (·.value.display?)
  have hp : p.errorCount.toOption = some 0 ∧ ((p.tree.toOption.bind (Node.statement? 0)).map fun n =>
      (n.kind, n.children.head?.map fun v => (v.kind, v.slot))) =
        some (.select, some (.var, some (Text.ofString "x"))) ∧
      ((p.tree.toOption.bind (Node.statement? 0)).map fun n =>
        (Node.choices n.children.tail).map fun c => (c.1, written c.2)) =
          some [(.integer 1, some (Text.ofString "a")), (.integer 3, some (Text.ofString "b")),
            (.integer 2, some (Text.ofString "b")), (.integer 2, some (Text.ofString "b")),
            (.integer 2, some (Text.ofString "c"))] := by
    decide +kernel
  obtain ⟨hcount, hkind, hrow⟩ := hp
  have hcount : p.errorCount = .ok 0 := eq_ok_of_toOption hcount
  obtain ⟨tree, htree, hcases⟩ := case_runs_first_match hcount
  have htree : p.tree = .ok tree := htree
  rw [htree] at hkind hrow
  obtain ⟨n, hn, hkind⟩ := Option.map_eq_some_iff.1 hkind
  rw [hn] at hrow
  have hmem : tree.HasNode n := .of_statement? hn
  obtain ⟨hk, hvariable⟩ := Prod.mk.inj hkind
  obtain ⟨selector, branches, hc, -, hchooses⟩ := hcases n hmem hk
  rw [hc, List.head?_cons, Option.map_some] at hvariable
  obtain ⟨hvar, hslot⟩ := Prod.mk.inj (Option.some.inj hvariable)
  have hselector : Run.Evaluates 0 m selector (.integer 2) :=
    ⟨1, Run.visit_var hvar hslot rfl rfl 0 0⟩
  rw [Option.map_some, hc, List.tail_cons] at hrow
  obtain ⟨⟨c₁, s₁⟩, row₁, hrow, h₁, hrow₁⟩ := List.map_eq_cons_iff.1 (Option.some.inj hrow)
  obtain ⟨⟨c₂, s₂⟩, row₂, rfl, h₂, hrow₂⟩ := List.map_eq_cons_iff.1 hrow₁
  obtain ⟨⟨c₃, s₃⟩, row₃, rfl, h₃, -⟩ := List.map_eq_cons_iff.1 hrow₂
  obtain ⟨rfl, -⟩ := Prod.mk.inj h₁
  obtain ⟨rfl, -⟩ := Prod.mk.inj h₂
  obtain ⟨rfl, hwritten⟩ := Prod.mk.inj h₃
  refine ⟨hcount, tree, n, s₃, htree, hmem, hk, hwritten, ?_⟩
  refine (hchooses 0 m _ hselector).first [(.integer 1, s₁), (.integer 3, s₂)] _ s₃ row₃ hrow ?_ rfl
  simp [Value.equals]

/-- From level three on a selector that cannot be shown stops the run where no branch is for it. -/
theorem unmatched_selector_stops :
    let p := parse "PROGRAM a; BEGIN CASE x OF 1: write('a') END END." ⟨[("x", .nothing)]⟩ #[]
    let table : SymbolTable := ⟨[("x", .value (.integer (10 ^ 4300)))]⟩
    p.errorCount = .ok 0 ∧ ∃ tree n selector branches v e, p.tree = .ok tree ∧ tree.HasNode n ∧
      n.kind = .select ∧ n.children = selector :: branches ∧
      Run.Evaluates 3 ⟨table, #[], #[]⟩ selector v ∧
      (∀ c ∈ Node.choices branches, v.equals c.1 = .ok false) ∧ Ends 3 n table e ∧
      e.stop = some (.fault (.number .overlong)) := by
  intro p table
  have hp : p.errorCount.toOption = some 0 ∧ (do
      let n ← p.tree.toOption.bind (Node.statement? 0)
      let selector ← n.children.head?
      return ((n.kind, selector.kind, selector.slot), (Node.choices n.children.tail).map (·.1),
        (execute 3 20 n table).stop)) =
        some ((.select, .var, some (Text.ofString "x")), [.integer 1],
          some (.fault (.number .overlong))) := by
    decide +kernel
  obtain ⟨hcount, hrun⟩ := hp
  have hcount : p.errorCount = .ok 0 := eq_ok_of_toOption hcount
  obtain ⟨tree, htree, -⟩ := exists_tree_of_errorCount hcount
  have htree : p.tree = .ok tree := htree
  obtain ⟨n, hn, hrun⟩ := Option.bind_eq_some_iff.1 hrun
  rw [htree] at hn
  have hmem : tree.HasNode n := .of_statement? hn
  obtain ⟨selector, hhead, hrun⟩ := Option.bind_eq_some_iff.1 hrun
  obtain ⟨hkinds, hrun⟩ := Prod.mk.inj (Option.some.inj hrun)
  obtain ⟨hk, hvariable⟩ := Prod.mk.inj hkinds
  obtain ⟨hvar, hslot⟩ := Prod.mk.inj hvariable
  obtain ⟨hrow, hstop⟩ := Prod.mk.inj hrun
  obtain ⟨branches, hc⟩ : ∃ branches, n.children = selector :: branches :=
    List.head?_eq_some_iff.1 hhead
  rw [hc, List.tail_cons] at hrow
  refine ⟨hcount, tree, n, selector, branches, .integer (10 ^ 4300), _, htree, hmem, hk, hc,
    ⟨1, Run.visit_var hvar hslot rfl rfl 3 0⟩, fun c hmem => ?_, ends_of_stop_ne (by simp [hstop]), hstop⟩
  have hone : c.1 ∈ [Value.integer 1] := hrow ▸ List.mem_map_of_mem hmem
  rw [List.mem_singleton.1 hone]
  decide +kernel

end MiniPascal

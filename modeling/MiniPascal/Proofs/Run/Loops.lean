import MiniPascal.Proofs.Grammar.Declaration
import MiniPascal.Proofs.Run.Frame
import MiniPascal.Proofs.Run.Rounds

/-!
# One loop for all

FOR and REPEAT loops can be written with WHILE: a FOR loop as its assignment and then a WHILE loop that
tests whether the control variable is past the limit and steps it behind the body, a REPEAT loop as its
statements and then a WHILE loop of the same ones.

The three loops are brought to one form, their rounds (`MiniPascal.Run.rounds`). What parts a FOR loop from
the WHILE loop is the order in which things are looked at. It asks for the limit first and for the
control variable then, and it does so without visiting a variable, so that it would not notice in the
same way that the variable holds nothing. But the variable always holds something: the assignment sees
to it, and the body cannot undo that (`MiniPascal.Machine.Framed`). This is the invariant of the rounds.

Written in another way a loop needs more fuel, as there are more nodes below each other. Therefore the
rounds stand for the run of either form (`MiniPascal.Run.Enacts`), and it is the rounds that are compared.
They leave different messages in a trace: the test of a REPEAT loop leaves one that a condition does not,
and a step that is written as an assignment leaves one that the step of a FOR loop does not. The rounds are
in step all the same (`MiniPascal.Run.InStep`), unless the message of such a step cannot be made.

* `MiniPascal.Node.forAsWhile`, `MiniPascal.Node.repeatAsWhile`: the loops with WHILE.
* `MiniPascal.SameRun`: two trees that run in the same way.
* `MiniPascal.loops_as_while`: the loops of a text and what they are with WHILE.
-/

namespace MiniPascal

open Node

/-! ### The loops with WHILE -/

namespace Node

/-- The control variable is not past the limit: it is not greater than it, or not less if the loop
goes down. -/
def withinLimit (n v limit : Node) : Node where
  kind := .not
  line := n.line
  children := [{
    kind := if n.descending then .less else .greater
    line := n.line
    children := [v, limit] }]

/-- The step of the control variable: one is added to it, or minus one if the loop goes down. -/
def stepped (n v : Node) : Node where
  kind := .assign
  line := n.line
  children := [v, {
    kind := .add
    line := n.line
    children := [v, {
      kind := .integerConstant
      line := n.line
      text := .text (Numeral.write (Run.stepOf n.descending))
      value := .int (Run.stepOf n.descending) }] }]

/-- **A FOR loop with WHILE**: its assignment, and behind every round a step of the control variable,
as long as this is within the limit. -/
def forAsWhile (n init v limit body : Node) : Node where
  kind := .compound
  line := n.line
  children := [init, {
    kind := .whileLoop
    line := n.line
    children := [n.withinLimit v limit, {
      kind := .compound
      line := n.line
      children := [body, n.stepped v] }] }]

/-- **A REPEAT loop with WHILE**: its statements, and then the same ones as long as the condition of the
loop does not hold. -/
def repeatAsWhile (n : Node) (ns : List Node) (c : Node) : Node where
  kind := .compound
  line := n.line
  children := ns ++ [{
    kind := .whileLoop
    line := n.line
    children := [{ kind := .not, line := n.line, children := [c] },
      { kind := .compound, line := n.line, children := ns }] }]

end Node

namespace Run

variable {n v e limit body t c : Node} {ns : List Node} {key : Text} {m : Machine} {level : Int}

/-- A variable that holds something gives it. -/
theorem visit_var {y : Yield} (hk : v.kind = .var) (hs : v.slot = some key)
    (hy : m.table.get? key = some y) (hsome : y.isNothing = false) (level : Int) (fuel : Nat) :
    visit level (fuel + 1) v m = .ok y m := by
  have hload : load v.slot m = .ok y m := by rw [hs, load_eq hy]
  rw [visit, visitNode, hk]
  dsimp only
  rw [variableValue, bind_of_ok hload, hsome]
  rfl

/-- The opposite of a condition has the opposite truth. -/
theorem truthOf_not (hk : n.kind = .not) (hc : n.children = [c]) (level : Int) (fuel : Nat) :
    truthOf .kind (visit level (fuel + 1) n) = not <$> truthOf .kind (visit level fuel c) := by
  rw [visit, visitNode, hk]
  simp only [truthOf, condition, operand, child, hc, List.getElem?_cons_zero, map_eq_pure_bind,
    bind_assoc, pure_bind, valueOf_value, Value.truth]

/-- A comparison has the truth of the relation between what its operands give. -/
theorem truthOf_comparison {l r : Node} (hc : n.children = [l, r]) (op : RelationalOp)
    (visit : Node → Run Yield) :
    truthOf .kind (comparison visit op n) = (do
      let left ← visit l
      let right ← visit r
      let values ← bothValues left right
      ofExcept (Value.relation n.line op values.1 values.2)) := by
  simp only [truthOf, comparison, operands, child, hc, List.getElem?_cons_zero,
    List.getElem?_cons_succ, bind_assoc, pure_bind, valueOf_value, Value.compare]
  refine bind_congr fun left => bind_congr fun right => bind_congr fun values => ?_
  cases Value.relation n.line op values.1 values.2 <;> rfl

/-- **The test of the WHILE loop is that of the FOR loop**, where the control variable holds
something. -/
theorem truthOf_withinLimit (hv : v.kind = .var) (hs : v.slot = some key)
    (hlimit : Shaped .expression limit) (hm : m.table.Holds key) (level : Int) (fuel : Nat) :
    truthOf .kind (visit level (fuel + 3) (n.withinLimit v limit)) m =
      goesOn n.line (some key) n.descending (visit level (fuel + 1) limit) m := by
  obtain ⟨y, hy, hsome⟩ := hm
  have hvar := visit_var hv hs hy hsome level fuel
  let past : Node := {
    kind := if n.descending then .less else .greater
    line := n.line
    children := [v, limit] }
  have hpast : visit level (fuel + 2) past =
      comparison (visit level (fuel + 1)) (pastOp n.descending) past := by
    rw [visit, visitNode]
    dsimp only [past, pastOp]
    cases n.descending <;> rfl
  rw [truthOf_not (c := past) rfl rfl, hpast, truthOf_comparison rfl, map_eq_pure_bind, bind_assoc,
    bind_of_ok hvar]
  cases hl : visit level (fuel + 1) limit m with
  | ok bound m₁ =>
    obtain rfl := eq_of_visit_expression_ok hlimit hl
    rw [bind_assoc, bind_of_ok hl, goesOn, bind_of_ok hl, bind_of_ok (load_eq hy)]
    simp only [bind_assoc]
    rfl
  | error stop m₁ =>
    rw [bind_assoc, bind_of_error hl, goesOn, bind_of_error hl]

/-- An arithmetic operation gives the outcome for what its operands give. -/
theorem arithmetic_eq {l r : Node} (hc : n.children = [l, r]) (op : ArithmeticOp)
    (visit : Node → Run Yield) :
    arithmetic visit op n = (do
      let left ← visit l
      let right ← visit r
      let values ← bothValues left right
      return .value (← ofExcept (Value.arithmetic n.line op values.1 values.2))) := by
  simp only [arithmetic, operands, child, hc, List.getElem?_cons_zero, List.getElem?_cons_succ,
    bind_assoc, pure_bind]

/-- What holds something goes on doing so. -/
theorem holds_of_visit_ok {role : Role} {m' : Machine} {y : Yield} (hbody : Shaped role body)
    (hm : m.table.Holds key) (h : visit level fuel body m = .ok y m') : m'.table.Holds key := by
  have hframed := (Discipline.frame body).obeys_visit hbody level fuel .root m
  rw [after_of_ok h] at hframed
  exact hframed.holds key hm

/-- **The step of the WHILE loop is that of the FOR loop**, where the control variable holds something, and
it leaves a message. -/
theorem perform_stepped {name : Text} (hv : v.kind = .var) (hs : v.slot = some key)
    (ht : v.text = .text name) (hm : m.table.Holds key) (level : Int) (fuel : Nat) :
    perform (visit level (fuel + 3) (n.stepped v)) m =
      (do
        let y ← step n.line (some key) n.descending
        trace level 2 fun _ => y.description?.map (assignmentMessage n.line name)) m := by
  obtain ⟨y, hy, hsome⟩ := hm
  have hvar := visit_var hv hs hy hsome level fuel
  let one : Node := {
    kind := .integerConstant
    line := n.line
    text := .text (Numeral.write (stepOf n.descending))
    value := .int (stepOf n.descending) }
  let sum : Node := { kind := .add, line := n.line, children := [v, one] }
  have hone : visit level (fuel + 1) one = pure (.value (.integer (stepOf n.descending))) := rfl
  have hsum : visit level (fuel + 2) sum = arithmetic (visit level (fuel + 1)) .add sum := rfl
  rw [perform, visit_assign (e := sum) rfl rfl hs ht, hsum, arithmetic_eq rfl, hone]
  simp only [statement, bind_assoc, pure_bind, bothValues, valueOf_value]
  rw [bind_of_ok hvar, step]
  simp only [bind_assoc, pure_bind, bind_pure_unit]
  rw [bind_of_ok (load_eq hy)]
  rfl

/-- **The body of the WHILE loop is that of the FOR loop** with a step that leaves a message, where the
control variable holds something. -/
theorem perform_body {role : Role} {line : Int} {name : Text} (hv : v.kind = .var)
    (hs : v.slot = some key) (ht : v.text = .text name) (hbody : Shaped role body)
    (hm : m.table.Holds key) (level : Int) (fuel : Nat) :
    perform (visit level (fuel + 4) { kind := .compound, line, children := [body, n.stepped v] }) m =
      advanceTold level (assignmentMessage n.line name) n.line (some key) n.descending
        (visit level (fuel + 3) body) m := by
  have hcompound :
      perform (visit level (fuel + 4) { kind := .compound, line, children := [body, n.stepped v] }) =
        visit level (fuel + 3) body >>= fun _ => perform (visit level (fuel + 3) (n.stepped v)) := by
    rw [visit, visitNode]
    simp only [perform, statement, visitAll, bind_assoc, pure_bind]
  rw [hcompound, advanceTold]
  cases hb : visit level (fuel + 3) body m with
  | ok y m₁ =>
    rw [bind_of_ok hb, bind_of_ok hb, perform_stepped hv hs ht (holds_of_visit_ok hbody hm hb)]
  | error stop m₁ => rw [bind_of_error hb, bind_of_error hb]

end Run

/-! ### FOR loops -/

/-- **A FOR loop in rounds**: its assignment and then its tests and bodies, which are as given by what
visiting its statement does. -/
def Run.forRounds (level : Int) (n init v limit body : Node) (round : Run Yield → Run Unit)
    (fuel : Nat) : Run Yield :=
  statement do
    let _ ← visit level fuel init
    rounds (goesOn n.line v.slot n.descending (visit level fuel limit)) (round (visit level fuel body))
      fuel

/-- **The parts of a FOR loop**: the assignment with its control variable, the limit and the body. -/
structure Node.ForParts (n init v a limit body : Node) (key : Text) : Prop where
  kind : n.kind = .forLoop
  children : n.children = [init, limit, body]
  init_kind : init.kind = .assign
  init_children : init.children = [v, a]
  control : v.kind = .var
  slot : v.slot = some key
  text : ∃ name, v.text = .text name
  start : Shaped .expression a
  limit : Shaped .expression limit
  body : Shaped .statement body

theorem Shaped.exists_forParts {role : Role} {n : Node} (h : Shaped role n) (hk : n.kind = .forLoop) :
    ∃ init v a limit body key, n.ForParts init v a limit body key := by
  obtain ⟨init, limit, body, hc, hinit, hlimit, hbody⟩ := h.children_forLoop hk
  obtain ⟨v, a, hi, hv, ha⟩ := hinit.children_assign hinit.kind_assignment
  obtain ⟨name, ht, hs, -⟩ := hv.mentions_variable
  have hcontrol : v.kind = .var := by
    cases hv
    rfl
  exact ⟨init, v, a, limit, body, _,
    hk, hc, hinit.kind_assignment, hi, hcontrol, hs, ⟨name, ht⟩, ha, hlimit, hbody⟩

namespace Node.ForParts

open Run

variable {n init v a limit body : Node} {key name : Text} {role : Role} {level : Int} {fuel : Nat}
  {m m' : Machine} (h : n.ForParts init v a limit body key)
include h

theorem hasNode_control : n.HasNode v :=
  .child (.child .root (by simp [h.children])) (by simp [h.init_children] : v ∈ init.children)

theorem assigns (other : Text) (hs : v.slot = some other) : n.Assigns other :=
  ⟨init, v, .child .root (by simp [h.children]), h.init_kind, by simp [h.init_children], hs⟩

/-- The control variable holds something behind the assignment. -/
theorem holds_of_init {y : Yield} (hkey : key ∈ m.table.names)
    (hinit : visit level (fuel + 1) init m = .ok y m') : m'.table.Holds key := by
  obtain ⟨name, ht⟩ := h.text
  cases ha : visit level fuel a m with
  | ok y' m₁ =>
    obtain rfl := eq_of_visit_expression_ok h.start ha
    rcases visit_assign_of_ok h.init_kind h.init_children h.slot ht ha with ⟨-, hfails⟩ | ⟨log, hends⟩
    · cases hfails.symm.trans hinit
    · cases hends.symm.trans hinit
      exact SymbolTable.holds_store hkey (isNothing_of_mayGive_visit h.start.isExpression ⟨_, _, ha⟩)
  | error stop m₁ =>
    cases (visit_assign_of_error h.init_kind h.init_children h.slot ht ha).symm.trans hinit

/-- It goes on to hold something in the test of a round. -/
theorem holds_of_goesOn {b : Bool} (hn : Shaped role n) (hm : m.table.Holds key)
    (hgoes : goesOn n.line v.slot n.descending (visit level fuel limit) m = .ok b m') :
    m'.table.Holds key := by
  let D := Discipline.frame n
  have hlimit := D.obeys_visit hn level fuel (.child .root (by simp [h.children] : limit ∈ n.children))
  have hobeys : D.Obeys (goesOn n.line v.slot n.descending (visit level fuel limit)) :=
    D.seq hlimit fun bound => D.seq (D.load_slot h.hasNode_control) fun y =>
      D.seq (D.bothValues y bound) fun _ => D.seq (D.ofExcept _) fun _ => D.pure _
  exact after_of_ok hgoes ▸ (hobeys m).holds key hm

/-- It goes on to hold something in the body of a round and in the step. -/
theorem holds_of_advanceTold {u : Unit} {wording : Text → Text} (hn : Shaped role n)
    (hm : m.table.Holds key)
    (hadvance : advanceTold level wording n.line v.slot n.descending (visit level fuel body) m =
      .ok u m') : m'.table.Holds key := by
  let D := Discipline.frame n
  have hacts : n.Acts := ⟨n, .root, by rw [h.kind]; rfl⟩
  have hbody := D.obeys_visit hn level fuel (.child .root (by simp [h.children] : body ∈ n.children))
  have hstep : D.Obeys (step n.line v.slot n.descending) :=
    D.seq (D.load_slot h.hasNode_control) fun y => D.seq (D.valueOf _ y) fun _ =>
      D.seq (D.ofExcept _) fun _ => D.seq (D.store_slot h.assigns rfl) fun _ => D.pure _
  have hobeys : D.Obeys
      (advanceTold level wording n.line v.slot n.descending (visit level fuel body)) :=
    D.seq hbody fun _ => D.seq hstep fun _ => D.trace hacts _ _ _
  exact after_of_ok hadvance ▸ (hobeys m).holds key hm

/-- **A FOR loop does its rounds.** -/
theorem visit_eq_rounds (level : Int) (fuel : Nat) :
    visit level (fuel + 1) n = statement (do
      let _ ← visit level fuel init
      rounds (goesOn n.line v.slot n.descending (visit level fuel limit))
        (advance n.line v.slot n.descending (visit level fuel body)) fuel) := by
  rw [visit, visitNode, h.kind]
  dsimp only
  rw [forStatement, h.children]
  simp only [child, h.init_children, List.getElem?_cons_zero, pure_bind, forLoop_eq_rounds]

/-- **A FOR loop with WHILE does the same rounds** with steps that leave a message, on a machine that has
its control variable. -/
theorem visit_forAsWhile_eq_rounds (ht : v.text = .text name) (hn : Shaped role n)
    (hkey : key ∈ m.table.names) (level : Int) (fuel : Nat) :
    visit level (fuel + 6) (n.forAsWhile init v limit body) m = statement (do
      let _ ← visit level (fuel + 5) init
      rounds (goesOn n.line v.slot n.descending (visit level (fuel + 2) limit))
        (advanceTold level (assignmentMessage n.line name) n.line v.slot n.descending
          (visit level (fuel + 3) body)) (fuel + 4)) m := by
  have hform : visit level (fuel + 6) (n.forAsWhile init v limit body) = statement (do
      let _ ← visit level (fuel + 5) init
      rounds (truthOf .kind (visit level (fuel + 4) (n.withinLimit v limit)))
        (perform (visit level (fuel + 4)
          { kind := .compound, line := n.line, children := [body, n.stepped v] })) (fuel + 4)) := by
    have hwhile : visit level (fuel + 5) {
        kind := .whileLoop
        line := n.line
        children := [n.withinLimit v limit, {
          kind := .compound
          line := n.line
          children := [body, n.stepped v] }] } = statement (whileLoop (visit level (fuel + 4)) _ _ _) := rfl
    rw [visit, visitNode]
    simp only [forAsWhile, visitAll, hwhile, whileLoop_eq_rounds, statement, bind_assoc, pure_bind]
  rw [hform, statement, statement, bind_assoc, bind_assoc]
  cases hinit : visit level (fuel + 5) init m with
  | error stop m₁ => rw [bind_of_error hinit, bind_of_error hinit]
  | ok y m₁ =>
    rw [bind_of_ok hinit, bind_of_ok hinit]
    -- from here on the control variable holds something, and the tests and the bodies are the same
    refine bind_congr_at (Eq.symm (rounds_congr (fun m hm => ?_) (fun m hm => ?_)
      (fun m b m' => h.holds_of_goesOn hn) (fun m m' => h.holds_of_advanceTold hn) _
      (h.holds_of_init hkey hinit))) _
    · rw [h.slot]
      exact (truthOf_withinLimit h.control h.slot h.limit hm level (fuel + 1)).symm
    · rw [h.slot]
      exact (perform_body h.control h.slot ht h.body hm level fuel).symm

/-- **The rounds stand for the FOR loop.** -/
theorem enacts_forLoop (level : Int) (table : SymbolTable) :
    Enacts level table
      (forRounds level n init v limit body (advance n.line v.slot n.descending)) n where
  of_act fuel := ⟨fuel + 1, .inr (by rw [h.visit_eq_rounds, forRounds])⟩
  of_visit fuel := by
    have hmore := visit_approximates level (Nat.le_add_right fuel 1) n ⟨table, #[], #[]⟩
    rw [h.visit_eq_rounds] at hmore
    exact ⟨fuel, hmore⟩

/-- **The rounds with steps that leave a message stand for the loop with WHILE.** -/
theorem enacts_forAsWhile {table : SymbolTable} (ht : v.text = .text name) (hn : Shaped role n)
    (hkey : key ∈ table.names) (level : Int) :
    Enacts level table
      (forRounds level n init v limit body
        (advanceTold level (assignmentMessage n.line name) n.line v.slot n.descending))
      (n.forAsWhile init v limit body) where
  of_act fuel := by
    have hvisit (more : Nat) := visit_approximates level (Nat.le_add_right fuel more)
    refine ⟨fuel + 6, ?_⟩
    rw [ApproximatesAt, h.visit_forAsWhile_eq_rounds ht hn hkey]
    refine Approximates.statement ((hvisit 5 init).bind fun _ => ?_) _
    exact approximates_rounds (approximates_goesOn (hvisit 2 limit) n.line v.slot n.descending)
      (approximates_advanceTold (hvisit 3 body) level _ n.line v.slot n.descending)
      (Nat.le_add_right fuel 4)
  of_visit fuel := by
    have hvisit (few : Nat) (hle : few ≤ 5) :=
      visit_approximates level (Nat.add_le_add_left hle fuel)
    refine ⟨fuel + 5, ?_⟩
    rcases visit_approximates level (Nat.le_add_right fuel 6) (n.forAsWhile init v limit body)
      ⟨table, #[], #[]⟩ with hexhausted | hmore
    · exact .inl hexhausted
    · rw [ApproximatesAt, hmore, h.visit_forAsWhile_eq_rounds ht hn hkey]
      refine Approximates.statement ((Approximates.refl _).bind fun _ => ?_) _
      exact approximates_rounds
        (approximates_goesOn (hvisit 2 (by decide) limit) n.line v.slot n.descending)
        (approximates_advanceTold (hvisit 3 (by decide) body) level _ n.line v.slot n.descending)
        (by omega)

end Node.ForParts

/-! ### REPEAT loops -/

namespace Run

variable {n t c : Node} {ns : List Node} {level : Int}

/-- **A REPEAT loop in rounds**: its statements, and then the same ones as long as the test gives false. -/
def repeatRounds (level : Int) (ns : List Node) (test : Nat → Run Bool) (fuel : Nat) : Run Yield :=
  statement do
    visitAll (visit level fuel) ns
    rounds (not <$> test fuel) (visitAll (visit level fuel) ns) fuel

theorem visitAll_append (visit : Node → Run Yield) (ns ms : List Node) :
    visitAll visit (ns ++ ms) = (do
      visitAll visit ns
      visitAll visit ms) := by
  induction ns with
  | nil => rfl
  | cons n ns ih => simp only [List.cons_append, visitAll, ih, bind_assoc]

/-- The test of a REPEAT loop has the truth of its condition, and leaves a message. -/
theorem truthOf_test (hk : t.kind = .test) (hc : t.children = [c]) (level : Int) (fuel : Nat) :
    truthOf .data (visit level (fuel + 1) t) = (do
      let outcome ← truthOf .kind (visit level fuel c)
      trace level 3 fun _ => some (lineMessage t.line ("until -> " ++ outcomeText outcome))
      return outcome) := by
  rw [visit, visitNode, hk]
  simp only [truthOf, condition, operand, child, hc, List.getElem?_cons_zero, map_eq_pure_bind,
    bind_assoc, pure_bind, valueOf_value, Value.truth]

theorem visit_loop (hk : n.kind = .loop) (hc : n.children = ns ++ [t]) (level : Int) (fuel : Nat) :
    visit level (fuel + 1) n = statement (repeatLoop (visit level fuel) ns t fuel) := by
  rw [visit, visitNode, hk]
  simp only [hc, List.getLast?_append, List.getLast?_singleton, Option.some_or, List.dropLast_concat]

/-- **A REPEAT loop with WHILE in rounds.** -/
theorem visit_repeatAsWhile (n : Node) (ns : List Node) (c : Node) (level : Int) (fuel : Nat) :
    visit level (fuel + 3) (n.repeatAsWhile ns c) = statement (do
      visitAll (visit level (fuel + 2)) ns
      rounds (not <$> truthOf .kind (visit level fuel c)) (visitAll (visit level fuel) ns)
        (fuel + 1)) := by
  have hbody : perform (visit level (fuel + 1) { kind := .compound, line := n.line, children := ns }) =
      visitAll (visit level fuel) ns := by
    rw [visit, visitNode]
    simp only [perform, statement, bind_assoc, pure_bind, bind_pure_unit]
  have hwhile : visit level (fuel + 2) {
      kind := .whileLoop
      line := n.line
      children := [{ kind := .not, line := n.line, children := [c] },
        { kind := .compound, line := n.line, children := ns }] } = statement
        (rounds (not <$> truthOf .kind (visit level fuel c)) (visitAll (visit level fuel) ns)
          (fuel + 1)) := by
    rw [← hbody, ← truthOf_not (n := { kind := .not, line := n.line, children := [c] }) rfl rfl,
      ← whileLoop_eq_rounds]
    rfl
  rw [visit, visitNode]
  simp only [repeatAsWhile, visitAll_append, visitAll, hwhile, statement, bind_assoc, pure_bind]

/-- **The rounds stand for the REPEAT loop.** -/
theorem enacts_loop (hk : n.kind = .loop) (hc : n.children = ns ++ [t]) (level : Int)
    (table : SymbolTable) :
    Enacts level table (repeatRounds level ns fun fuel => truthOf .data (visit level (fuel + 1) t))
      n where
  of_act fuel := by
    have hvisit := visit_approximates level (Nat.le_add_right fuel 1)
    refine ⟨fuel + 2, ?_⟩
    rw [visit_loop hk hc]
    refine Approximates.statement (.trans ?_ (approximates_repeatLoop_of_rounds _ ns t fuel)) _
    exact (approximates_visitAll hvisit ns).bind fun _ =>
      approximates_rounds (.refl _) (approximates_visitAll hvisit ns) (Nat.le_refl fuel)
  of_visit fuel := by
    have hvisit := visit_approximates level (Nat.le_add_right fuel 1)
    refine ⟨fuel, (hvisit n).trans ?_ _⟩
    rw [visit_loop hk hc]
    refine .statement ((repeatLoop_approximates _ ns t fuel).trans (approximates_bind fun _ => ?_))
    exact approximates_rounds ((approximates_truthOf (hvisit t) .data).map not) (.refl _)
      (Nat.le_refl fuel)

/-- **The rounds of the condition stand for the loop with WHILE.** -/
theorem enacts_repeatAsWhile (n : Node) (ns : List Node) (c : Node) (level : Int)
    (table : SymbolTable) :
    Enacts level table (repeatRounds level ns fun fuel => truthOf .kind (visit level fuel c))
      (n.repeatAsWhile ns c) where
  of_act fuel := by
    have hvisit := visit_approximates level (Nat.le_add_right fuel 2)
    refine ⟨fuel + 3, ?_⟩
    rw [visit_repeatAsWhile]
    refine Approximates.statement ((approximates_visitAll hvisit ns).bind fun _ => ?_) _
    exact approximates_rounds (.refl _) (.refl _) (Nat.le_add_right fuel 1)
  of_visit fuel := by
    have hvisit := visit_approximates level (Nat.le_add_right fuel 2)
    refine ⟨fuel + 2, (visit_approximates level (Nat.le_add_right fuel 3) _).trans ?_ _⟩
    rw [visit_repeatAsWhile]
    refine .statement (approximates_bind fun _ => ?_)
    exact approximates_rounds ((approximates_truthOf (hvisit c) .kind).map not)
      (approximates_visitAll hvisit ns) (by omega)

/-- A test is in step with its condition. -/
theorem inStep_test {S : Sides} (hk : t.kind = .test) (hc : t.children = [c]) (fuel : Nat)
    (h : InStep S Eq (visit S.first fuel c) (visit S.second fuel c)) :
    InStep S Eq (truthOf .data (visit S.first (fuel + 1) t)) (truthOf .kind (visit S.second fuel c)) := by
  rw [truthOf_test hk hc, ← bind_pure (truthOf .kind (visit S.second fuel c))]
  refine (inStep_truthOf h .kind).bind_eq fun outcome m m' hm => ?_
  exact agree_bind (agree_trace_pure hm 3 fun _ hnone => by cases hnone) fun _ _ _ _ _ _ hm₁ => .ok rfl hm₁

end Run

/-! ### Trees that run in the same way -/

/-- **Two trees run in the same way on a table**: both diverge, or they end in the same way, with the
same table and output. -/
def SameRun (level : Int) (n n' : Node) (table : SymbolTable) : Prop :=
  Diverges level n table ∧ Diverges level n' table ∨
    ∃ e e', Ends level n table e ∧ Ends level n' table e' ∧ e.stop = e'.stop ∧ e.table = e'.table ∧
      e.output = e'.output

/-- Two runs at the same level whose actions are in step run in the same way, or the first one stops
alone. -/
theorem sameRun_of_inStep {level : Int} (tree : Node) {n n' : Node} {table : SymbolTable}
    {alone : SymbolTable → Prop} {act act' : Nat → Run Yield} (hact : Run.Enacts level table act n)
    (hact' : Run.Enacts level table act' n')
    (h : ∀ fuel, Run.InStep (.level .exact level tree table.names alone) Eq (act fuel) (act' fuel)) :
    SameRun level n n' table ∨
      ∃ e, Ends level n table e ∧ e.stop = some (.fault (.number .overlong)) ∧ alone e.table := by
  rcases Sides.runs hact hact' h rfl with hdiverge | ⟨e, e', he, he', halike, -⟩ | hends
  · exact .inl (.inl hdiverge)
  · exact .inl (.inr ⟨e, e', he, he', halike.stop_eq, halike.table, halike.output⟩)
  · exact .inr hends

section Loops

variable {n : Node} {level : Int} {table : SymbolTable} (hself : n.Alike .exact n)
include hself

/-- The parts of a tree are visited in step with themselves. -/
theorem inStep_part {alone : SymbolTable → Prop} {c : Node} (hc : n.HasNode c) (fuel : Nat) :
    Run.InStep (.level .exact level n table.names alone) Eq (Run.visit level fuel c)
      (Run.visit level fuel c) :=
  Run.inStep_visit fuel ⟨hself.of_hasNode hc, fun _ => hc⟩

/-- **A FOR loop and the loop with WHILE** run in the same way, or the second one stops because it has to
show what the control variable holds. -/
theorem Node.ForParts.sameRun_forAsWhile {init v a limit body : Node} {key : Text} {role : Role}
    (h : n.ForParts init v a limit body key) (hn : Shaped role n) (hkey : key ∈ table.names) :
    SameRun level (n.forAsWhile init v limit body) n table ∨
      ∃ e, Ends level (n.forAsWhile init v limit body) table e ∧
        e.stop = some (.fault (.number .overlong)) ∧ Run.UntoldAt level key e.table := by
  obtain ⟨name, ht⟩ := h.text
  let S : Sides := .level .exact level n table.names (Run.UntoldAt level key)
  have hpart {c : Node} (hc : c ∈ n.children) (fuel : Nat) :
      Run.InStep S Eq (Run.visit level fuel c) (Run.visit level fuel c) :=
    inStep_part hself (.child .root hc) fuel
  refine sameRun_of_inStep n (h.enacts_forAsWhile ht hn hkey level) (h.enacts_forLoop level table)
    fun fuel => ?_
  refine ((hpart (by simp [h.children]) fuel).bind_eq fun _ => ?_).statement
  rw [h.slot]
  exact Run.inStep_rounds (Run.inStep_goesOn (hpart (by simp [h.children]) fuel) _ _ _)
    (Run.inStep_advanceTold (hpart (by simp [h.children]) fuel) hkey (fun _ => id) _ _ _) fuel

/-- **A REPEAT loop and the loop with WHILE** run in the same way. -/
theorem sameRun_repeatAsWhile {ns : List Node} {t c : Node} (hk : n.kind = .loop)
    (hc : n.children = ns ++ [t]) (ht : t.kind = .test) (htc : t.children = [c]) :
    SameRun level n (n.repeatAsWhile ns c) table := by
  let S : Sides := .level .exact level n table.names fun _ => False
  have hbody (fuel : Nat) : Run.InStep S Eq (Run.visitAll (Run.visit level fuel) ns)
      (Run.visitAll (Run.visit level fuel) ns) :=
    Run.inStep_visitAll (Run.inStep_visit fuel) (List.forall₂_same.2 fun m hm =>
      have hm : n.HasNode m := .child .root (by simp [hc, hm])
      ⟨hself.of_hasNode hm, fun _ => hm⟩)
  have htest (fuel : Nat) : Run.InStep S Eq (Run.visit level fuel c) (Run.visit level fuel c) :=
    inStep_part hself (.child (.child .root (by simp [hc])) (by simp [htc] : c ∈ t.children)) fuel
  have hsame := sameRun_of_inStep n (Run.enacts_loop hk hc level table)
    (Run.enacts_repeatAsWhile n ns c level table) fun fuel =>
      ((hbody fuel).bind_eq fun _ => Run.inStep_rounds
        ((Run.inStep_test ht htc fuel (htest fuel)).map_eq not) (hbody fuel) fuel).statement
  rcases hsame with hsame | ⟨e, -, -, halone⟩
  · exact hsame
  · exact halone.elim

end Loops

/-- **FOR and REPEAT loops are WHILE loops.** Take any such loop in the tree of a text without errors,
and run it on any values of the variables, at any level of the trace. A FOR loop runs in the same way as
its assignment and then a WHILE loop that tests the control variable against the limit and steps it behind
the body, with the operators on the line of the FOR loop. A REPEAT loop runs in the same way as its
statements and then a WHILE loop of the same statements, as long as the condition does not hold.

There is one exception. From level two of the trace on there is a message for every assignment, and so for
the step that is written as one. If the control variable comes to hold something that cannot be shown, the
loop with WHILE stops there, and the FOR loop need not. -/
theorem loops_as_while {source : Text} {declared : SymbolTable}
    (h : (parse source declared #[]).errorCount = .ok 0) :
    ∃ tree, (parse source declared #[]).tree = .ok tree ∧
      ∀ (level : Int) (table : SymbolTable) (n : Node),
        (∀ key ∈ (parse source declared #[]).table.names, key ∈ table.names) → tree.HasNode n →
        (n.kind = .forLoop → ∃ init v a limit body key, n.children = [init, limit, body] ∧
          init.kind = .assign ∧ init.children = [v, a] ∧ v.slot = some key ∧
          (SameRun level (n.forAsWhile init v limit body) n table ∨
            ∃ e, Ends level (n.forAsWhile init v limit body) table e ∧
              e.stop = some (.fault (.number .overlong)) ∧ Run.UntoldAt level key e.table)) ∧
        (n.kind = .loop → ∃ ns t c, n.children = ns ++ [t] ∧ t.kind = .test ∧ t.children = [c] ∧
          SameRun level n (n.repeatAsWhile ns c) table) := by
  obtain ⟨tree, htree, hshaped, hanchored, -⟩ := exists_tree_of_errorCount h
  obtain ⟨hbuilt, -⟩ := exists_meets_of_tree htree
  refine ⟨tree, htree, fun level table n hnames hn => ?_⟩
  obtain ⟨role, hrole⟩ := hshaped.exists_role hn
  have hself : n.Alike .exact n := hbuilt.alike_self.of_hasNode hn
  refine ⟨fun hk => ?_, fun hk => ?_⟩
  · obtain ⟨init, v, a, limit, body, key, hparts⟩ := hrole.exists_forParts hk
    have hinit : tree.HasNode init := .child hn (by simp [hparts.children])
    have hv : tree.HasNode v := .child hinit (by simp [hparts.init_children])
    exact ⟨init, v, a, limit, body, key, hparts.children, hparts.init_kind, hparts.init_children,
      hparts.slot, hparts.sameRun_forAsWhile hself hrole (hnames key (hanchored.slot v key hv hparts.slot))⟩
  · obtain ⟨ns, t, c, hc, ht, htc⟩ := hrole.children_loop hk
    exact ⟨ns, t, c, hc, ht, htc, sameRun_repeatAsWhile hself hk hc ht htc⟩

/-- A loop that doubles its control variable, which is stepped all the same. -/
theorem loops_as_while_doubling :
    let p := parse "PROGRAM a; BEGIN FOR i := 1 TO 3 DO BEGIN writeln(i); i := i * 2 END END." .empty #[]
    p.errorCount = .ok 0 ∧ ∃ tree n init v limit body e e', p.tree = .ok tree ∧ tree.HasNode n ∧
      n.children = [init, limit, body] ∧ Ends 0 n p.table e ∧
      Ends 0 (n.forAsWhile init v limit body) p.table e' ∧ e.stop = none ∧ e'.stop = none ∧
      e.table = e'.table ∧ e.output = "1\n3\n" ∧ e'.output = "1\n3\n" := by
  intro p
  have hp : p.errorCount.toOption = some 0 ∧ ((p.tree.toOption.bind (Node.statement? 0)).map fun n =>
      (n.kind, (execute 0 20 n p.table).stop, (execute 0 20 n p.table).output)) =
        some (.forLoop, none, Text.ofString "1\n3\n") := by
    decide +kernel
  obtain ⟨hcount, hrun⟩ := hp
  have hcount : p.errorCount = .ok 0 := eq_ok_of_toOption hcount
  obtain ⟨tree, htree, hloops⟩ := loops_as_while hcount
  have htree : p.tree = .ok tree := htree
  rw [htree] at hrun
  obtain ⟨n, hn, hrun⟩ := Option.map_eq_some_iff.1 hrun
  have hmem : tree.HasNode n := .of_statement? hn
  obtain ⟨hk, hrun⟩ := Prod.mk.inj hrun
  obtain ⟨hstop, houtput⟩ := Prod.mk.inj hrun
  have hends : Ends 0 n p.table (execute 0 20 n p.table) := ends_of_stop_ne (by simp [hstop])
  obtain ⟨hfor, -⟩ := hloops 0 p.table n (fun _ => id) hmem
  obtain ⟨init, v, -, limit, body, key, hc, -, -, -, hsame | ⟨e, -, -, y, -, hu⟩⟩ := hfor hk
  · rcases hsame with ⟨-, hdiverges⟩ | ⟨e', e, he', he, hstops, htables, houtputs⟩
    · cases hstop.symm.trans (hdiverges 20)
    · obtain rfl := he.unique hends
      exact ⟨hcount, tree, n, init, v, limit, body, _, e', htree, hmem, hc, he, he', hstop,
        hstops.trans hstop, htables.symm, houtput, houtputs.trans houtput⟩
  · exact absurd hu (Run.not_untold_of_lt (by decide))

/-- A loop over the last integer that can be shown and the one after it. -/
theorem step_stops_as_assignment :
    let p := parse "PROGRAM a; BEGIN x := 0; FOR i := x TO x + 1 DO write('a') END." .empty #[]
    let table := p.table.store "x" (.value (.integer (10 ^ 4300 - 1)))
    p.errorCount = .ok 0 ∧ ∃ tree n init v limit body e e', p.tree = .ok tree ∧ tree.HasNode n ∧
      n.kind = .forLoop ∧ n.children = [init, limit, body] ∧ init.children.head? = some v ∧
      Ends 2 n table e ∧ Ends 2 (n.forAsWhile init v limit body) table e' ∧
      e.stop = none ∧ e'.stop = some (.fault (.number .overlong)) ∧ e.output = "aa" ∧ e'.output = "a" := by
  intro p table
  have hp : p.errorCount.toOption = some 0 ∧ (do
      let n ← p.tree.toOption.bind (Node.statement? 1)
      let init ← n.children[0]?
      let limit ← n.children[1]?
      let body ← n.children[2]?
      let v ← init.children.head?
      let e := execute 2 20 n table
      let e' := execute 2 20 (n.forAsWhile init v limit body) table
      return (n.kind, (e.stop, e.output), e'.stop, e'.output)) =
        some (.forLoop, (none, Text.ofString "aa"), some (.fault (.number .overlong)),
          Text.ofString "a") := by
    decide +kernel
  obtain ⟨hcount, hrun⟩ := hp
  have hcount : p.errorCount = .ok 0 := eq_ok_of_toOption hcount
  obtain ⟨tree, htree, hshaped, -⟩ := exists_tree_of_errorCount hcount
  have htree : p.tree = .ok tree := htree
  obtain ⟨n, hn, hrun⟩ := Option.bind_eq_some_iff.1 hrun
  rw [htree] at hn
  have hmem : tree.HasNode n := .of_statement? hn
  obtain ⟨init, hinit, hrun⟩ := Option.bind_eq_some_iff.1 hrun
  obtain ⟨limit, hlimit, hrun⟩ := Option.bind_eq_some_iff.1 hrun
  obtain ⟨body, hbody, hrun⟩ := Option.bind_eq_some_iff.1 hrun
  obtain ⟨v, hv, hrun⟩ := Option.bind_eq_some_iff.1 hrun
  obtain ⟨hk, hrun⟩ := Prod.mk.inj (Option.some.inj hrun)
  obtain ⟨hfor, hrun⟩ := Prod.mk.inj hrun
  obtain ⟨hstop, houtput⟩ := Prod.mk.inj hfor
  obtain ⟨hstop', houtput'⟩ := Prod.mk.inj hrun
  -- the parts that are looked up are all that there are
  obtain ⟨role, hrole⟩ := hshaped.exists_role hmem
  obtain ⟨init₁, limit₁, body₁, hc, -⟩ := hrole.children_forLoop hk
  rw [hc] at hinit hlimit hbody
  cases hinit
  cases hlimit
  cases hbody
  exact ⟨hcount, tree, n, _, v, _, _, _, _, htree, hmem, hk, hc, hv, ends_of_stop_ne (by simp [hstop]),
    ends_of_stop_ne (by simp [hstop']), hstop, hstop', houtput, houtput'⟩

end MiniPascal

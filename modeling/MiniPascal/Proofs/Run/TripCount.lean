import MiniPascal.Proofs.Node.Occurrence
import MiniPascal.Proofs.Run.Evaluation
import MiniPascal.Proofs.Run.Loops

/-!
# How often a FOR loop runs its body

A FOR loop visits its limit before every round, and its control variable is an ordinary one. If the body
leaves the control variable and the variables of the limit alone, then the limit keeps its value and the
control variable moves by one from round to round, so that the number of rounds is settled when the loop
starts: it is the distance between the two values. Nothing else needs to be known of the body than that
it ends, each time that it is run.

To say how often the body is run, the rounds are done with a **record** of the machines on which the body
starts. Without the record this is the visit of the loop (`MiniPascal.Node.ForParts.visit_eq_record`).
With more fuel the record can only go on, so that what holds of all starts does not depend on an amount
of fuel.

* `MiniPascal.Run.record`: rounds with the machines on which the body starts.
* `MiniPascal.Run.forRecord`: a FOR loop with the machines on which its body starts.
* `MiniPascal.Run.exists_record`: from a machine at the head of the loop the distance is counted down.
* `MiniPascal.for_trip_count`: the number of rounds of the FOR loops of a text.
-/

namespace MiniPascal

open Node

namespace Run

variable {test test' : Run Bool} {act act' : Run Unit} {fuel fuel' : Nat} {m m' m₁ : Machine}

/-! ### Rounds with a record -/

/-- **Rounds and the machines on which the body starts in them**, in order. -/
def record (test : Run Bool) (body : Run Unit) :
    Nat → Machine → List Machine × EStateM.Result Stop Machine Unit
  | 0, m => ([], .error .exhausted m)
  | fuel + 1, m =>
    match test m with
    | .error stop m' => ([], .error stop m')
    | .ok false m' => ([], .ok () m')
    | .ok true m' =>
      match body m' with
      | .error stop m'' => ([m'], .error stop m'')
      | .ok _ m'' => (m' :: (record test body fuel m'').1, (record test body fuel m'').2)

theorem record_succ (test : Run Bool) (act : Run Unit) (fuel : Nat) (m : Machine) :
    record test act (fuel + 1) m =
      match test m with
      | .error stop m' => ([], .error stop m')
      | .ok false m' => ([], .ok () m')
      | .ok true m' =>
        match act m' with
        | .error stop m'' => ([m'], .error stop m'')
        | .ok _ m'' => (m' :: (record test act fuel m'').1, (record test act fuel m'').2) := rfl

theorem record_of_false (h : test m = .ok false m') : record test act (fuel + 1) m = ([], .ok () m') := by
  rw [record_succ, h]

theorem record_of_true (h : test m = .ok true m') (hact : act m' = .ok () m₁) (fuel : Nat) :
    record test act (fuel + 1) m =
      (m' :: (record test act fuel m₁).1, (record test act fuel m₁).2) := by
  rw [record_succ, h]
  dsimp only
  rw [hact]

theorem record_of_true_error {stop : Stop} (h : test m = .ok true m') (hact : act m' = .error stop m₁)
    (fuel : Nat) : record test act (fuel + 1) m = ([m'], .error stop m₁) := by
  rw [record_succ, h]
  dsimp only
  rw [hact]

/-- The body starts where the test gives true, whatever comes of it. -/
theorem exists_record_of_true (h : test m = .ok true m') (act : Run Unit) (fuel : Nat) :
    ∃ starts, (record test act (fuel + 1) m).1 = m' :: starts := by
  rw [record_succ, h]
  dsimp only
  cases act m' <;> exact ⟨_, rfl⟩

/-- Without the record these are the rounds. -/
theorem record_snd (test : Run Bool) (act : Run Unit) (fuel : Nat) (m : Machine) :
    (record test act fuel m).2 = rounds test act fuel m := by
  induction fuel generalizing m with
  | zero => rfl
  | succ fuel ih =>
    rw [record_succ, rounds]
    cases ht : test m with
    | error stop m' => rw [bind_of_error ht]
    | ok b m' =>
      rw [bind_of_ok ht]
      cases b with
      | false => rfl
      | true =>
        simp only [if_true]
        cases hact : act m' with
        | error stop m'' => rw [bind_of_error hact]
        | ok u m'' =>
          rw [bind_of_ok hact]
          exact ih m''

/-- **With more fuel the record is the same, or it goes on** where the fuel was used up. -/
theorem record_mono (ht : Approximates test test') (hact : Approximates act act') (hfuel : fuel ≤ fuel')
    (m : Machine) :
    record test act fuel m = record test' act' fuel' m ∨
      (∃ m', (record test act fuel m).2 = .error .exhausted m') ∧
        (record test act fuel m).1 <+: (record test' act' fuel' m).1 := by
  induction fuel generalizing fuel' m with
  | zero => exact .inr ⟨⟨m, rfl⟩, List.nil_prefix⟩
  | succ fuel ih =>
    obtain ⟨fuel', rfl⟩ : ∃ k, fuel' = k + 1 := ⟨fuel' - 1, by omega⟩
    cases htest : test m with
    | error stop m' =>
      rcases ht m with ⟨m₁, hexhausted⟩ | hsame
      · refine .inr ⟨⟨m₁, ?_⟩, ?_⟩ <;> rw [record_succ, hexhausted]
        exact List.nil_prefix
      · refine .inl ?_
        rw [record_succ, record_succ, htest, ← hsame, htest]
    | ok b m' =>
      have htest' := ht.eq_of_ok htest
      cases b with
      | false => exact .inl ((record_of_false htest).trans (record_of_false htest').symm)
      | true =>
        cases hbody : act m' with
        | error stop m'' =>
          rw [record_of_true_error htest hbody fuel]
          rcases hact m' with ⟨m₁, hexhausted⟩ | hsame
          · cases hexhausted.symm.trans hbody
            obtain ⟨starts, hstarts⟩ := exists_record_of_true htest' act' fuel'
            exact .inr ⟨⟨m'', rfl⟩, hstarts ▸ ⟨starts, rfl⟩⟩
          · exact .inl (record_of_true_error htest' (hsame ▸ hbody) fuel').symm
        | ok u m'' =>
          rw [record_of_true htest hbody fuel, record_of_true htest' (hact.eq_of_ok hbody) fuel']
          rcases ih (Nat.le_of_succ_le_succ hfuel) m'' with hsame | ⟨hexhausted, hprefix⟩
          · exact .inl (by rw [hsame])
          · exact .inr ⟨hexhausted, (List.prefix_cons_inj m').2 hprefix⟩

theorem record_initial (ht : Approximates test test') (hact : Approximates act act')
    (hfuel : fuel ≤ fuel') (m : Machine) :
    (record test act fuel m).1 <+: (record test' act' fuel' m).1 := by
  rcases record_mono ht hact hfuel m with hsame | ⟨-, hprefix⟩
  · exact hsame ▸ List.prefix_rfl
  · exact hprefix

/-! ### A FOR loop with a record -/

/-- **A FOR loop and the machines on which its body starts**, with the given amount of fuel. -/
def forRecord (level : Int) (fuel : Nat) (n : Node) (m : Machine) :
    List Machine × EStateM.Result Stop Machine Unit :=
  match n.children with
  | [init, limit, body] =>
    let control := init.children.head?.bind (·.slot)
    match visit level fuel init m with
    | .error stop m' => ([], .error stop m')
    | .ok _ m' =>
      record (goesOn n.line control n.descending (visit level fuel limit))
        (advance n.line control n.descending (visit level fuel body)) fuel m'
  | children => ([], .error (.fault (.wrongArity 3 children.length)) m)

variable {level : Int} {n init v a limit body : Node} {key : Text} {i j k : Int} {descending : Bool}
  {y : Yield}

theorem forRecord_of_children (h : n.children = [init, limit, body]) (level : Int) (fuel : Nat)
    (m : Machine) : forRecord level fuel n m =
      match visit level fuel init m with
      | .error stop m' => ([], .error stop m')
      | .ok _ m' =>
        record (goesOn n.line (init.children.head?.bind (·.slot)) n.descending (visit level fuel limit))
          (advance n.line (init.children.head?.bind (·.slot)) n.descending (visit level fuel body)) fuel
          m' := by
  obtain ⟨⟩ := n
  cases h
  rfl

/-- **With more fuel a FOR loop has the same record, or it goes on** where the fuel was used up. -/
theorem forRecord_mono (hle : fuel ≤ fuel') (m : Machine) :
    forRecord level fuel n m = forRecord level fuel' n m ∨
      (∃ m', (forRecord level fuel n m).2 = .error .exhausted m') ∧
        (forRecord level fuel n m).1 <+: (forRecord level fuel' n m).1 := by
  have hvisit := visit_approximates level hle
  unfold forRecord
  split
  · rename_i init limit body _
    dsimp only
    cases hinit : visit level fuel init m with
    | error stop m' =>
      rcases hvisit init m with ⟨m₁, hexhausted⟩ | hsame
      · cases hexhausted.symm.trans hinit
        exact .inr ⟨⟨m', rfl⟩, List.nil_prefix⟩
      · rw [← hsame, hinit]
        exact .inl rfl
    | ok y m' =>
      rw [visit_ok_mono hle hinit]
      exact record_mono (approximates_goesOn (hvisit limit) n.line _ n.descending)
        (approximates_advance (hvisit body) n.line _ n.descending) hle m'
  · exact .inl rfl

/-- All starts of a loop are there with an amount of fuel that is not used up. -/
theorem mem_forRecord (hends : ∀ m', (forRecord level fuel n m).2 ≠ .error .exhausted m')
    (hm : m' ∈ (forRecord level fuel' n m).1) : m' ∈ (forRecord level fuel n m).1 := by
  rcases Nat.le_total fuel fuel' with hle | hle
  · rcases forRecord_mono (n := n) hle m with hsame | ⟨⟨m₁, hexhausted⟩, -⟩
    · exact hsame ▸ hm
    · exact absurd hexhausted (hends m₁)
  · rcases forRecord_mono (n := n) hle m with hsame | ⟨-, hprefix⟩
    · exact hsame ▸ hm
    · exact hprefix.subset hm

/-- The first integer is not past the second one. -/
def within (descending : Bool) (i j : Int) : Bool :=
  if descending then decide (j ≤ i) else decide (i ≤ j)

theorem relation_past (line : Int) (descending : Bool) (k j : Int) :
    Value.relation line (pastOp descending) (.integer k) (.integer j) =
      .ok (!within descending k j) := by
  cases descending with
  | false =>
    have hpast : (some (compare k j) == some .gt) = !decide (k ≤ j) := by
      rw [Bool.eq_iff_iff]
      simp [Int.compare_eq_gt]
    exact congrArg Except.ok hpast
  | true =>
    have hpast : (some (compare k j) == some .lt) = !decide (j ≤ k) := by
      rw [Bool.eq_iff_iff]
      simp [Int.compare_eq_lt]
    exact congrArg Except.ok hpast

/-- The test of a FOR loop compares two integers. -/
theorem goesOn_of_integers {bound : Run Yield} (hkey : m.table.get? key = some (.value (.integer k)))
    (hbound : bound m = .ok (.value (.integer j)) m) (line : Int) (descending : Bool) :
    goesOn line (some key) descending bound m = .ok (within descending k j) m := by
  rw [goesOn, bind_of_ok hbound, bind_of_ok (load_eq hkey), bothValues_value, pure_bind]
  dsimp only
  rw [relation_past, ofExcept, pure_bind, Bool.not_not]
  rfl

/-- The step of a FOR loop adds one to the control variable, or takes one away. -/
theorem advance_of_ok {line : Int} {descending : Bool} {act : Run Yield} (hact : act m = .ok y m')
    (hkey : m'.table.get? key = some (.value (.integer k))) :
    advance line (some key) descending act m =
      .ok () { m' with table := m'.table.store key (.value (.integer (k + stepOf descending))) } := by
  rw [advance, bind_of_ok hact, step, bind_assoc, bind_of_ok (load_eq hkey), valueOf_value, pure_bind]
  rfl

/-- **The number of rounds** of a FOR loop from one integer to another. -/
def tripCount (descending : Bool) (i j : Int) : Nat :=
  (if descending then i - j + 1 else j - i + 1).toNat

/-- There is a round to go exactly if the control variable is within the limit. -/
theorem tripCount_eq_zero : tripCount descending i j = 0 ↔ within descending i j = false := by
  cases descending <;>
    simp only [tripCount, within, if_true, Bool.false_eq_true, if_false, decide_eq_false_iff_not] <;> omega

theorem within_of_tripCount {d : Nat} (h : tripCount descending i j = d + 1) :
    within descending i j = true := by
  rw [← Bool.not_eq_false, ← tripCount_eq_zero, h]
  exact Nat.succ_ne_zero d

theorem tripCount_step {d : Nat} (h : tripCount descending i j = d + 1) :
    tripCount descending (i + stepOf descending) j = d := by
  cases descending <;> simp only [tripCount, stepOf, if_true, Bool.false_eq_true, if_false] at h ⊢ <;>
    omega

/-- **The loop has counted** from the first integer to the second one, with these machines on which its
body started and this one at its end. -/
structure Counted (descending : Bool) (key : Text) (i j : Int) (starts : List Machine) (m : Machine) :
    Prop where
  /-- The number of rounds. -/
  length : starts.length = tripCount descending i j
  /-- The control variable at the start of every round. -/
  control : ∀ (t : Nat) (ht : t < starts.length),
    starts[t].table.get? key = some (.value (.integer (i + stepOf descending * t)))
  /-- The control variable is left one step past the limit, or where it was if there was no round. -/
  last : m.table.get? key =
    some (.value (.integer (if descending then min i (j - 1) else max i (j + 1))))

theorem last_eq (descending : Bool) (i j : Int) :
    i + stepOf descending * tripCount descending i j =
      if descending then min i (j - 1) else max i (j + 1) := by
  cases descending <;> simp only [tripCount, stepOf, if_true, Bool.false_eq_true, if_false] <;> omega

/-- **What the rounds start from**: the control variable and the limit are integers. -/
structure AtHead (level : Int) (limit : Node) (key : Text) (i j : Int) (m : Machine) : Prop where
  control : m.table.get? key = some (.value (.integer i))
  limit : Evaluates level m limit (.integer j)

/-- The body ends on all machines on which it starts, with any amounts of fuel for the visits and for the
rounds. -/
def BodiesEnd (level : Int) (n limit body : Node) (key : Text) (m : Machine) : Prop :=
  ∀ fuel fuel', ∀ m' ∈ (record (goesOn n.line (some key) n.descending (visit level fuel limit))
    (advance n.line (some key) n.descending (visit level fuel body)) fuel' m).1,
    ∃ least y m'', visit level least body m' = .ok y m''

end Run

namespace Node.ForParts

open Run

variable {level : Int} {n init v a limit body : Node} {key : Text} {i j : Int} {m m' : Machine}
  (h : n.ForParts init v a limit body key)
include h

/-- A round that leaves the control variable and the limit alone leads from one head to the next. -/
theorem exists_round (hcontrol : ¬limit.Binds key) (hbody : ¬body.Assigns key)
    (hlimit : ∀ other, limit.Binds other → ¬body.Assigns other) (hm : AtHead level limit key i j m)
    {least : Nat} {y : Yield} (hends : visit level least body m = .ok y m') :
    ∃ m₁, AtHead level limit key (i + stepOf n.descending) j m₁ ∧ ∀ fuel, least ≤ fuel →
      advance n.line (some key) n.descending (visit level fuel body) m = .ok () m₁ := by
  have hframed := (Discipline.frame body).obeys_visit h.body level least .root m
  rw [after_of_ok hends] at hframed
  have hcurrent := (hframed.get? key hbody).trans hm.control
  refine ⟨{ m' with table := m'.table.store key (.value (.integer (i + stepOf n.descending))) },
    ⟨?_, hm.limit.of_agree h.limit fun other hother => ?_⟩,
    fun fuel hle => advance_of_ok (visit_ok_mono hle hends) hcurrent⟩
  · rw [SymbolTable.get?_store, if_pos rfl, hcurrent, Option.map_some]
  · have hne : key ≠ other := by
      rintro rfl
      exact hcontrol hother
    rw [SymbolTable.get?_store, if_neg hne, hframed.get? other (hlimit other hother)]

/-- **The rounds count the distance down.** -/
theorem exists_record (hcontrol : ¬limit.Binds key) (hbody : ¬body.Assigns key)
    (hlimit : ∀ other, limit.Binds other → ¬body.Assigns other) (hm : AtHead level limit key i j m)
    (hends : BodiesEnd level n limit body key m) :
    ∃ starts m' least, (∀ fuel fuel', least ≤ fuel → least ≤ fuel' →
        record (goesOn n.line (some key) n.descending (visit level fuel limit))
          (advance n.line (some key) n.descending (visit level fuel body)) fuel' m = (starts, .ok () m')) ∧
      starts.map (·.table.get? key) = (List.range (tripCount n.descending i j)).map
        (fun t => some (.value (.integer (i + stepOf n.descending * (t : Nat))))) ∧
      m'.table.get? key =
        some (.value (.integer (i + stepOf n.descending * tripCount n.descending i j))) := by
  induction hd : tripCount n.descending i j generalizing i m with
  | zero =>
    obtain ⟨least, hleast⟩ := hm.limit.exists_least
    refine ⟨[], m, least + 1, fun fuel fuel' hle hle' => ?_, rfl, ?_⟩
    · obtain ⟨fuel', rfl⟩ : ∃ k, fuel' = k + 1 := ⟨fuel' - 1, by omega⟩
      have htest := goesOn_of_integers hm.control (hleast fuel (by omega)) n.line n.descending
      rw [tripCount_eq_zero.1 hd] at htest
      exact record_of_false htest
    · simpa using hm.control
  | succ d ih =>
    obtain ⟨least, hleast⟩ := hm.limit.exists_least
    have htest (fuel : Nat) (hle : least ≤ fuel) :
        goesOn n.line (some key) n.descending (visit level fuel limit) m = .ok true m := by
      rw [goesOn_of_integers hm.control (hleast fuel hle), within_of_tripCount hd]
    -- the body starts, so it ends
    obtain ⟨starts, hstarts⟩ := exists_record_of_true (htest least (Nat.le_refl least))
      (advance n.line (some key) n.descending (visit level least body)) 0
    obtain ⟨least', y, m', hbodyEnds⟩ := hends least 1 m (hstarts ▸ List.mem_cons_self)
    obtain ⟨m₁, hm₁, hadvance⟩ := h.exists_round hcontrol hbody hlimit hm hbodyEnds
    have hround (fuel fuel' : Nat) (hle : least ≤ fuel) (hle' : least' ≤ fuel) :=
      record_of_true (htest fuel hle) (hadvance fuel hle') fuel'
    have hends₁ : BodiesEnd level n limit body key m₁ := by
      intro fuel fuel' m₂ hm₂
      let more := fuel + least + least'
      have hvisit := visit_approximates level (show fuel ≤ more by omega)
      have hmore := (record_initial (approximates_goesOn (hvisit limit) n.line (some key) n.descending)
        (approximates_advance (hvisit body) n.line (some key) n.descending) (Nat.le_refl fuel') m₁).subset
          hm₂
      refine hends more (fuel' + 1) m₂ ?_
      rw [hround more fuel' (by omega) (by omega)]
      exact List.mem_cons_of_mem m hmore
    obtain ⟨starts, m₂, least'', hrecord, hvalues, hlast⟩ := ih hm₁ hends₁ (tripCount_step hd)
    refine ⟨m :: starts, m₂, least + least' + least'' + 1, fun fuel fuel' hle hle' => ?_, ?_, ?_⟩
    · obtain ⟨fuel', rfl⟩ : ∃ k, fuel' = k + 1 := ⟨fuel' - 1, by omega⟩
      rw [hround fuel fuel' (by omega) (by omega), hrecord fuel fuel' (by omega) (by omega)]
    · rw [List.map_cons, hvalues, hm.control, List.range_succ_eq_map, List.map_cons, List.map_map]
      refine List.cons_eq_cons.2 ⟨by simp, List.map_congr_left fun t _ => ?_⟩
      simp only [Function.comp, Nat.succ_eq_add_one, Int.natCast_add, Int.natCast_one, Int.mul_add,
        Int.mul_one, Int.add_assoc, Int.add_comm (stepOf n.descending)]
    · rw [hlast]
      simp only [Int.natCast_add, Int.natCast_one, Int.mul_add, Int.mul_one, Int.add_assoc,
        Int.add_comm (stepOf n.descending)]

/-- Behind its assignment the control variable has the value that is assigned. -/
theorem control_of_init (hkey : key ∈ m.table.names) (hstart : Evaluates level m a (.integer i))
    {fuel : Nat} {y : Yield} (hinit : visit level fuel init m = .ok y m') :
    m'.table.get? key = some (.value (.integer i)) := by
  obtain ⟨least, hleast⟩ := hstart.exists_least
  obtain ⟨name, ht⟩ := h.text
  obtain ⟨y', hy'⟩ := SymbolTable.mem_names_iff.1 hkey
  have hinit := visit_ok_mono (show fuel ≤ fuel + least + 1 by omega) hinit
  rcases visit_assign_of_ok h.init_kind h.init_children h.slot ht (hleast (fuel + least) (by omega)) with
    ⟨-, hfails⟩ | ⟨log, hends⟩
  · cases hfails.symm.trans hinit
  · cases hends.symm.trans hinit
    rw [SymbolTable.get?_store, if_pos rfl, hy', Option.map_some]

/-- Behind the assignment a FOR loop does its rounds. -/
theorem forRecord_of_init {fuel : Nat} {y : Yield} (hinit : visit level fuel init m = .ok y m') :
    forRecord level fuel n m = record (goesOn n.line (some key) n.descending (visit level fuel limit))
      (advance n.line (some key) n.descending (visit level fuel body)) fuel m' := by
  rw [forRecord_of_children h.children, hinit]
  simp only [h.init_children, List.head?_cons, Option.bind_some, h.slot]

/-- **Without the record it is the visit of the loop.** -/
theorem visit_eq_record (level : Int) (fuel : Nat) (m : Machine) :
    visit level (fuel + 1) n m =
      match (forRecord level fuel n m).2 with
      | .ok _ m' => .ok .nothing m'
      | .error stop m' => .error stop m' := by
  rw [h.visit_eq_rounds, statement, bind_assoc]
  cases hinit : visit level fuel init m with
  | error stop m' =>
    have hrecord : forRecord level fuel n m = ([], .error stop m') := by
      rw [forRecord_of_children h.children, hinit]
    rw [bind_of_error hinit, hrecord]
  | ok y m' =>
    rw [bind_of_ok hinit, h.forRecord_of_init hinit, record_snd, h.slot, bind_apply]
    cases rounds _ _ fuel m' <;> rfl

/-- **A FOR loop counts** if its body leaves the control variable and the limit alone and always ends. -/
theorem exists_counted {m₁ : Machine} (hcontrol : ¬limit.Binds key) (hbody : ¬body.Assigns key)
    (hlimit : ∀ other, limit.Binds other → ¬body.Assigns other) (hkey : key ∈ m.table.names)
    (hstart : Evaluates level m a (.integer i)) (hinit : ∃ fuel y, visit level fuel init m = .ok y m₁)
    (hbound : Evaluates level m₁ limit (.integer j))
    (hends : ∀ fuel, ∀ m' ∈ (forRecord level fuel n m).1,
      ∃ least y m'', visit level least body m' = .ok y m'') :
    ∃ starts m' least, (∀ fuel, least ≤ fuel → forRecord level fuel n m = (starts, .ok () m') ∧
        visit level (fuel + 1) n m = .ok .nothing m') ∧
      Counted n.descending key i j starts m' := by
  obtain ⟨least, y, hinit⟩ := hinit
  have hrecord (fuel : Nat) (hle : least ≤ fuel) := h.forRecord_of_init (visit_ok_mono hle hinit)
  have hbodies : BodiesEnd level n limit body key m₁ := by
    intro fuel fuel' m' hm'
    let more := fuel + fuel' + least
    have hvisit := visit_approximates level (show fuel ≤ more by omega)
    refine hends more m' ?_
    rw [hrecord more (by omega)]
    exact (record_initial (approximates_goesOn (hvisit limit) n.line (some key) n.descending)
      (approximates_advance (hvisit body) n.line (some key) n.descending)
      (show fuel' ≤ more by omega) m₁).subset hm'
  obtain ⟨starts, m', least', hrounds, hvalues, hlast⟩ := h.exists_record hcontrol hbody hlimit
    ⟨h.control_of_init hkey hstart hinit, hbound⟩ hbodies
  have hlength : starts.length = tripCount n.descending i j := by
    simpa using congrArg List.length hvalues
  refine ⟨starts, m', least + least', fun fuel hle => ?_, hlength, fun t ht => ?_, ?_⟩
  · have hfuel := (hrecord fuel (by omega)).trans (hrounds fuel fuel (by omega) (by omega))
    refine ⟨hfuel, ?_⟩
    rw [h.visit_eq_record, hfuel]
  · have hvalue := congrArg (·[t]?) hvalues
    simpa [ht, hlength ▸ ht] using hvalue
  · rw [hlast, last_eq]

end Node.ForParts

/-- **The trip count of a FOR loop.** Take any FOR loop in the tree of a text without errors whose limit
does not look at the control variable and whose body assigns neither to that nor to a variable of the
limit. Run it on any machine on which the expression of its assignment is an integer and, behind the
assignment, its limit is one. If the body ends each time that the loop starts it, so does the loop. Then
the body has been run once for each integer from the first to the second one, in turn, and the control
variable is left one step past the second one, or at the first one if there was no round. -/
theorem for_trip_count {source : Text} {declared : SymbolTable}
    (h : (parse source declared #[]).errorCount = .ok 0) :
    ∃ tree, (parse source declared #[]).tree = .ok tree ∧ ∀ n, tree.HasNode n → n.kind = .forLoop →
      ∃ init v a limit body key, n.ForParts init v a limit body key ∧
        ∀ (level : Int) (m m₁ : Machine) (i j : Int),
          (∀ name ∈ (parse source declared #[]).table.names, name ∈ m.table.names) →
          ¬limit.Binds key → ¬body.Assigns key → (∀ other, limit.Binds other → ¬body.Assigns other) →
          Run.Evaluates level m a (.integer i) → (∃ fuel y, Run.visit level fuel init m = .ok y m₁) →
          Run.Evaluates level m₁ limit (.integer j) →
          (∀ fuel, ∀ m' ∈ (Run.forRecord level fuel n m).1,
            ∃ fuel' y m'', Run.visit level fuel' body m' = .ok y m'') →
          ∃ starts m' least, (∀ fuel, least ≤ fuel →
              Run.forRecord level fuel n m = (starts, .ok () m') ∧
                Run.visit level (fuel + 1) n m = .ok .nothing m') ∧
            Run.Counted n.descending key i j starts m' := by
  obtain ⟨tree, htree, hshaped, hanchored, -⟩ := exists_tree_of_errorCount h
  refine ⟨tree, htree, fun n hn hk => ?_⟩
  obtain ⟨role, hrole⟩ := hshaped.exists_role hn
  obtain ⟨init, v, a, limit, body, key, hparts⟩ := hrole.exists_forParts hk
  have hv : tree.HasNode v :=
    .child (.child hn (by simp [hparts.children] : init ∈ n.children)) (by simp [hparts.init_children])
  refine ⟨init, v, a, limit, body, key, hparts,
    fun level m m₁ i j hnames hcontrol hbody hlimit hstart hinit hbound hends => ?_⟩
  exact hparts.exists_counted hcontrol hbody hlimit (hnames key (hanchored.slot v key hv hparts.slot))
    hstart hinit hbound hends

/-- A loop to a limit that is a sum, whose body writes and adds up. -/
theorem for_trip_count_sum :
    let p := parse "PROGRAM a; BEGIN FOR i := 1 TO n + 1 DO BEGIN writeln(i); s := s + i END END."
      ⟨[("n", .value (.integer 2)), ("s", .value (.integer 0))]⟩ #[]
    p.errorCount = .ok 0 ∧ ∃ tree n starts m', p.tree = .ok tree ∧ tree.HasNode n ∧
      Run.visit 0 21 n ⟨p.table, #[], #[]⟩ = .ok .nothing m' ∧
      Run.Counted false "i" 1 3 starts m' := by
  intro p
  let m : Machine := ⟨p.table, #[], #[]⟩
  let facts (n init v a limit body : Node) : Prop :=
    v.slot = some (Text.ofString "i") ∧ limit.slots = [Text.ofString "n"] ∧
      body.targets = [Text.ofString "s"] ∧ (Run.given? (Run.visit 0 20 init m)).isSome = true ∧
      (Run.given? (Run.visit 0 20 a m)).bind Yield.value? = some (.integer 1) ∧
      (Run.given? (Run.visit 0 20 limit ((Run.visit 0 20 init).after m))).bind Yield.value? =
        some (.integer 3) ∧
      (Run.given? (Run.visit 0 21 n m)).isSome = true ∧
      ∀ m' ∈ (Run.forRecord 0 20 n m).1, (Run.given? (Run.visit 0 20 body m')).isSome = true
  have hp : p.errorCount.toOption = some 0 ∧ ((p.tree.toOption.bind (Node.statement? 0)).map fun n =>
      (n.kind, n.descending, match n.children with
        | [init, limit, body] => init.children.head?.any fun v => init.children.getLast?.any fun a =>
          decide (facts n init v a limit body)
        | _ => false)) = some (.forLoop, false, true) := by
    decide +kernel
  obtain ⟨hcount, hloop⟩ := hp
  have hcount : p.errorCount = .ok 0 := eq_ok_of_toOption hcount
  obtain ⟨tree, htree, hloops⟩ := for_trip_count hcount
  have htree : p.tree = .ok tree := htree
  rw [htree] at hloop
  obtain ⟨n, hn, hloop⟩ := Option.map_eq_some_iff.1 hloop
  have hmem : tree.HasNode n := .of_statement? hn
  obtain ⟨hk, hloop⟩ := Prod.mk.inj hloop
  obtain ⟨hup, hfacts⟩ := Prod.mk.inj hloop
  obtain ⟨init, v, a, limit, body, key, hparts, htrips⟩ := hloops n hmem hk
  simp only [hparts.children, hparts.init_children, List.head?_cons, List.getLast?_cons_cons,
    List.getLast?_singleton, Option.any_some] at hfacts
  obtain ⟨hslot, hlimit, hbody, hinit, hstart, hbound, hends, hbodies⟩ := of_decide_eq_true hfacts
  obtain rfl : key = "i" := Option.some.inj (hparts.slot.symm.trans hslot)
  have hlooks {other : Text} (h : limit.Binds other) : other = "n" :=
    List.mem_singleton.1 (hlimit ▸ h.mem_slots)
  have hassigns {other : Text} (h : body.Assigns other) : other = "s" :=
    List.mem_singleton.1 (hbody ▸ h.mem_targets)
  obtain ⟨y, m₁, hinit⟩ := Run.exists_of_given? hinit
  obtain ⟨y', m₂, hends⟩ := Run.exists_of_given? hends
  rw [Run.after_of_ok hinit] at hbound
  have hrecord : ∀ m', (Run.forRecord 0 20 n m).2 ≠ .error .exhausted m' := by
    intro m' hexhausted
    rw [hparts.visit_eq_record, hexhausted] at hends
    cases hends
  obtain ⟨starts, m', least, hleast, hcounted⟩ := htrips 0 m m₁ 1 3 (fun _ => id)
    (fun h => absurd (hlooks h) (by decide)) (fun h => absurd (hassigns h) (by decide))
    (fun other h h' => absurd ((hlooks h).symm.trans (hassigns h')) (by decide))
    (Run.evaluates_of_given? hparts.start hstart) ⟨20, y, hinit⟩
    (Run.evaluates_of_given? hparts.limit hbound)
    fun fuel m' hm' => ⟨20, Run.exists_of_given? (hbodies m' (Run.mem_forRecord hrecord hm'))⟩
  have hsame := (Run.visit_ok_mono (by omega) hends).symm.trans (hleast (least + 20) (by omega)).2
  cases hsame
  rw [hup] at hcounted
  exact ⟨hcount, tree, n, starts, m₂, htree, hmem, hends, hcounted⟩

end MiniPascal

import MiniPascal.Proofs.Run.Lockstep

/-!
# Loops in rounds

A loop takes **rounds**: a test, and if it gives true a body and the next round. The test of a FOR loop
compares the control variable with the limit, and its body ends with a step of the control variable. A
REPEAT loop takes its first body before its rounds begin.

A step may leave a message in a trace or not. What is left has no influence on a run, and so rounds with
such steps are in step with rounds without them, up to a message that cannot be made
(`MiniPascal.Run.UntoldAt`).

* `MiniPascal.Run.rounds`: a test and a body, in turns.
* `MiniPascal.Run.whileLoop_eq_rounds`, `MiniPascal.Run.forLoop_eq_rounds`: the loops as rounds.
* `MiniPascal.Run.goesOn`, `MiniPascal.Run.advance`: the test and the body of a FOR loop.
* `MiniPascal.Run.inStep_rounds`, `MiniPascal.Run.inStep_advanceTold`: rounds in step.
-/

namespace MiniPascal

namespace Run

variable {α β : Type} {level : Int} {fuel fuel' : Nat}

/-- The body is done as long as the test gives true. -/
def rounds (test : Run Bool) (body : Run Unit) : Nat → Run Unit
  | 0 => throw .exhausted
  | fuel + 1 => do
    if ← test then
      body
      rounds test body fuel
    else return ()

theorem approximates_rounds {test test' : Run Bool} {body body' : Run Unit}
    (ht : Approximates test test') (hb : Approximates body body') (hfuel : fuel ≤ fuel') :
    Approximates (rounds test body fuel) (rounds test' body' fuel') := by
  induction fuel generalizing fuel' with
  | zero => exact approximates_of_exhausted _
  | succ fuel ih =>
    obtain ⟨fuel', rfl⟩ : ∃ k, fuel' = k + 1 := ⟨fuel' - 1, by omega⟩
    exact ht.bind fun _ => .ite (hb.bind fun _ => ih (by omega)) (.refl _)

/-- Rounds are the same where an invariant makes their tests and bodies the same. -/
theorem rounds_congr {test test' : Run Bool} {body body' : Run Unit} {p : Machine → Prop}
    (htest : ∀ m, p m → test m = test' m) (hbody : ∀ m, p m → body m = body' m)
    (hkept : ∀ m b m', p m → test m = .ok b m' → p m')
    (hkept' : ∀ m m', p m → body m = .ok () m' → p m') (fuel : Nat) {m : Machine} (hm : p m) :
    rounds test body fuel m = rounds test' body' fuel m := by
  induction fuel generalizing m with
  | zero => rfl
  | succ fuel ih =>
    rw [rounds, rounds]
    cases ht : test m with
    | error stop m₁ =>
      rw [bind_of_error ht, bind_of_error ((htest m hm).symm.trans ht)]
    | ok b m₁ =>
      have hm₁ := hkept m b m₁ hm ht
      rw [bind_of_ok ht, bind_of_ok ((htest m hm).symm.trans ht)]
      cases b with
      | false => rfl
      | true =>
        simp only [if_true]
        cases hb : body m₁ with
        | error stop m₂ =>
          rw [bind_of_error hb, bind_of_error ((hbody m₁ hm₁).symm.trans hb)]
        | ok u m₂ =>
          rw [bind_of_ok hb, bind_of_ok ((hbody m₁ hm₁).symm.trans hb)]
          exact ih (hkept' m₁ m₂ hm₁ hb)

/-! ### The loops as rounds -/

/-- The truth of what a visit gives, of which something is asked. -/
def truthOf (asked : Inquiry) (visit : Run Yield) : Run Bool := do
  return (← valueOf asked (← visit)).truth

/-- A visit for its effect. -/
def perform (visit : Run Yield) : Run Unit := do let _ ← visit

theorem whileLoop_eq_rounds (visit : Node → Run Yield) (test body : Node) (fuel : Nat) :
    whileLoop visit test body fuel =
      rounds (truthOf .kind (visit test)) (perform (visit body)) fuel := by
  induction fuel with
  | zero => rfl
  | succ fuel ih => simp only [whileLoop, rounds, truthOf, perform, bind_assoc, pure_bind, ih]

/-- The operator that tells whether a control variable is past its limit. -/
def pastOp (descending : Bool) : RelationalOp := if descending then .less else .greater

/-- The step of a control variable. -/
def stepOf (descending : Bool) : Int := if descending then -1 else 1

/-- The test of a FOR loop. -/
def goesOn (line : Int) (control : Option Text) (descending : Bool) (limit : Run Yield) : Run Bool := do
  let bound ← limit
  let (current, limitValue) ← bothValues (← load control) bound
  return !(← ofExcept (Value.relation line (pastOp descending) current limitValue))

/-- The step of a FOR loop. It gives what the control variable holds behind it. -/
def step (line : Int) (control : Option Text) (descending : Bool) : Run Yield := do
  let current ← valueOf .numeric (← load control)
  let next ← ofExcept (Value.arithmetic line .add current (.integer (stepOf descending)))
  store control (.value next)
  return .value next

/-- The body of a FOR loop and the step behind it. -/
def advance (line : Int) (control : Option Text) (descending : Bool) (body : Run Yield) : Run Unit := do
  let _ ← body
  let _ ← step line control descending

/-- The body of a FOR loop and a step that leaves a message. -/
def advanceTold (level : Int) (wording : Text → Text) (line : Int) (control : Option Text)
    (descending : Bool) (body : Run Yield) : Run Unit := do
  let _ ← body
  let y ← step line control descending
  trace level 2 fun _ => y.description?.map wording

theorem forLoop_eq_rounds (visit : Node → Run Yield) (line : Int) (control : Option Text)
    (descending : Bool) (limit body : Node) (fuel : Nat) :
    forLoop visit line control descending limit body fuel =
      rounds (goesOn line control descending (visit limit))
        (advance line control descending (visit body)) fuel := by
  induction fuel with
  | zero => rfl
  | succ fuel ih =>
    simp only [forLoop, rounds, goesOn, advance, step, pastOp, stepOf, bind_assoc, pure_bind, ih]
    refine bind_congr fun bound => bind_congr fun y => bind_congr fun values => bind_congr fun past => ?_
    cases past <;> rfl

section Approximation

variable {act act' : Run Yield} (h : Approximates act act')
include h

theorem approximates_truthOf (asked : Inquiry) :
    Approximates (truthOf asked act) (truthOf asked act') := h.bind fun _ => .refl _

theorem approximates_goesOn (line : Int) (control : Option Text) (descending : Bool) :
    Approximates (goesOn line control descending act) (goesOn line control descending act') :=
  h.bind fun _ => .refl _

theorem approximates_advance (line : Int) (control : Option Text) (descending : Bool) :
    Approximates (advance line control descending act) (advance line control descending act') :=
  h.bind fun _ => .refl _

theorem approximates_advanceTold (level : Int) (wording : Text → Text) (line : Int)
    (control : Option Text) (descending : Bool) :
    Approximates (advanceTold level wording line control descending act)
      (advanceTold level wording line control descending act') := h.bind fun _ => .refl _

end Approximation

/-- What comes next sees the opposite of a truth. -/
theorem not_truthOf_bind (asked : Inquiry) (visit : Run Yield) (next : Bool → Run β) :
    (not <$> truthOf asked visit) >>= next = (do
      let y ← visit
      let v ← valueOf asked y
      next (!v.truth)) := by
  simp only [truthOf, map_eq_pure_bind, bind_assoc, pure_bind]

/-- **A REPEAT loop** has gone through its statements once when its rounds begin. -/
theorem repeatLoop_approximates (visit : Node → Run Yield) (ns : List Node) (t : Node) (fuel : Nat) :
    Approximates (repeatLoop visit ns t fuel) (do
      visitAll visit ns
      rounds (not <$> truthOf .data (visit t)) (visitAll visit ns) fuel) := by
  induction fuel with
  | zero => exact approximates_of_exhausted _
  | succ fuel ih =>
    refine approximates_bind fun _ => ?_
    rw [rounds, not_truthOf_bind]
    refine approximates_bind fun y => approximates_bind fun v => ?_
    cases v.truth
    · exact ih
    · exact .refl _

theorem approximates_repeatLoop_of_rounds (visit : Node → Run Yield) (ns : List Node) (t : Node)
    (fuel : Nat) :
    Approximates (do
      visitAll visit ns
      rounds (not <$> truthOf .data (visit t)) (visitAll visit ns) fuel)
      (repeatLoop visit ns t (fuel + 1)) := by
  refine approximates_bind fun _ => ?_
  -- behind the statements the loop is at the test, and there the two are compared
  induction fuel with
  | zero => exact approximates_of_exhausted _
  | succ fuel ih =>
    rw [rounds, not_truthOf_bind]
    refine approximates_bind fun y => approximates_bind fun v => ?_
    cases v.truth
    · exact approximates_bind fun _ => ih
    · exact .refl _

/-! ### Rounds in step -/

section InStep

variable {S : Sides}

/-- **Rounds are in step** if their tests and their bodies are. -/
theorem inStep_rounds {test test' : Run Bool} {body body' : Run Unit} (ht : InStep S Eq test test')
    (hb : InStep S Eq body body') (fuel : Nat) :
    InStep S Eq (rounds test body fuel) (rounds test' body' fuel) := by
  induction fuel with
  | zero => exact inStep_exhausted
  | succ fuel ih => exact ht.bind_eq fun _ => .ite (hb.bind_eq fun _ => ih) (inStep_pure rfl)

theorem inStep_step (line : Int) (control : Option Text) (descending : Bool) :
    InStep S Eq (step line control descending) (step line control descending) :=
  (inStep_load control).bind_eq fun y => (inStep_valueOf _ y).bind_eq fun _ =>
    (inStep_ofExcept (.refl _)).bind_eq fun _ => (inStep_store control _).bind_eq fun _ =>
      inStep_pure rfl

/-- What the step gives is in the control variable. -/
theorem get?_of_step {line : Int} {key : Text} {descending : Bool} {m m' : Machine} {y : Yield}
    (hkey : key ∈ m.table.names) (hstep : step line (some key) descending m = .ok y m') :
    m'.table.get? key = some y := by
  obtain ⟨current, hcurrent⟩ := SymbolTable.mem_names_iff.1 hkey
  rw [step, bind_of_ok (load_eq hcurrent), valueOf] at hstep
  cases hv : current.value? with
  | none =>
    rw [hv] at hstep
    cases hstep
  | some v =>
    rw [hv, pure_bind] at hstep
    cases hnext : Value.arithmetic line .add v (.integer (stepOf descending)) with
    | error f =>
      rw [hnext] at hstep
      cases hstep
    | ok next =>
      rw [hnext] at hstep
      cases hstep
      rw [SymbolTable.get?_store, if_pos rfl, hcurrent, Option.map_some]

variable {act act' : Run Yield} (h : InStep S Eq act act')
include h

theorem inStep_truthOf (asked : Inquiry) : InStep S Eq (truthOf asked act) (truthOf asked act') :=
  h.bind_eq fun y => (inStep_valueOf asked y).bind_eq fun _ => inStep_pure rfl

theorem inStep_goesOn (line : Int) (control : Option Text) (descending : Bool) :
    InStep S Eq (goesOn line control descending act) (goesOn line control descending act') :=
  h.bind_eq fun bound => (inStep_load control).bind_eq fun y =>
    (inStep_bothValues y bound).bind_eq fun _ => (inStep_ofExcept (.refl _)).bind_eq fun _ =>
      inStep_pure rfl

/-- **A step that leaves a message**, and one that does not, are in step, unless the message cannot be made
about what the control variable holds. -/
theorem inStep_advanceTold {key : Text} (hkey : key ∈ S.names)
    (halone : ∀ table, UntoldAt S.first key table → S.alone table)
    (wording : Text → Text) (line : Int) (descending : Bool) :
    InStep S Eq (advanceTold S.first wording line (some key) descending act)
      (advance line (some key) descending act') := by
  refine h.bind_eq fun _ => fun m m' hm => ?_
  refine agree_bind (inStep_step line (some key) descending hm) fun y y' m₁ m₁' hstep hy hm₁ => ?_
  refine agree_trace_pure hm₁ 2 fun hle hnone => ?_
  exact halone _ ⟨y, get?_of_step (hm.names ▸ hkey) hstep, hle, Option.map_eq_none_iff.1 hnone⟩

end InStep

end Run

end MiniPascal

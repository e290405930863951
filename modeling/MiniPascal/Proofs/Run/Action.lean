import MiniPascal.Run.Visit

/-!
# Actions at a machine

An action is known by its **outcome** at every machine: a result or a stop, and the machine behind it.
Two actions in a row have the outcome of the second one at the machine behind the first, unless the
first one stops.

* `MiniPascal.Run.bind_apply`: the outcome of two actions in a row.
* `MiniPascal.Run.Untold`: a message of a trace that cannot be made.
* `MiniPascal.Run.after`: the machine behind an action.
* `MiniPascal.Run.MayGive`: the results that an action may have at some machine.
-/

namespace MiniPascal.Run

variable {α β : Type}

/-! ### Two actions in a row -/

theorem bind_apply (act : Run α) (next : α → Run β) (m : Machine) :
    (act >>= next) m =
      match act m with
      | .ok a m' => next a m'
      | .error stop m' => .error stop m' := by
  rw [show (act >>= next) m = EStateM.bind act next m from rfl, EStateM.bind]
  cases act m <;> rfl

section Bind

variable {act act' : Run α} {next : α → Run β} {a : α} {stop : Stop} {m m' : Machine}

/-- What follows an action starts from the machine behind it. -/
theorem bind_of_ok (h : act m = .ok a m') : (act >>= next) m = next a m' := by
  rw [bind_apply, h]

/-- Nothing follows an action that stops. -/
theorem bind_of_error (h : act m = .error stop m') : (act >>= next) m = .error stop m' := by
  rw [bind_apply, h]

/-- Two actions that give something have both given something. -/
theorem exists_of_bind_ok {b : β} (h : (act >>= next) m = .ok b m') :
    ∃ a m₁, act m = .ok a m₁ ∧ next a m₁ = .ok b m' := by
  cases hact : act m with
  | ok a m₁ => exact ⟨a, m₁, rfl, (bind_of_ok hact).symm.trans h⟩
  | error stop m₁ => cases (bind_of_error hact).symm.trans h

/-- What follows does not see how the first action is written. -/
theorem bind_congr_at (h : act m = act' m) (next : α → Run β) :
    (act >>= next) m = (act' >>= next) m := by
  rw [bind_apply, bind_apply, h]

end Bind

/-! ### Single actions -/

theorem valueOf_value (asked : Inquiry) (v : Value) : valueOf asked (.value v) = pure v := rfl

theorem bothValues_value (a b : Value) : bothValues (.value a) (.value b) = pure (a, b) := rfl

theorem shown_some (text : Text) : shown (some text) = pure text := rfl

/-- What a variable holds is looked up in the machine. -/
theorem load_apply (key : Option Text) (m : Machine) :
    load key m =
      match key.bind m.table.get? with
      | some y => .ok y m
      | none => .error (.fault .unbound) m := by
  have hget : (get : Run Machine) m = .ok m m := rfl
  rw [load, bind_of_ok hget]
  cases key.bind m.table.get? <;> rfl

theorem load_eq {key : Text} {m : Machine} {y : Yield} (h : m.table.get? key = some y) :
    load (some key) m = .ok y m := by
  rw [load_apply, Option.bind_some, h]

/-! ### Messages of a trace -/

/-- A trace below its level leaves no message. -/
theorem trace_eq {level least : Int} (h : level < least) (message? : Unit → Option Text) :
    trace level least message? = pure () := by
  rw [trace, if_pos h]

/-- A message that can be made is left in the log, or it is not asked for. -/
theorem exists_trace (level least : Int) (message : Text) (m : Machine) :
    ∃ log, trace level least (fun _ => some message) m = .ok () { m with log } := by
  by_cases hlevel : level < least
  · exact ⟨m.log, by rw [trace_eq hlevel]; rfl⟩
  · exact ⟨_, by rw [trace, if_neg hlevel]; rfl⟩

/-- **A message that cannot be made**: the level of detail asks for it, and what it has to show holds an
integer too long to be shown. -/
structure Untold (level least : Int) (y : Yield) : Prop where
  asked : least ≤ level
  hidden : y.description? = none

section Trace

variable {level least : Int} {y : Yield}

theorem not_untold_of_lt (h : level < least) : ¬Untold level least y := fun hu =>
  absurd hu.asked (Int.not_le.2 h)

/-- Making it fails, and nothing else is done. -/
theorem trace_of_untold (h : Untold level least y) (wording : Text → Text) (m : Machine) :
    trace level least (fun _ => y.description?.map wording) m = .error (.fault (.number .overlong)) m := by
  rw [trace, if_neg (Int.not_lt.2 h.asked), h.hidden]
  rfl

/-- Any other message can be made. -/
theorem exists_trace_of_not_untold (h : ¬Untold level least y) (wording : Text → Text) (m : Machine) :
    ∃ log, trace level least (fun _ => y.description?.map wording) m = .ok () { m with log } := by
  by_cases hlevel : level < least
  · exact ⟨m.log, by rw [trace_eq hlevel]; rfl⟩
  · cases hy : y.description? with
    | none => exact absurd ⟨Int.not_lt.1 hlevel, hy⟩ h
    | some shown => exact exists_trace level least (wording shown) m

end Trace

/-! ### Machines behind actions -/

/-- The machine behind an action, however it ends. -/
def after (act : Run α) (m : Machine) : Machine :=
  match act m with
  | .ok _ m' => m'
  | .error _ m' => m'

theorem after_of_ok {act : Run α} {a : α} {m m' : Machine} (h : act m = .ok a m') :
    act.after m = m' := by
  rw [after, h]

theorem after_of_error {act : Run α} {stop : Stop} {m m' : Machine} (h : act m = .error stop m') :
    act.after m = m' := by
  rw [after, h]

theorem after_load (key : Option Text) (m : Machine) : (load key).after m = m := by
  rw [after, load_apply]
  cases key.bind m.table.get? <;> rfl

/-! ### Results -/

/-- The result is one that the action may give. -/
def MayGive (act : Run α) (a : α) : Prop := ∃ m m', act m = .ok a m'

theorem MayGive.eq {a b : α} (h : (pure a : Run α).MayGive b) : b = a := by
  obtain ⟨m, m', h⟩ := h
  cases h
  rfl

theorem not_mayGive_throw {stop : Stop} {a : α} : ¬(throw stop : Run α).MayGive a := by
  rintro ⟨m, m', h⟩
  cases h

theorem MayGive.bind {act : Run α} {next : α → Run β} {b : β} (h : (act >>= next).MayGive b) :
    ∃ a, act.MayGive a ∧ (next a).MayGive b := by
  obtain ⟨m, m', h⟩ := h
  obtain ⟨a, m₁, hact, hnext⟩ := exists_of_bind_ok h
  exact ⟨a, ⟨m, m₁, hact⟩, m₁, m', hnext⟩

end MiniPascal.Run

import MiniPascal.Proofs.Run.Frame
import MiniPascal.Proofs.Run.Fuel

/-!
# The values of expressions

An expression **has a value** on a machine if visiting it gives that value, with some amount of fuel
and then with any greater one. It neither writes nor stores, so that the machine is the same behind it.
Which value it has is a matter of its own variables only: what else the machine holds, what it has
written and what is in its log does not count.

* `MiniPascal.Run.Evaluates`: the expression has the value on the machine.
* `MiniPascal.Run.Evaluates.of_agree`: it has it on every machine with the same variables.
* `MiniPascal.Run.ActsAs`: on the machine one tree does what another one does.
-/

namespace MiniPascal

open Node

namespace Run

variable {α β : Type} {level : Int} {fuel fuel' : Nat} {n n' n'' e : Node} {m m' : Machine} {y : Yield}
  {v : Value}

/-! ### Enough fuel -/

theorem Approximates.eq_of_ok {act act' : Run α} {a : α} (h : Approximates act act')
    (hok : act m = .ok a m') : act' m = .ok a m' := by
  rcases h m with ⟨m'', hexhausted⟩ | hsame
  · cases hexhausted.symm.trans hok
  · exact hsame ▸ hok

/-- What a visit gives it gives with more fuel, too. -/
theorem visit_ok_mono (hle : fuel ≤ fuel') (h : visit level fuel n m = .ok y m') :
    visit level fuel' n m = .ok y m' := (visit_approximates level hle n).eq_of_ok h

/-- **The expression has the value on the machine.** -/
def Evaluates (level : Int) (m : Machine) (e : Node) (v : Value) : Prop :=
  ∃ fuel, visit level fuel e m = .ok (.value v) m

/-- An expression that gives a value has it, as the machine is the same behind it. -/
theorem evaluates_of_ok (he : Shaped .expression e) (h : visit level fuel e m = .ok (.value v) m') :
    Evaluates level m e v := by
  obtain rfl := eq_of_visit_expression_ok he h
  exact ⟨fuel, h⟩

theorem Evaluates.exists_least (h : Evaluates level m e v) :
    ∃ least, ∀ fuel, least ≤ fuel → visit level fuel e m = .ok (.value v) m := by
  obtain ⟨least, hleast⟩ := h
  exact ⟨least, fun fuel hle => visit_ok_mono hle hleast⟩

/-- What a visit gives, unless it stops. -/
def given? : EStateM.Result Stop Machine Yield → Option Yield
  | .ok y _ => some y
  | .error _ _ => none

theorem exists_of_given? {r : EStateM.Result Stop Machine Yield} (h : (given? r).isSome = true) :
    ∃ y m', r = .ok y m' := by
  cases r with
  | ok y m' => exact ⟨y, m', rfl⟩
  | error => cases h

theorem evaluates_of_given? (he : Shaped .expression e)
    (h : (given? (visit level fuel e m)).bind Yield.value? = some v) : Evaluates level m e v := by
  obtain ⟨y, hy, hv⟩ := Option.bind_eq_some_iff.1 h
  obtain ⟨y', m', hvisit⟩ := exists_of_given? (Option.isSome_of_mem hy)
  rw [hvisit] at hy
  cases hy
  cases y with
  | value v' =>
    cases hv
    exact evaluates_of_ok he hvisit
  | nothing | list => cases hv

/-- **On the machine the first tree does what the second one does**: given enough fuel, its visit has
the same outcome as the visit of the second one with a fixed amount less. -/
def ActsAs (level : Int) (m : Machine) (n n' : Node) : Prop :=
  ∃ least extra, ∀ fuel, least ≤ fuel → visit level (fuel + extra) n m = visit level fuel n' m

/-! ### What an expression looks at -/

/-- The same result, or the same stop, and each on its machine. -/
inductive SameResult (m m' : Machine) :
    EStateM.Result Stop Machine α → EStateM.Result Stop Machine α → Prop
  | ok (a : α) : SameResult m m' (.ok a m) (.ok a m')
  | error (stop : Stop) : SameResult m m' (.error stop m) (.error stop m')

theorem SameResult.bind {act : Run α} {next : α → Run β} (h : SameResult m m' (act m) (act m'))
    (h' : ∀ a, act.MayGive a → SameResult m m' (next a m) (next a m')) :
    SameResult m m' ((act >>= next) m) ((act >>= next) m') := by
  generalize hr : act m = r, hr' : act m' = r' at h
  cases h with
  | ok a =>
    rw [bind_of_ok hr, bind_of_ok hr']
    exact h' a ⟨m, m, hr⟩
  | error stop =>
    rw [bind_of_error hr, bind_of_error hr']
    exact .error stop

end Run

/-- An action looks at the variables of an expression and at nothing else, and it changes nothing. -/
def Discipline.lookup {tree : Node} (h : ¬tree.Acts) : Discipline tree where
  Obeys act := ∀ m m' : Machine, (∀ key, tree.Binds key → m.table.get? key = m'.table.get? key) →
    Run.SameResult m m' (act m) (act m')
  pure a _ _ _ := .ok a
  throw stop _ _ _ := .error stop
  bind hact hnext m m' hm := (hact m m' hm).bind fun a ha => hnext a ha m m' hm
  write hacts := absurd hacts h
  trace hacts := absurd hacts h
  load key hkey m m' hm := by
    rw [Run.load_apply, Run.load_apply, Option.bind_some, Option.bind_some, hm key hkey]
    cases m'.table.get? key with
    | some y => exact .ok y
    | none => exact .error _
  store _ _ hkey := absurd hkey.acts h

namespace Run

variable {level : Int} {e : Node} {m m' : Machine} {v : Value}

/-- **The value of an expression is a matter of its variables.** -/
theorem Evaluates.of_agree (he : Shaped .expression e)
    (hagree : ∀ key, e.Binds key → m.table.get? key = m'.table.get? key)
    (h : Evaluates level m e v) : Evaluates level m' e v := by
  obtain ⟨fuel, hfuel⟩ := h
  have hsame := (Discipline.lookup he.not_acts).obeys_visit he level fuel .root m m' hagree
  rw [hfuel] at hsame
  generalize hr : visit level fuel e m' = r at hsame
  cases hsame
  exact ⟨fuel, hr⟩

end Run

end MiniPascal

import MiniPascal.Proofs.Run.Action

/-!
# Safe actions

An action on a machine is **safe** if it keeps the variables in order and stops only for a reason that
is excused. The variables are in order if their names are the given ones and none holds a list; such
a machine is **settled**. It is part of its being settled which variables hold a value: an assignment
adds to them, and no action takes one away.

An action that uses up its fuel is safe, as long as the machine is in order where it stops.

* `MiniPascal.Machine.Settled`: the variables are in order.
* `MiniPascal.Run.Safe`: the action is safe.
* `MiniPascal.Run.Safe.bind`: safe actions in a row.
-/

namespace MiniPascal

/-- No variable holds a list. -/
def SymbolTable.Plain (table : SymbolTable) : Prop := ∀ key items, table.get? key ≠ some (.list items)

/-- **A settled machine** has variables of the given names, none of which holds a list, and those of
the given keys hold a value. -/
structure Machine.Settled (names keys : List Text) (m : Machine) : Prop where
  names : m.table.names = names
  plain : m.table.Plain
  assigned : ∀ key ∈ keys, ∃ v, m.table.get? key = some (.value v)

theorem Machine.Settled.mono {names keys keys' : List Text} {m : Machine}
    (h : m.Settled names keys') (hk : ∀ key ∈ keys, key ∈ keys') : m.Settled names keys :=
  ⟨h.names, h.plain, fun key hkey => h.assigned key (hk key hkey)⟩

namespace Run

variable {α β : Type} {names keys keys' keys'' : List Text} {excused : Fault → Prop}

/-- **A safe action**: from a machine in which the variables of `keys` hold a value it leads to one
in which those of `keys'` do, with a result as asked for, or it stops for a reason that is excused. -/
def Safe (names : List Text) (excused : Fault → Prop) (keys keys' : List Text) (act : Run α)
    (post : α → Prop) : Prop :=
  ∀ m, m.Settled names keys → match act m with
    | .ok a m' => m'.Settled names keys' ∧ post a
    | .error stop m' => m'.Settled names [] ∧ ∀ f, stop = .fault f → excused f

/-! ### Actions in a row -/

theorem safe_pure {a : α} {post : α → Prop} (h : post a) :
    Safe names excused keys keys (pure a) post := fun _ hm => ⟨hm, h⟩

theorem Safe.bind {act : Run α} {next : α → Run β} {post : α → Prop} {post' : β → Prop}
    (h : Safe names excused keys keys' act post)
    (h' : ∀ a, post a → Safe names excused keys' keys'' (next a) post') :
    Safe names excused keys keys'' (act >>= next) post' := by
  intro m hm
  have hact := h m hm
  rw [bind_apply]
  cases hr : act m with
  | ok a m' =>
    rw [hr] at hact
    exact h' a hact.2 m' hact.1
  | error stop m' =>
    rw [hr] at hact
    exact hact

theorem Safe.mono {act : Run α} {post post' : α → Prop}
    (h : Safe names excused keys keys' act post) (hpost : ∀ a, post a → post' a)
    (hkeys : ∀ key ∈ keys'', key ∈ keys') : Safe names excused keys keys'' act post' := by
  intro m hm
  have hact := h m hm
  cases hr : act m with
  | ok a m' =>
    rw [hr] at hact
    exact ⟨hact.1.mono hkeys, hpost a hact.2⟩
  | error stop m' =>
    rw [hr] at hact
    exact hact

theorem Safe.imp {act : Run α} {post post' : α → Prop}
    (h : Safe names excused keys keys' act post) (hpost : ∀ a, post a → post' a) :
    Safe names excused keys keys' act post' := h.mono hpost fun _ => id

theorem Safe.map {act : Run α} {f : α → β} {post : β → Prop}
    (h : Safe names excused keys keys' act fun a => post (f a)) :
    Safe names excused keys keys' (f <$> act) post := by
  rw [show f <$> act = act >>= fun a => pure (f a) from rfl]
  exact h.bind fun a ha => safe_pure ha

/-! ### Single actions -/

theorem safe_fail {f : Fault} {post : α → Prop} (h : excused f) :
    Safe names excused keys keys' (fail f) post := by
  intro m hm
  refine ⟨hm.mono (by simp), ?_⟩
  rintro f ⟨⟩
  exact h

theorem safe_exhausted {post : α → Prop} :
    Safe names excused keys keys' (throw .exhausted) post := by
  intro m hm
  exact ⟨hm.mono (by simp), fun f hf => by cases hf⟩

theorem safe_ofExcept {e : Except Fault α} (h : ∀ f, e = .error f → excused f) :
    Safe names excused keys keys (ofExcept e) fun _ => True := by
  cases e with
  | ok a => exact safe_pure trivial
  | error f => exact safe_fail (h f rfl)

theorem safe_write (s : Text) : Safe names excused keys keys (write s) fun _ => True :=
  fun _ hm => ⟨⟨hm.names, hm.plain, hm.assigned⟩, trivial⟩

/-- A variable of the table holds nothing or a value. -/
theorem safe_load {key : Text} (h : key ∈ names) :
    Safe names excused keys keys (load (some key)) fun y => y = .nothing ∨ ∃ v, y = .value v := by
  intro m hm
  rw [← hm.names, SymbolTable.mem_names_iff] at h
  obtain ⟨y, hy⟩ := h
  rw [load_eq hy]
  refine ⟨hm, ?_⟩
  cases y with
  | nothing => exact .inl rfl
  | value v => exact .inr ⟨v, rfl⟩
  | list items => exact absurd hy (hm.plain key items)

/-- A variable that has been assigned to holds a value. -/
theorem safe_load_assigned {key : Text} (h : key ∈ keys) :
    Safe names excused keys keys (load (some key)) fun y => ∃ v, y = .value v := by
  intro m hm
  obtain ⟨v, hv⟩ := hm.assigned key h
  rw [load_eq hv]
  exact ⟨hm, v, rfl⟩

/-- Storing a value makes the variable one of those that hold a value. -/
theorem safe_store {key : Text} (h : key ∈ names) (v : Value) :
    Safe names excused keys (key :: keys) (store (some key) (.value v)) fun _ => True := by
  intro m hm
  refine ⟨⟨by simp [hm.names], ?_, ?_⟩, trivial⟩
  · intro other items
    rw [SymbolTable.get?_store]
    by_cases hk : key = other
    · rw [if_pos hk]
      cases m.table.get? other <;> simp
    · rw [if_neg hk]
      exact hm.plain other items
  · rw [← hm.names, SymbolTable.mem_names_iff] at h
    intro other hother
    rw [SymbolTable.get?_store]
    by_cases hk : key = other
    · subst hk
      obtain ⟨y, hy⟩ := h
      exact ⟨v, by simp [hy]⟩
    · rw [if_neg hk]
      rcases List.mem_cons.1 hother with rfl | hother
      · exact absurd rfl hk
      · exact hm.assigned other hother

end Run

end MiniPascal

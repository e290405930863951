import Mathlib.Data.List.Basic
import Mathlib.Data.List.Induction
import MiniPascal.Proofs.SymbolTable

/-!
# Symbol tables in use

A symbol table is used by asking it for the **entries** of names. Whoever gets an entry may keep it, and
store into it at any later time; the entry is told by the key of its name, in whatever spelling it was
asked for. A **history** is a list of such accesses, and a store in it names the access by which the entry
was got, not a name.

Two things have to be read off a history before it can be said what the table holds behind it. One is the
name by which an access got its entry, if it got one: an access that looked up a name before it was entered
got nothing, and a later store through it has no effect. The other is what was stored last through any
spelling of a name. Both look at an access in view of the earlier ones (`MiniPascal.SymbolTable.inView`),
so that one more access at the end of a history changes nothing in what is said of the others.

* `MiniPascal.SymbolTable.Access`, `MiniPascal.SymbolTable.Session`: one use of a table, and a table in use.
* `MiniPascal.SymbolTable.Implementation`: anything that can be used so.
* `MiniPascal.SymbolTable.entered`, `MiniPascal.SymbolTable.lastStored`: what is read off a history.
* `MiniPascal.SymbolTable.recalls_after`: the symbol table behind any history.
-/

namespace MiniPascal.SymbolTable

/-! ### Accesses -/

/-- One use of a symbol table. -/
inductive Access
  /-- Gives the entry of a name, which is made if there is none. -/
  | enter (name : Text)
  /-- Gives the entry of a name, if there is one. -/
  | lookup (name : Text)
  /-- Asks whether there is an entry of a name. -/
  | contains (name : Text)
  /-- Stores into the entry that an earlier access gave. Accesses are numbered from zero. -/
  | store (access : Nat) (y : Yield)

/-- What can be used as a symbol table: it hands out entries by names, and stores through them. -/
structure Implementation (Table Entry : Type) where
  start : Table
  enter : Table → Text → Entry × Table
  lookup : Table → Text → Option Entry
  store : Table → Entry → Yield → Table

/-- A table in use, with the entry that each access so far gave, in order. -/
structure Session (Table Entry : Type) where
  table : Table
  given : List (Option Entry)

section Session

variable {Table Entry : Type} {s : Session Table Entry} {access : Nat}

/-- The entry that an access gave. -/
def Session.entryAt (s : Session Table Entry) (access : Nat) : Option Entry := s.given[access]?.join

/-- The session behind one more access, by the table that it leaves and what it gives. -/
def Session.gave (s : Session Table Entry) (table : Table) (given? : Option Entry) : Session Table Entry :=
  ⟨table, s.given ++ [given?]⟩

/-- Does one access. A store through an access that gave nothing has no effect. -/
def Implementation.perform (impl : Implementation Table Entry) (s : Session Table Entry) :
    Access → Session Table Entry
  | .enter name => s.gave (impl.enter s.table name).2 (some (impl.enter s.table name).1)
  | .lookup name => s.gave s.table (impl.lookup s.table name)
  | .contains _ => s.gave s.table none
  | .store access y => s.gave ((s.entryAt access).elim s.table (impl.store s.table · y)) none

/-- **The session behind a history.** -/
def Implementation.after (impl : Implementation Table Entry) (history : List Access) :
    Session Table Entry :=
  history.foldl impl.perform ⟨impl.start, []⟩

theorem Implementation.perform_store_of_none (impl : Implementation Table Entry)
    (h : s.entryAt access = none) (y : Yield) : impl.perform s (.store access y) = s.gave s.table none := by
  rw [perform, h, Option.elim_none]

theorem Implementation.perform_store_of_some (impl : Implementation Table Entry) {entry : Entry}
    (h : s.entryAt access = some entry) (y : Yield) :
    impl.perform s (.store access y) = s.gave (impl.store s.table entry y) none := by
  rw [perform, h, Option.elim_some]

theorem Implementation.after_concat (impl : Implementation Table Entry) (earlier : List Access)
    (a : Access) : impl.after (earlier ++ [a]) = impl.perform (impl.after earlier) a := by
  rw [after, List.foldl_append]
  rfl

theorem getElem?_concat {α : Type} (l : List α) (a : α) (n : Nat) :
    (l ++ [a])[n]? = if n = l.length then some a else l[n]? := by
  rcases Nat.lt_trichotomy n l.length with hlt | rfl | hgt
  · rw [List.getElem?_append_left hlt, if_neg (Nat.ne_of_lt hlt)]
  · rw [List.getElem?_concat_length, if_pos rfl]
  · rw [if_neg (Nat.ne_of_gt hgt), List.getElem?_eq_none (Nat.le_of_lt hgt), List.getElem?_eq_none]
    rw [List.length_append]
    exact hgt

theorem Session.length_gave (s : Session Table Entry) (table : Table) (given? : Option Entry) :
    (s.gave table given?).given.length = s.given.length + 1 := List.length_append

theorem Session.entryAt_gave (s : Session Table Entry) (table : Table) (given? : Option Entry) (n : Nat) :
    (s.gave table given?).entryAt n = if n = s.given.length then given? else s.entryAt n := by
  rw [Session.entryAt, Session.gave, getElem?_concat, Session.entryAt]
  by_cases hn : n = s.given.length
  · rw [if_pos hn, if_pos hn, Option.join_some]
  · rw [if_neg hn, if_neg hn]

end Session

/-- The symbol table, with an entry told by its key. -/
def keyed : Implementation SymbolTable Text where
  start := empty
  enter table name := (key name, table.enter name)
  lookup table name := (table.lookup name).map fun _ => key name
  store table k y := table.store k y

/-- A name gives its key if the table has it. -/
theorem keyed_lookup (table : SymbolTable) (name : Text) :
    keyed.lookup table name = if table.contains name then some (key name) else none := by
  show (table.get? (key name)).map (fun _ => key name) =
    if (table.get? (key name)).isSome then some (key name) else none
  cases table.get? (key name) <;> rfl

/-! ### What is read off a history -/

/-- The name that an access enters. -/
def Access.entered? : Access → Option Text
  | enter name => some name
  | _ => none

/-- The names that a history enters, in order, as they are spelled. -/
def entered (history : List Access) : List Text := history.filterMap Access.entered?

/-- The name by which an access gets an entry behind the earlier ones. -/
def Access.asked? (earlier : List Access) : Access → Option Text
  | enter name => some name
  | lookup name => if (entered earlier).any (key · = key name) then some name else none
  | _ => none

/-- What is said of an access of a history in view of the earlier ones. -/
def inView {α : Type} (f : List Access → Access → Option α) (history : List Access) (n : Nat) : Option α :=
  history[n]?.bind (f (history.take n))

/-- **The name by which an access of a history got its entry**, if it got one. -/
def asked? (history : List Access) (access : Nat) : Option Text := inView Access.asked? history access

/-- What an access stores behind the earlier ones, with the name by which the entry was got. -/
def Access.stored? (earlier : List Access) : Access → Option (Text × Yield)
  | store access y => (SymbolTable.asked? earlier access).map (·, y)
  | _ => none

/-- All that a history stores, in order, each time with the name by which the entry was got. -/
def stored (history : List Access) : List (Text × Yield) :=
  (List.range history.length).filterMap (inView Access.stored? history)

/-- **What a history stores last through a name of the key**, in whatever spelling; nothing if it never
stores through one. -/
def lastStored (history : List Access) (k : Text) : Yield :=
  ((stored history).reverse.find? (key ·.1 = k)).elim .nothing (·.2)

/-! ### One more access -/

variable {earlier history : List Access} {a : Access} {n : Nat} {k m name : Text} {y : Yield}

theorem entered_concat_enter (earlier : List Access) (name : Text) :
    entered (earlier ++ [.enter name]) = entered earlier ++ [name] := List.filterMap_append

theorem entered_of_none (h : a.entered? = none) : entered (earlier ++ [a]) = entered earlier := by
  rw [entered, List.filterMap_append, List.filterMap_cons_none h, List.filterMap_nil, List.append_nil,
    entered]

/-- What is said of an access stays as it is when the history goes on. -/
theorem inView_concat {α : Type} (f : List Access → Access → Option α) (earlier : List Access) (a : Access)
    (n : Nat) :
    inView f (earlier ++ [a]) n = if n = earlier.length then f earlier a else inView f earlier n := by
  rw [inView, getElem?_concat, inView]
  by_cases hn : n = earlier.length
  · rw [if_pos hn, if_pos hn, hn, List.take_left, Option.bind_some]
  · rw [if_neg hn, if_neg hn]
    rcases Nat.lt_or_ge n earlier.length with hlt | hge
    · rw [List.take_append_of_le_length (Nat.le_of_lt hlt)]
    · rw [List.getElem?_eq_none hge, Option.bind_none, Option.bind_none]

theorem asked?_concat (earlier : List Access) (a : Access) (n : Nat) :
    asked? (earlier ++ [a]) n = if n = earlier.length then a.asked? earlier else asked? earlier n :=
  inView_concat Access.asked? earlier a n

theorem stored_concat (earlier : List Access) (a : Access) :
    stored (earlier ++ [a]) = stored earlier ++ (a.stored? earlier).toList := by
  have hearlier : (List.range earlier.length).filterMap (inView Access.stored? (earlier ++ [a])) =
      stored earlier :=
    List.filterMap_congr fun n hn => by
      rw [inView_concat, if_neg (Nat.ne_of_lt (List.mem_range.1 hn))]
  rw [stored, List.length_append, List.length_singleton, List.range_succ, List.filterMap_append, hearlier,
    List.filterMap_cons, List.filterMap_nil, inView_concat, if_pos rfl]
  cases a.stored? earlier <;> rfl

/-- An access that stores nothing leaves what was stored last. -/
theorem lastStored_of_none (h : a.stored? earlier = none) (k : Text) :
    lastStored (earlier ++ [a]) k = lastStored earlier k := by
  rw [lastStored, stored_concat, h, Option.toList_none, List.append_nil, lastStored]

theorem lastStored_of_some (h : a.stored? earlier = some (m, y)) (k : Text) :
    lastStored (earlier ++ [a]) k = if key m = k then y else lastStored earlier k := by
  rw [lastStored, stored_concat, h, Option.toList_some, List.reverse_append, List.reverse_singleton,
    List.singleton_append, lastStored]
  by_cases hk : key m = k
  · rw [List.find?_cons_of_pos (by simpa using hk), if_pos hk, Option.elim_some]
  · rw [List.find?_cons_of_neg (by simpa using hk), if_neg hk]

/-- An entry is got only by a name that was entered, in some spelling. -/
theorem exists_entered_of_asked? (h : asked? history n = some m) :
    ∃ name ∈ entered history, key name = key m := by
  obtain ⟨a, ha, hm⟩ := Option.bind_eq_some_iff.1 h
  cases a with
  | enter name =>
    obtain rfl := Option.some.inj hm
    exact ⟨name, List.mem_filterMap.2 ⟨.enter name, List.mem_of_getElem? ha, rfl⟩, rfl⟩
  | lookup name =>
    rw [Access.asked?] at hm
    split at hm
    · rename_i hany
      obtain rfl := Option.some.inj hm
      obtain ⟨name', hname', hkey⟩ := List.any_eq_true.1 hany
      obtain ⟨a', ha', hentered⟩ := List.mem_filterMap.1 hname'
      exact ⟨name', List.mem_filterMap.2 ⟨a', List.mem_of_mem_take ha', hentered⟩, by simpa using hkey⟩
    · cases hm
  | contains name => cases hm
  | store access y => cases hm

/-! ### The table behind a history -/

/-- A table that a name is entered in has the names that it had, and the new key if there was none. -/
theorem names_enter_of_eraseDups {table : SymbolTable} {names : List Text}
    (h : table.names = (names.map key).eraseDups) (name : Text) :
    (table.enter name).names = ((names ++ [name]).map key).eraseDups := by
  rw [← enterNames_nil (table.enter name), ← enterNames_cons, names_enterNames, List.map_append,
    List.eraseDups_append, h]
  congr 2
  refine List.filter_congr fun k _ => ?_
  rw [Bool.eq_iff_iff]
  simp

/-- A new entry holds nothing, as one that is not there. -/
theorem getD_get?_enter (table : SymbolTable) (name k : Text) :
    ((table.enter name).get? k).getD .nothing = (table.get? k).getD .nothing := by
  rw [get?_enter]
  cases table.get? k with
  | some y => rfl
  | none => by_cases hk : key name = k <;> simp [hk]

/-- **The session knows what the history did**: its names, what was stored last, and by which key each
access got its entry. -/
structure Recalls (history : List Access) (s : Session SymbolTable Text) : Prop where
  names : s.table.names = ((entered history).map key).eraseDups
  value : ∀ k, (s.table.get? k).getD .nothing = lastStored history k
  length : s.given.length = history.length
  entry : ∀ n, s.entryAt n = (asked? history n).map key

namespace Recalls

variable {s : Session SymbolTable Text}

theorem contains_iff (h : Recalls history s) :
    s.table.contains name = true ↔ ∃ m ∈ entered history, key m = key name := by
  rw [SymbolTable.contains_iff, h.names, List.mem_eraseDups, List.mem_map]

/-- The last access is the one that gave the last entry. -/
theorem gave (h : Recalls earlier s) {table : SymbolTable} {given? : Option Text}
    (hnames : table.names = ((entered (earlier ++ [a])).map key).eraseDups)
    (hvalue : ∀ k, (table.get? k).getD .nothing = lastStored (earlier ++ [a]) k)
    (hentry : given? = (a.asked? earlier).map key) : Recalls (earlier ++ [a]) (s.gave table given?) where
  names := hnames
  value := hvalue
  length := by rw [Session.length_gave, h.length, List.length_append, List.length_singleton]
  entry n := by
    rw [Session.entryAt_gave, asked?_concat, h.length]
    by_cases hn : n = earlier.length
    · rw [if_pos hn, if_pos hn, hentry]
    · rw [if_neg hn, if_neg hn, h.entry n]

/-- An access that enters and stores nothing. -/
theorem stays (h : Recalls earlier s) {given? : Option Text} (hentered : a.entered? = none)
    (hstored : a.stored? earlier = none) (hentry : given? = (a.asked? earlier).map key) :
    Recalls (earlier ++ [a]) (s.gave s.table given?) := by
  refine h.gave ?_ (fun k => ?_) hentry
  · rw [entered_of_none hentered, h.names]
  · rw [lastStored_of_none hstored, h.value]

/-- What is stored through an entry is held from then on. The entry is there, so that the store is not
lost. -/
theorem value_store (h : Recalls earlier s) {access : Nat} (hm : asked? earlier access = some m)
    (y : Yield) (k : Text) :
    ((s.table.store (key m) y).get? k).getD .nothing = lastStored (earlier ++ [.store access y]) k := by
  have hstored : (Access.store access y).stored? earlier = some (m, y) := by
    rw [Access.stored?, hm, Option.map_some]
  obtain ⟨y', hy'⟩ : ∃ y', s.table.get? (key m) = some y' :=
    Option.isSome_iff_exists.1 (h.contains_iff.2 (exists_entered_of_asked? hm))
  rw [lastStored_of_some hstored, ← h.value, get?_store]
  by_cases hk : key m = k
  · rw [if_pos hk, if_pos hk, ← hk, hy', Option.map_some, Option.getD_some]
  · rw [if_neg hk, if_neg hk]

/-- **One more access.** -/
theorem perform (h : Recalls earlier s) (a : Access) : Recalls (earlier ++ [a]) (keyed.perform s a) := by
  cases a with
  | enter name =>
    refine h.gave ?_ (fun k => ?_) rfl
    · rw [entered_concat_enter]
      exact names_enter_of_eraseDups h.names name
    · rw [lastStored_of_none rfl, ← h.value]
      exact getD_get?_enter s.table name k
  | lookup name =>
    refine h.stays rfl rfl ?_
    have hcontains : s.table.contains name = (entered earlier).any (key · = key name) := by
      rw [Bool.eq_iff_iff, h.contains_iff, List.any_eq_true]
      simp
    rw [keyed_lookup, Access.asked?, ← hcontains]
    cases s.table.contains name <;> rfl
  | contains name => exact h.stays rfl rfl rfl
  | store access y =>
    have hentry := h.entry access
    cases hm : asked? earlier access with
    | none =>
      rw [hm, Option.map_none] at hentry
      rw [keyed.perform_store_of_none hentry]
      exact h.stays rfl (by rw [Access.stored?, hm, Option.map_none]) rfl
    | some m =>
      rw [hm, Option.map_some] at hentry
      rw [keyed.perform_store_of_some hentry]
      refine h.gave ?_ (h.value_store hm y) rfl
      rw [entered_of_none rfl, ← h.names]
      exact names_store s.table (key m) y

end Recalls

/-- **The symbol table behind any history**, by induction on its last access. -/
theorem recalls_after (history : List Access) : Recalls history (keyed.after history) := by
  induction history using List.reverseRecOn with
  | nil => exact ⟨rfl, fun _ => rfl, rfl, fun _ => rfl⟩
  | append_singleton earlier a ih =>
    rw [Implementation.after_concat]
    exact ih.perform a

/-- The first access comes too early to get an entry, so that nothing is stored through it. -/
example : (keyed.after [.lookup "X", .enter "X", .lookup "x", .store 2 (.value (.integer 1)),
    .store 0 (.value (.integer 2))]).table.lookup "X" = some (.value (.integer 1)) := rfl

end MiniPascal.SymbolTable

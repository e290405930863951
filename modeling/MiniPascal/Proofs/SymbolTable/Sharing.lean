import MiniPascal.Proofs.SymbolTable.History

/-!
# Entries that are shared

In a symbol table an entry is no thing of its own. A key stands for it, and the table is searched for the
key whenever something is read or stored. The other way to keep entries is as **cells**: the table knows
the place of the cell of each key, and whoever gets an entry holds the place, reads and stores through it
and does not ask the table again. Then all who got the entry of a name share its cell.

The two ways cannot be told apart. No cell is dropped or gets another name, and so the place that an access
gave is the one that looking up its name gives at any later time. Seen through the places that it knows, the
table of cells is the symbol table behind the same history.

* `MiniPascal.SharedTable`, `MiniPascal.SharedTable.view`: a table of cells, and what is seen through it.
* `MiniPascal.SharedTable.Filed`: every cell is known under its name.
* `MiniPascal.SymbolTable.follows_after`: a table of cells and the symbol table behind one history.
* `MiniPascal.SymbolTable.remembers_history`: what either of them holds behind any history.
-/

namespace MiniPascal

/-! ### Tables of cells -/

/-- An entry that can be shared. -/
structure Cell where
  name : Text
  value : Yield

/-- All cells by their place, and the place of every key in the order of its entry. -/
structure SharedTable where
  cells : List Cell
  places : List (Text × Nat)

namespace SharedTable

open SymbolTable (key)

/-- The table without names. -/
def empty : SharedTable := ⟨[], []⟩

/-- The keys of the table, in the order of their entry. -/
def names (t : SharedTable) : List Text := t.places.map (·.1)

/-- The place of the cell of a name. -/
def lookup (t : SharedTable) (name : Text) : Option Nat :=
  (t.places.find? (·.1 = key name)).map (·.2)

/-- The place of the cell of a name, and the table with the name: a new cell holds nothing yet. -/
def enter (t : SharedTable) (name : Text) : Nat × SharedTable :=
  match t.lookup name with
  | some p => (p, t)
  | none =>
    (t.cells.length,
      ⟨t.cells ++ [⟨key name, .nothing⟩], t.places ++ [(key name, t.cells.length)]⟩)

/-- The table in which the cell at a place holds something new. -/
def store (t : SharedTable) (p : Nat) (y : Yield) : SharedTable :=
  { t with cells := t.cells.modify p fun c => { c with value := y } }

/-- **What is seen of the table through its places**: each key with what its cell holds. -/
def view (t : SharedTable) : SymbolTable :=
  ⟨t.places.filterMap fun e => t.cells[e.2]?.map fun c => (e.1, c.value)⟩

/-- The names of the cells. -/
def filedNames (t : SharedTable) : List Text := t.cells.map (·.name)

/-- **Every cell is known under its name**, and no two have the same name. -/
structure Filed (t : SharedTable) : Prop where
  places : t.places = t.filedNames.zipIdx
  nodup : t.filedNames.Nodup

variable {t : SharedTable} {name other : Text} {p : Nat}

/-! ### Looking up -/

theorem find?_entries {cells : List Cell} {c : Cell} (hnodup : (cells.map (·.name)).Nodup)
    (hc : cells[p]? = some c) :
    SymbolTable.find? c.name (cells.map fun c => (c.name, c.value)) = some c.value := by
  induction cells generalizing p with
  | nil => cases hc
  | cons c' cells ih =>
    rw [List.map_cons, List.nodup_cons] at hnodup
    rw [List.map_cons, SymbolTable.find?]
    cases p with
    | zero =>
      obtain rfl := Option.some.inj hc
      exact if_pos rfl
    | succ p =>
      rw [List.getElem?_cons_succ] at hc
      have hne : c'.name ≠ c.name := fun heq =>
        hnodup.1 (heq ▸ List.mem_map_of_mem (List.mem_of_getElem? hc))
      rw [if_neg hne, ih hnodup.2 hc]

namespace Filed

theorem names_eq (h : t.Filed) : t.names = t.filedNames := by
  rw [names, h.places]
  exact List.zipIdx_map_fst 0 _

/-- What is seen are the cells. -/
theorem entries_view (h : t.Filed) : t.view.entries = t.cells.map fun c => (c.name, c.value) := by
  have hseen : ∀ e ∈ t.cells.zipIdx,
      (t.cells[(Prod.map Cell.name id e).2]?.map fun c => ((Prod.map Cell.name id e).1, c.value)) =
        some (e.1.name, e.1.value) := by
    rintro ⟨c, p⟩ hc
    simp [List.mk_mem_zipIdx_iff_getElem?.1 hc]
  calc t.view.entries
      = (t.cells.zipIdx.map (Prod.map Cell.name id)).filterMap
          fun e => t.cells[e.2]?.map fun c => (e.1, c.value) := by
        rw [view, h.places, filedNames, List.zipIdx_map]
    _ = t.cells.zipIdx.filterMap fun e => some (e.1.name, e.1.value) := by
        rw [List.filterMap_map]
        exact List.filterMap_congr hseen
    _ = (t.cells.zipIdx.map Prod.fst).map fun c => (c.name, c.value) := by
        rw [List.map_map]
        exact congrFun List.filterMap_eq_map _
    _ = t.cells.map fun c => (c.name, c.value) := by rw [List.zipIdx_map_fst]

theorem names_view (h : t.Filed) : t.view.names = t.filedNames := by
  rw [SymbolTable.names, h.entries_view, List.map_map]
  rfl

/-- The place of a name is where the cell of its key is. -/
theorem lookup_eq_some_iff (h : t.Filed) :
    t.lookup name = some p ↔ t.filedNames[p]? = some (key name) := by
  have hplaces (k : Text) (p : Nat) : (k, p) ∈ t.places ↔ t.filedNames[p]? = some k := by
    rw [h.places]
    exact List.mk_mem_zipIdx_iff_getElem?
  rw [lookup, Option.map_eq_some_iff]
  constructor
  · rintro ⟨⟨k, p⟩, hfind, rfl⟩
    obtain rfl : k = key name := by simpa using List.find?_some hfind
    exact (hplaces _ _).1 (List.mem_of_find?_eq_some hfind)
  · intro hp
    obtain ⟨⟨k, p'⟩, hfind⟩ : ∃ e, t.places.find? (·.1 = key name) = some e :=
      Option.isSome_iff_exists.1 (List.find?_isSome.2 ⟨_, (hplaces _ _).2 hp, by simp⟩)
    obtain rfl : k = key name := by simpa using List.find?_some hfind
    have hp' : t.filedNames[p']? = some (key name) := (hplaces _ _).1 (List.mem_of_find?_eq_some hfind)
    have hlt : p < t.filedNames.length := (List.getElem?_eq_some_iff.1 hp).1
    exact ⟨_, hfind, ((List.getElem?_inj hlt h.nodup).1 (hp.trans hp'.symm)).symm⟩

/-- What a cell holds is what is seen under its name, as it is the only cell of the name. -/
theorem get?_view (h : t.Filed) {c : Cell} (hc : t.cells[p]? = some c) :
    t.view.get? c.name = some c.value := by
  rw [SymbolTable.get?, h.entries_view]
  exact find?_entries h.nodup hc

/-- A name has a place if its key is seen. -/
theorem isSome_lookup (h : t.Filed) : (t.lookup name).isSome = t.view.contains name := by
  rw [Bool.eq_iff_iff, SymbolTable.contains_iff, h.names_view, Option.isSome_iff_exists,
    List.mem_iff_getElem?]
  exact exists_congr fun p => h.lookup_eq_some_iff

end Filed

/-! ### Entering -/

theorem filed_empty : empty.Filed := ⟨rfl, List.nodup_nil⟩

theorem enter_of_some (h : t.lookup name = some p) : t.enter name = (p, t) := by
  rw [enter, h]

theorem enter_of_none (h : t.lookup name = none) :
    t.enter name = (t.cells.length,
      ⟨t.cells ++ [⟨key name, .nothing⟩], t.places ++ [(key name, t.cells.length)]⟩) := by
  rw [enter, h]

theorem filedNames_enter (h : t.lookup name = none) :
    (t.enter name).2.filedNames = t.filedNames ++ [key name] := by
  rw [enter_of_none h]
  exact List.map_append

/-- A place that is known stays the place of its name. -/
theorem lookup_enter_of_some (h : t.lookup other = some p) (name : Text) :
    (t.enter name).2.lookup other = some p := by
  cases hname : t.lookup name with
  | some p' => rw [enter_of_some hname, h]
  | none =>
    rw [enter_of_none hname]
    obtain ⟨e, hfind, rfl⟩ := Option.map_eq_some_iff.1 h
    rw [lookup, List.find?_append, hfind, Option.some_or, Option.map_some]

namespace Filed

theorem enter (h : t.Filed) (name : Text) : (t.enter name).2.Filed := by
  cases hname : t.lookup name with
  | some p => rwa [enter_of_some hname]
  | none =>
    have hnew : key name ∉ t.filedNames := fun hmem => by
      obtain ⟨p, hp⟩ := List.mem_iff_getElem?.1 hmem
      exact Option.some_ne_none p ((h.lookup_eq_some_iff.2 hp).symm.trans hname)
    constructor
    · rw [filedNames_enter hname, enter_of_none hname, List.zipIdx_append, ← h.places, Nat.zero_add,
        filedNames, List.length_map]
      rfl
    · rw [filedNames_enter hname, List.nodup_append]
      refine ⟨h.nodup, List.pairwise_singleton _ _, fun k hk k' hk' heq => hnew ?_⟩
      rwa [← List.mem_singleton.1 hk', ← heq]

/-- The place that a name is given is its place. -/
theorem lookup_enter (h : t.Filed) (name : Text) :
    (t.enter name).2.lookup name = some (t.enter name).1 := by
  cases hname : t.lookup name with
  | some p => rw [enter_of_some hname, hname]
  | none =>
    rw [(h.enter name).lookup_eq_some_iff, filedNames_enter hname, enter_of_none hname]
    have hlength : t.cells.length = t.filedNames.length := List.length_map _ |>.symm
    rw [hlength, List.getElem?_concat_length]

/-- **A name is entered in what is seen.** -/
theorem view_enter (h : t.Filed) (name : Text) : (t.enter name).2.view = t.view.enter name := by
  have hcontains : (t.lookup name).isSome = t.view.contains name := h.isSome_lookup
  cases hname : t.lookup name with
  | some p =>
    rw [hname, Option.isSome_some] at hcontains
    rw [enter_of_some hname, SymbolTable.enter_of_contains hcontains.symm]
  | none =>
    rw [hname, Option.isSome_none] at hcontains
    have hentries : (t.enter name).2.view.entries = (t.view.enter name).entries := by
      rw [(h.enter name).entries_view, enter_of_none hname, List.map_append, ← h.entries_view,
        SymbolTable.entries_enter_of_not_contains (by rw [← hcontains]; exact Bool.false_ne_true)]
      rfl
    exact congrArg SymbolTable.mk hentries

end Filed

/-! ### Storing -/

theorem filedNames_store (t : SharedTable) (p : Nat) (y : Yield) :
    (t.store p y).filedNames = t.filedNames := by
  refine List.ext_getElem? fun p' => ?_
  rw [filedNames, store, List.getElem?_map, List.getElem?_modify, filedNames, List.getElem?_map]
  cases t.cells[p']? with
  | none => rfl
  | some c => by_cases hp : p = p' <;> simp [hp]

/-- Storing in a cell is storing under its name, as it is the only cell of the name. -/
theorem entries_modify {cells : List Cell} {k : Text} (hnodup : (cells.map (·.name)).Nodup)
    (hp : (cells.map (·.name))[p]? = some k) (y : Yield) :
    (cells.modify p fun c => { c with value := y }).map (fun c => (c.name, c.value)) =
      SymbolTable.replace k y (cells.map fun c => (c.name, c.value)) := by
  induction cells generalizing p with
  | nil => cases hp
  | cons c cells ih =>
    rw [List.map_cons, List.nodup_cons] at hnodup
    cases p with
    | zero =>
      obtain rfl : c.name = k := Option.some.inj hp
      rw [List.modify_zero_cons, List.map_cons, List.map_cons, SymbolTable.replace, if_pos rfl]
    | succ p =>
      rw [List.map_cons, List.getElem?_cons_succ] at hp
      have hne : c.name ≠ k := fun heq => hnodup.1 (heq ▸ List.mem_of_getElem? hp)
      rw [List.modify_succ_cons, List.map_cons, List.map_cons, SymbolTable.replace, if_neg hne,
        ih hnodup.2 hp]

namespace Filed

theorem store (h : t.Filed) (p : Nat) (y : Yield) : (t.store p y).Filed where
  places := h.places.trans (congrArg List.zipIdx (filedNames_store t p y).symm)
  nodup := by
    rw [filedNames_store]
    exact h.nodup

/-- **What is stored through a place is stored in what is seen.** -/
theorem view_store (h : t.Filed) (hp : t.lookup name = some p) (y : Yield) :
    (t.store p y).view = t.view.store (key name) y := by
  have hentries : (t.store p y).view.entries = (t.view.store (key name) y).entries := by
    rw [(h.store p y).entries_view, SymbolTable.store, h.entries_view]
    exact entries_modify h.nodup (h.lookup_eq_some_iff.1 hp) y
  exact congrArg SymbolTable.mk hentries

end Filed

end SharedTable

namespace SymbolTable

/-! ### One history, two tables -/

/-- The table of cells, with an entry told by its place. -/
def shared : Implementation SharedTable Nat where
  start := .empty
  enter := SharedTable.enter
  lookup := SharedTable.lookup
  store := SharedTable.store

variable {earlier history : List Access} {a : Access}

/-- **The table of cells follows the symbol table**, and whoever got an entry holds the place that looking
up its name gives now. -/
structure Follows (history : List Access) (c : Session SharedTable Nat) (s : Session SymbolTable Text) :
    Prop where
  filed : c.table.Filed
  view : c.table.view = s.table
  length : c.given.length = history.length
  entry : ∀ n, c.entryAt n = (asked? history n).bind c.table.lookup

namespace Follows

variable {c : Session SharedTable Nat} {s : Session SymbolTable Text}

theorem isSome_lookup (h : Follows history c s) (hs : Recalls history s) (name : Text) :
    (c.table.lookup name).isSome = true ↔ ∃ m ∈ entered history, key m = key name := by
  rw [h.filed.isSome_lookup, h.view]
  exact hs.contains_iff

/-- A name by which an entry was got is in the table. -/
theorem exists_place (h : Follows history c s) (hs : Recalls history s) {n : Nat} {m : Text}
    (hm : asked? history n = some m) : ∃ p, c.table.lookup m = some p :=
  Option.isSome_iff_exists.1 ((h.isSome_lookup hs m).2 (exists_entered_of_asked? hm))

/-- The last access gave the last entry, and the places that were given before are still those of their
names. -/
theorem gave (h : Follows earlier c s) (hs : Recalls earlier s) {t : SharedTable} {table : SymbolTable}
    {place? : Option Nat} {given? : Option Text} (hfiled : t.Filed) (hview : t.view = table)
    (hkept : ∀ name p, c.table.lookup name = some p → t.lookup name = some p)
    (hplace : place? = (a.asked? earlier).bind t.lookup) :
    Follows (earlier ++ [a]) (c.gave t place?) (s.gave table given?) where
  filed := hfiled
  view := hview
  length := by rw [Session.length_gave, h.length, List.length_append, List.length_singleton]
  entry n := by
    rw [Session.entryAt_gave, asked?_concat, h.length]
    by_cases hn : n = earlier.length
    · rw [if_pos hn, if_pos hn, hplace]
      rfl
    · rw [if_neg hn, if_neg hn, h.entry n]
      cases hm : asked? earlier n with
      | none => rfl
      | some m =>
        obtain ⟨p, hp⟩ := h.exists_place hs hm
        exact hp.trans (hkept m p hp).symm

/-- A store through a place is a store under its name. -/
theorem view_store (h : Follows history c s) {name : Text} {p : Nat} (hp : c.table.lookup name = some p)
    (y : Yield) : (c.table.store p y).view = s.table.store (key name) y := by
  rw [h.filed.view_store hp, h.view]

/-- **One more access** to both tables. -/
theorem perform (h : Follows earlier c s) (hs : Recalls earlier s) (a : Access) :
    Follows (earlier ++ [a]) (shared.perform c a) (keyed.perform s a) := by
  cases a with
  | enter name =>
    refine h.gave hs (h.filed.enter name) ?_ (fun other p hp => ?_) (h.filed.lookup_enter name).symm
    · exact (h.filed.view_enter name).trans (congrArg (·.enter name) h.view)
    · exact SharedTable.lookup_enter_of_some hp name
  | lookup name =>
    refine h.gave hs h.filed h.view (fun _ _ hp => hp) ?_
    have hsome := h.isSome_lookup hs name
    rw [Access.asked?]
    split
    · rfl
    · -- a name that was not entered has no place
      rename_i hany
      have hnone : ¬(c.table.lookup name).isSome = true := by
        rw [hsome]
        simpa using hany
      exact Option.not_isSome_iff_eq_none.1 hnone
  | contains name => exact h.gave hs h.filed h.view (fun _ _ hp => hp) rfl
  | store access y =>
    have hplace := h.entry access
    have hentry := hs.entry access
    cases hm : asked? earlier access with
    | none =>
      rw [hm, Option.bind_none] at hplace
      rw [hm, Option.map_none] at hentry
      rw [shared.perform_store_of_none hplace, keyed.perform_store_of_none hentry]
      exact h.gave hs h.filed h.view (fun _ _ hp => hp) rfl
    | some m =>
      obtain ⟨p, hp⟩ := h.exists_place hs hm
      rw [hm, Option.bind_some, hp] at hplace
      rw [hm, Option.map_some] at hentry
      rw [shared.perform_store_of_some hplace, keyed.perform_store_of_some hentry]
      exact h.gave hs (h.filed.store p y) (h.view_store hp y) (fun _ _ hp => hp) rfl

end Follows

/-- **The two tables behind one history**, by induction on its last access. -/
theorem follows_after (history : List Access) :
    Follows history (shared.after history) (keyed.after history) := by
  induction history using List.reverseRecOn with
  | nil => exact ⟨SharedTable.filed_empty, rfl, rfl, fun _ => rfl⟩
  | append_singleton earlier a ih =>
    rw [Implementation.after_concat, Implementation.after_concat]
    exact ih.perform (recalls_after earlier) a

/-! ### What is held behind a history -/

/-- **A symbol table behind a history** is an ordered map: from the keys of the names that were entered, in
the order of their first entry, to what was stored last. -/
structure Remembers (history : List Access) (table : SymbolTable) : Prop where
  names : table.names = ((entered history).map key).eraseDups
  /-- The table lists one entry for each key, which has the key for its name. -/
  entries : table.entries = table.names.map fun k => (k, lastStored history k)
  contains : ∀ name, table.contains name = true ↔ ∃ m ∈ entered history, key m = key name
  lookup : ∀ name, (table.lookup name).isSome = true ↔ ∃ m ∈ entered history, key m = key name
  /-- In whatever spelling a name is looked up, it holds what was stored last in whatever spelling. -/
  value : ∀ name y, table.lookup name = some y → y = lastStored history (key name)
  /-- Entering a name again changes nothing. -/
  enter : ∀ name, (∃ m ∈ entered history, key m = key name) → table.enter name = table
  /-- A store changes no name, and what no other name holds. -/
  store : ∀ k y, (table.store k y).names = table.names ∧
    ∀ name, key name ≠ k → (table.store k y).lookup name = table.lookup name

/-- **A table of cells behind a history** has the same names as the symbol table, and in it the entries of
a name in all its spellings are one cell. -/
structure Shares (history : List Access) (c : Session SharedTable Nat) (table : SymbolTable) : Prop where
  /-- Seen through the places that it knows, it is the symbol table. -/
  view : c.table.view = table
  names : c.table.names = ((entered history).map key).eraseDups
  lookup : ∀ name, (c.table.lookup name).isSome = true ↔ ∃ m ∈ entered history, key m = key name
  /-- The name of an entry is its key, and it holds what was stored last. -/
  cell : ∀ name p, c.table.lookup name = some p →
    c.table.cells[p]? = some ⟨key name, lastStored history (key name)⟩
  /-- Entering a name again gives its entry, and changes nothing. -/
  enter : ∀ name p, c.table.lookup name = some p → c.table.enter name = (p, c.table)
  /-- A store through an entry is a store under its name, and so changes what no other name holds. -/
  store : ∀ name p y, c.table.lookup name = some p → (c.table.store p y).view = table.store (key name) y
  /-- Whoever got an entry, however long ago, holds the one that looking up its name gives now. -/
  entry : ∀ n, c.entryAt n = (asked? history n).bind c.table.lookup
  /-- Two entries that were got are one and the same if the names differ in spelling only. -/
  same : ∀ n n' m m', asked? history n = some m → asked? history n' = some m' →
    (c.entryAt n = c.entryAt n' ↔ key m = key m')

namespace Follows

variable {c : Session SharedTable Nat} {s : Session SymbolTable Text}

/-- A cell holds what was stored last under its name. -/
theorem value_cell (h : Follows history c s) (hs : Recalls history s) {p : Nat} {e : Cell}
    (he : c.table.cells[p]? = some e) : e.value = lastStored history e.name := by
  rw [← hs.value, ← h.view, h.filed.get?_view he, Option.getD_some]

theorem entries (h : Follows history c s) (hs : Recalls history s) :
    s.table.entries = s.table.names.map fun k => (k, lastStored history k) := by
  have hcells : ∀ e ∈ c.table.cells, (e.name, e.value) = (e.name, lastStored history e.name) := by
    intro e he
    obtain ⟨p, hp⟩ := List.mem_iff_getElem?.1 he
    rw [h.value_cell hs hp]
  rw [← h.view, h.filed.names_view, h.filed.entries_view, SharedTable.filedNames, List.map_map]
  exact List.map_congr_left hcells

theorem remembers (h : Follows history c s) (hs : Recalls history s) : Remembers history s.table where
  names := hs.names
  entries := h.entries hs
  contains _ := hs.contains_iff
  lookup _ := hs.contains_iff
  value name y hy := by
    rw [← hs.value, ← SymbolTable.lookup, hy, Option.getD_some]
  enter _ hname := enter_of_contains (hs.contains_iff.2 hname)
  store k y := by
    refine ⟨names_store s.table k y, fun name hname => ?_⟩
    rw [SymbolTable.lookup, get?_store, if_neg (Ne.symm hname), SymbolTable.lookup]

theorem cell (h : Follows history c s) (hs : Recalls history s) {name : Text} {p : Nat}
    (hp : c.table.lookup name = some p) :
    c.table.cells[p]? = some ⟨key name, lastStored history (key name)⟩ := by
  have hname := h.filed.lookup_eq_some_iff.1 hp
  rw [SharedTable.filedNames, List.getElem?_map, Option.map_eq_some_iff] at hname
  obtain ⟨⟨k, y⟩, he, rfl : k = key name⟩ := hname
  rw [he, ← h.value_cell hs he]

theorem shares (h : Follows history c s) (hs : Recalls history s) : Shares history c s.table where
  view := h.view
  names := by rw [h.filed.names_eq, ← h.filed.names_view, h.view, hs.names]
  lookup := h.isSome_lookup hs
  cell _ _ hp := h.cell hs hp
  enter _ _ hp := SharedTable.enter_of_some hp
  store _ _ y hp := h.view_store hp y
  entry := h.entry
  same n n' m m' hm hm' := by
    obtain ⟨p, hp⟩ := h.exists_place hs hm
    obtain ⟨p', hp'⟩ := h.exists_place hs hm'
    rw [h.entry, h.entry, hm, hm', Option.bind_some, Option.bind_some]
    constructor
    · -- a cell has one name only
      intro heq
      rw [hp, hp', Option.some.injEq] at heq
      subst heq
      exact congrArg Cell.name (Option.some.inj ((h.cell hs hp).symm.trans (h.cell hs hp')))
    · intro hkey
      rw [SharedTable.lookup, hkey, SharedTable.lookup]

end Follows

/-- **Symbol tables over any history**: the symbol table is an ordered map from keys to what was stored last
under them, and no history of accesses tells it from a table whose entries are shared. -/
theorem remembers_history (history : List Access) :
    Remembers history (keyed.after history).table ∧
      Shares history (shared.after history) (keyed.after history).table := by
  have hrecalls := recalls_after history
  have hfollows := follows_after history
  exact ⟨hfollows.remembers hrecalls, hfollows.shares hrecalls⟩

end SymbolTable

end MiniPascal

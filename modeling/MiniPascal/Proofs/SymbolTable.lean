import MiniPascal.SymbolTable

/-!
# Names in a symbol table

A table **contains** a name if it has the key of the name. Entering names one after the other adds
the keys that are new, each where it occurs first, and nothing else tells how often or in which case
of letters a name was entered.

* `MiniPascal.SymbolTable.enterNames`: the table behind some names.
* `MiniPascal.SymbolTable.entries_enterNames`: its entries, the old ones and the new ones.
* `MiniPascal.SymbolTable.names_enterNames`, `MiniPascal.SymbolTable.contains_enterNames`: its names.
-/

namespace MiniPascal.SymbolTable

variable {table : SymbolTable} {name : Text}

/-! ### One name -/

@[simp] theorem contains_empty (name : Text) : empty.contains name = false := rfl

theorem has_iff {k : Text} : table.has k = true ↔ k ∈ table.names := by
  rw [has, Option.isSome_iff_exists, mem_names_iff]

theorem contains_iff : table.contains name = true ↔ key name ∈ table.names := has_iff

theorem has_enter (table : SymbolTable) (name k : Text) :
    (table.enter name).has k = (table.has k || key name = k) := by
  rw [has, get?_enter, has]
  by_cases h : key name = k <;> simp [h]

theorem contains_enter (table : SymbolTable) (name other : Text) :
    (table.enter name).contains other = (table.contains other || key name = key other) :=
  has_enter table name (key other)

/-! ### Any number of names -/

/-- The table behind some names, which are entered in order. -/
def enterNames (table : SymbolTable) (names : List Text) : SymbolTable := names.foldl enter table

@[simp] theorem enterNames_nil (table : SymbolTable) : table.enterNames [] = table := rfl

@[simp] theorem enterNames_cons (table : SymbolTable) (name : Text) (names : List Text) :
    table.enterNames (name :: names) = (table.enter name).enterNames names := rfl

@[simp] theorem enterNames_append (table : SymbolTable) (names names' : List Text) :
    table.enterNames (names ++ names') = (table.enterNames names).enterNames names' :=
  List.foldl_append

/-- The entries that some names add: one without a value for every key that is new, where it occurs
first. -/
def newEntries (table : SymbolTable) (names : List Text) : List (Text × Yield) :=
  ((names.map key).filter (!table.has ·)).eraseDups.map (·, .nothing)

/-- **The entries behind some names**: those that were there are as before, and the new ones follow. -/
theorem entries_enterNames (table : SymbolTable) (names : List Text) :
    (table.enterNames names).entries = table.entries ++ table.newEntries names := by
  induction names generalizing table with
  | nil => simp [newEntries]
  | cons name names ih =>
    rw [enterNames_cons, ih]
    unfold newEntries
    rw [List.map_cons]
    by_cases h : table.has (key name) = true
    · rw [enter_of_contains h, List.filter_cons_of_neg (by simpa using h)]
    · rw [entries_enter_of_not_contains h, List.filter_cons_of_pos (by simpa using h),
        List.eraseDups_cons, List.filter_filter, List.append_assoc, List.singleton_append,
        List.map_cons]
      -- what is left is new to the longer table
      congr 4
      refine List.filter_congr fun k _ => ?_
      by_cases hk : key name = k
      · simp [has_enter, hk]
      · simp [has_enter, hk, Ne.symm hk]

/-- **The names behind others**: every key that is new goes to the end where it occurs first. -/
theorem names_enterNames (table : SymbolTable) (names : List Text) :
    (table.enterNames names).names =
      table.names ++ ((names.map key).filter (· ∉ table.names)).eraseDups := by
  have hnew : (names.map key).filter (!table.has ·) = (names.map key).filter (· ∉ table.names) :=
    List.filter_congr fun k _ => by simp [← has_iff]
  rw [SymbolTable.names, entries_enterNames, List.map_append, newEntries, hnew, List.map_map]
  exact congrArg _ (List.map_id _)

theorem contains_enterNames {names : List Text} :
    (table.enterNames names).contains name = true ↔
      key name ∈ table.names ∨ key name ∈ names.map key := by
  rw [contains_iff, names_enterNames, List.mem_append, List.mem_eraseDups, List.mem_filter]
  by_cases h : key name ∈ table.names <;> simp [h]

end MiniPascal.SymbolTable

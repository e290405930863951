import MiniPascal.Text.Lowercase
import MiniPascal.Text.Quoted
import MiniPascal.Yield

/-!
# The symbol table

A **symbol table** holds the names of a program in the order in which they were first entered,
each with what the variable of that name holds. Names that differ only in case are one name: a
name is kept and looked up by its **key**, its lower case.

* `MiniPascal.SymbolTable.enter`: makes sure that a name is in the table.
* `MiniPascal.SymbolTable.lookup`: what the variable of a name holds, if the name is there.
* `MiniPascal.SymbolTable.store`: changes what the variable of a key holds.
-/

namespace MiniPascal

/-- Names with what their variables hold, in the order of their first entry. -/
structure SymbolTable where
  entries : List (Text × Yield)
deriving Inhabited

namespace SymbolTable

/-! ### Entries by key -/

/-- What the entry of a key holds. -/
def find? (key : Text) : List (Text × Yield) → Option Yield
  | [] => none
  | (k, y) :: entries => if k = key then some y else find? key entries

/-- The entries with the first one of a key holding something new. -/
def replace (key : Text) (y : Yield) : List (Text × Yield) → List (Text × Yield)
  | [] => []
  | (k, y') :: entries =>
    if k = key then (k, y) :: entries else (k, y') :: replace key y entries

/-! ### The table -/

/-- The table without names. -/
def empty : SymbolTable := ⟨[]⟩

/-- The key of a name. -/
def key (name : Text) : Text := Text.lowercase name

/-- The keys of the table, in the order of their entry. -/
def names (table : SymbolTable) : List Text := table.entries.map (·.1)

/-- What the variable of a key holds. -/
def get? (table : SymbolTable) (key : Text) : Option Yield := find? key table.entries

/-- Whether the table has the key. -/
def has (table : SymbolTable) (key : Text) : Bool := (table.get? key).isSome

/-- What the variable of a name holds. -/
def lookup (table : SymbolTable) (name : Text) : Option Yield := table.get? (key name)

/-- Whether the table has the name. -/
def contains (table : SymbolTable) (name : Text) : Bool := table.has (key name)

/-- The table with the name: a new one goes to the end and holds nothing yet. -/
def enter (table : SymbolTable) (name : Text) : SymbolTable :=
  if table.has (key name) then table else ⟨table.entries ++ [(key name, .nothing)]⟩

/-- The table in which the variable of a key holds something new. -/
def store (table : SymbolTable) (key : Text) (y : Yield) : SymbolTable :=
  ⟨replace key y table.entries⟩

/-- The entry of a key as it is shown; an overlong integer cannot be shown. -/
def entryDescription? (key : Text) (y : Yield) : Option Text := do
  let shown ← y.description?
  return "SymtabEntry(" ++ Text.quote key ++ ", " ++ shown ++ ")"

/-! ### What the operations do -/

theorem find?_append (key : Text) (l l' : List (Text × Yield)) :
    find? key (l ++ l') = (find? key l).or (find? key l') := by
  induction l with
  | nil => simp [find?]
  | cons e l ih =>
    obtain ⟨k, y⟩ := e
    by_cases h : k = key <;> simp [find?, h, ih]

theorem find?_replace (key other : Text) (y : Yield) (l : List (Text × Yield)) :
    find? other (replace key y l) =
      if key = other then (find? other l).map fun _ => y else find? other l := by
  induction l with
  | nil => simp [find?, replace]
  | cons e l ih =>
    obtain ⟨k, y'⟩ := e
    by_cases h : k = key <;> by_cases h' : key = other <;> simp_all [find?, replace]

theorem map_fst_replace (key : Text) (y : Yield) (l : List (Text × Yield)) :
    (replace key y l).map (·.1) = l.map (·.1) := by
  induction l with
  | nil => rfl
  | cons e l ih =>
    obtain ⟨k, y'⟩ := e
    by_cases h : k = key <;> simp [replace, h, ih]

/-- The keys of a table are those under which something is found. -/
theorem mem_names_iff {table : SymbolTable} {key : Text} :
    key ∈ table.names ↔ ∃ y, table.get? key = some y := by
  have entries (l : List (Text × Yield)) : key ∈ l.map (·.1) ↔ ∃ y, find? key l = some y := by
    induction l with
    | nil => simp [find?]
    | cons e l ih =>
      obtain ⟨k, y⟩ := e
      by_cases h : k = key
      · simp [find?, h]
      · simpa [find?, h, Ne.symm h] using ih
  exact entries table.entries

/-- Storing neither adds nor moves a name. -/
@[simp] theorem names_store (table : SymbolTable) (key : Text) (y : Yield) :
    (table.store key y).names = table.names :=
  map_fst_replace key y table.entries

/-- Storing changes what the variable of the key holds, and no other. -/
theorem get?_store (table : SymbolTable) (key other : Text) (y : Yield) :
    (table.store key y).get? other =
      if key = other then (table.get? other).map fun _ => y else table.get? other :=
  find?_replace key other y table.entries

/-- Entering a name that is there changes nothing. -/
theorem enter_of_contains {table : SymbolTable} {name : Text} (h : table.contains name = true) :
    table.enter name = table := by
  simp only [contains] at h
  simp [enter, h]

/-- A new name goes to the end, and its variable holds nothing yet. -/
theorem entries_enter_of_not_contains {table : SymbolTable} {name : Text}
    (h : ¬table.contains name = true) :
    (table.enter name).entries = table.entries ++ [(key name, .nothing)] := by
  have hnew : ¬table.has (key name) = true := h
  rw [enter, if_neg hnew]

/-- Entering a name leaves what every other variable holds. -/
theorem get?_enter (table : SymbolTable) (name other : Text) :
    (table.enter name).get? other =
      (table.get? other).or (if key name = other then some .nothing else none) := by
  unfold enter
  split
  · rename_i h
    by_cases h' : key name = other
    · subst h'
      obtain ⟨y, hy⟩ := Option.isSome_iff_exists.1 h
      simp [hy]
    · simp [h']
  · simp [get?, find?_append, find?]

end SymbolTable

end MiniPascal

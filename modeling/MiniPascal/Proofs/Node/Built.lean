import MiniPascal.Proofs.Node.Occurrence

/-!
# Trees that are built

Readers build trees of program texts with errors, too, and leave out what they could not read. Such
a tree may lack any of its children, but for one: an assignment has a target, because that is what
it starts with. And its leaves are whole. A variable has a name and is bound to nothing but the key
of that name, and a constant has a value of its kind, which for a real is a number.

This is all that saving a tree and loading it again asks for. It is much less than the shape of a
tree without errors (`MiniPascal.Shaped`).

* `MiniPascal.Built`, `MiniPascal.BuiltProgram`: the trees that are built, complete or not.
* `MiniPascal.map_unbound?`: their variables that are not bound, as nodes and as occurrences.
-/

namespace MiniPascal

open Node

/-- The kinds of nodes that have nothing but children. -/
def Node.Kind.isBare : Kind → Bool
  | program | assign | var | integerConstant | realConstant | stringConstant | other _ => false
  | _ => true

/-- **The trees that are built** within a program. Fields that are not given are empty. -/
inductive Built : Node → Prop
  | var (line : Int) (name : Text) {slot : Option Text} :
    (∀ key, slot = some key → key = SymbolTable.key name) →
    Built { kind := .var, line, text := .text name, slot }
  | integer (line : Int) (text : Text) (n : Int) :
    Built { kind := .integerConstant, line, text := .text text, value := .int n }
  | real (line : Int) (text : Text) {x : Binary64} : x ≠ .nan →
    Built { kind := .realConstant, line, text := .text text, value := .real x }
  | string (line : Int) (text s : Text) :
    Built { kind := .stringConstant, line, text := .text text, value := .text s }
  | assign (line line' : Int) (name : Text) {ns : List Node} : (∀ n ∈ ns, Built n) →
    Built { kind := .assign, line,
            children := { kind := .var, line := line', text := .text name,
                          slot := some (SymbolTable.key name) } :: ns }
  | bare (line : Int) {kind : Node.Kind} {descending : Bool} {ns : List Node} : kind.isBare = true →
    (∀ n ∈ ns, Built n) → Built { kind, line, descending, children := ns }

/-- **The programs that are built**, with a name or without one. -/
inductive BuiltProgram : Node → Prop
  | intro (line : Int) (name : Option Text) {ns : List Node} : (∀ n ∈ ns, Built n) →
    BuiltProgram
      { kind := .program, line, text := (name.map Datum.text).getD .null, children := ns }

/-! ### Occurrences -/

section Occurrences

variable {line line' : Int} {name text : Text} {slot : Option Text} {value : Datum}
  {descending : Bool} {kind : Node.Kind} {ns : List Node} {n : Node}

theorem occurrences_variable :
    occurrences { kind := .var, line, text := .text name, slot } = [.refers line name slot] :=
  rfl

theorem occurrences_assign :
    occurrences
        { kind := .assign, line,
          children := { kind := .var, line := line', text := .text name, slot } :: ns } =
      .declares name :: .refers line' name slot :: ns.flatMap occurrences := by
  rw [occurrences_eq, List.flatMap_cons, occurrences_variable]
  rfl

theorem occurrences_program {name : Option Text} :
    occurrences
        { kind := .program, line, text := (name.map Datum.text).getD .null, children := ns } =
      name.toList.map .declares ++ ns.flatMap occurrences := by
  rw [occurrences_eq]
  cases name <;> rfl

theorem occurrences_bare (hk : kind.isBare = true) :
    occurrences { kind, line, descending, children := ns } = ns.flatMap occurrences := by
  rw [occurrences_eq]
  cases kind <;> first | rfl | cases hk

end Occurrences

/-! ### Variables -/

theorem Built.child {n m : Node} (h : Built n) (hm : m ∈ n.children) : Built m := by
  cases h with
  | var | integer | real | string => cases hm
  | assign line line' name hns =>
    rcases List.mem_cons.1 hm with rfl | hm
    · exact .var line' name fun key hkey => (Option.some.inj hkey).symm
    · exact hns m hm
  | bare _ _ hns => exact hns m hm

/-- A program does not stand within another. -/
theorem Built.kind_ne {n : Node} (h : Built n) : n.kind ≠ .program := by
  cases h with
  | bare _ hk =>
    rintro rfl
    cases hk
  | _ => simp

theorem BuiltProgram.kind_eq {n : Node} (h : BuiltProgram n) : n.kind = .program := by
  cases h
  rfl

theorem BuiltProgram.child {n m : Node} (h : BuiltProgram n) (hm : m ∈ n.children) : Built m := by
  cases h with
  | intro _ _ hns => exact hns m hm

/-- Below a program everything is built. -/
theorem BuiltProgram.built_of_mem_tail {n m : Node} (h : BuiltProgram n)
    (hm : m ∈ n.preorder.tail) : Built m := by
  rw [preorder_eq, List.tail_cons] at hm
  obtain ⟨c, hc, hm⟩ := List.mem_flatMap.1 hm
  exact everywhere_iff.1 (everywhere_of_child (fun _ hb _ => hb.child) (h.child hc)) m hm

theorem BuiltProgram.eq_or_built {n m : Node} (h : BuiltProgram n) (hm : m ∈ n.preorder) :
    m = n ∨ Built m := by
  rw [preorder_eq] at hm
  exact (List.mem_cons.1 hm).imp id fun hm => h.built_of_mem_tail (by rwa [preorder_eq])

theorem BuiltProgram.built_of_variable {n v : Node} (h : BuiltProgram n) (hv : v ∈ n.preorder)
    (hk : v.kind = .var) : Built v := by
  rcases h.eq_or_built hv with rfl | hb
  · cases h.kind_eq.symm.trans hk
  · exact hb

/-- A variable says of its name what it is bound to. -/
theorem Built.occurrence?_eq {v : Node} (h : Built v) (hv : v.kind = .var) :
    ∃ name, v.text = .text name ∧ v.occurrence? = some (.refers v.line name v.slot) ∧
      ∀ key, v.slot = some key → key = SymbolTable.key name := by
  cases h with
  | var _ name hslot => exact ⟨name, rfl, rfl, hslot⟩
  | bare _ hk =>
    obtain rfl := hv
    cases hk
  | _ => cases hv

theorem unbound?_of_kind_ne {n : Node} (hn : n.kind ≠ .var) :
    n.occurrence?.bind Occurrence.unbound? = none := by
  unfold occurrence?
  split
  · rfl
  · exact absurd (by assumption) hn
  · rfl

/-- **The variables that are not bound**, as occurrences and as nodes. -/
theorem map_unbound? {l : List Node} (h : ∀ v ∈ l, v.kind = .var → Built v) :
    (((l.filterMap occurrence?).filterMap Occurrence.unbound?).map fun u => (u.1, Datum.text u.2)) =
      (l.filter fun v => v.kind = .var ∧ v.slot = none).map fun v => (v.line, v.text) := by
  rw [List.filterMap_filterMap, List.map_filterMap]
  induction l with
  | nil => rfl
  | cons v l ih =>
    rw [List.filterMap_cons, List.filter_cons, ih fun n hn => h n (List.mem_cons_of_mem v hn)]
    by_cases hv : v.kind = .var
    · obtain ⟨name, htext, ho, -⟩ := (h v List.mem_cons_self hv).occurrence?_eq hv
      rw [ho]
      cases v.slot <;> simp [hv, htext, Occurrence.unbound?]
    · rw [unbound?_of_kind_ne hv]
      simp [hv]

theorem unbound?_eq_nil_iff {l : List Node} (h : ∀ v ∈ l, v.kind = .var → Built v) :
    (l.filterMap occurrence?).filterMap Occurrence.unbound? = [] ↔
      ∀ v ∈ l, v.kind = .var → v.slot ≠ none := by
  rw [← List.map_eq_nil_iff, map_unbound? h, List.map_eq_nil_iff, List.filter_eq_nil_iff]
  simp

end MiniPascal

import MiniPascal.Node.Document
import MiniPascal.Proofs.Node.Built

/-!
# Saving a tree and loading it again

A saved tree has everything but the places to which its variables are bound. Loading it enters the
names that it comes across, so that in the end every variable is bound, whether it was before or
not, and the symbol table has the names in the order of their first occurrence.

* `MiniPascal.Node.Describes.ofDatum_eq`: loading one node, given its children.
* `MiniPascal.Node.rebound`: the tree with every variable bound.
* `MiniPascal.BuiltProgram.loads`: loading a saved program.
* `MiniPascal.BuiltProgram.same_rebound_iff`: when it is the same program again.
-/

namespace MiniPascal

/-! ### Looking up a field -/

theorem Text.ofString_inj {s t : String} : ofString s = ofString t ↔ s = t := by
  rw [ofString, ofString, ofChars, ofChars, List.map_inj_right fun _ _ => CodePoint.char.inj,
    String.toList_inj]

namespace Datum

theorem find?_append (key : Text) (l l' : List (Text × Datum)) :
    find? key (l ++ l') = (find? key l).or (find? key l') := by
  induction l with
  | nil => rfl
  | cons e l ih =>
    obtain ⟨k, d⟩ := e
    by_cases h : k = key <;> simp [find?, h, ih]

end Datum

namespace Node

open Datum

/-- The fields of the document of a node. -/
def savedFields (n : Node) : List (Text × Datum) :=
  [field "type" (.text n.kind.name), field "line" (.int n.line)] ++
  (if n.text.isNull then [] else [field "text" n.text]) ++
  (if n.value.isNull then [] else [field "value" n.value]) ++
  (if n.descending then [field "descending" (.bool true)] else []) ++
  (if n.children.isEmpty then [] else [field "children" (.list (toData n.children))])

theorem toDatum_eq (n : Node) : n.toDatum = .record n.savedFields := by
  cases n
  rw [toDatum]
  rfl

theorem find?_cons_field (name other : String) (d : Datum) (fields : List (Text × Datum)) :
    find? other (field name d :: fields) = if name = other then some d else find? other fields := by
  by_cases h : name = other <;> simp [field, find?, Text.ofString_inj, h]

/-- **The fields describe the node**, whatever it is bound to. -/
structure Describes (fields : List (Text × Datum)) (n : Node) : Prop where
  kind : find? "type" fields = some (.text n.kind.name)
  line : find? "line" fields = some (.int n.line)
  text : fieldD fields "text" = n.text
  value : fieldD fields "value" = n.value
  descending : (fieldD fields "descending").isTruthy = n.descending
  children : find? "children" fields =
    if n.children.isEmpty then none else some (.list (toData n.children))

theorem describes_savedFields (n : Node) : Describes n.savedFields n := by
  refine ⟨?_, ?_, ?_, ?_, ?_, ?_⟩ <;>
    simp only [fieldD, savedFields, find?_append, apply_ite (find? _), find?_cons_field, find?_nil,
      List.cons_append, List.nil_append]
  · simp
  · simp
  · cases n.text <;> simp [isNull]
  · cases n.value <;> simp [isNull]
  · cases n.descending <;> simp [isTruthy]
  · simp

/-! ### Loading one node -/

section Load

variable {n : Node} {fields : List (Text × Datum)}

theorem Describes.loadKind_eq (h : Describes fields n)
    (hkind : Kind.ofName? n.kind.name = some n.kind) : loadKind fields = .ok n.kind := by
  rw [loadKind, fieldD, h.kind]
  simp [hkind]

theorem Describes.loadLine_eq (h : Describes fields n) : loadLine fields = .ok n.line := by
  rw [loadLine, h.line]
  rfl

theorem Describes.loadValue_eq (h : Describes fields n)
    (hvalue : n.kind = .realConstant → n.value = .null ∨ ∃ x, n.value = .real x) :
    loadValue n.kind fields = .ok n.value := by
  rw [loadValue, h.value]
  by_cases hk : n.kind = .realConstant
  · rcases hvalue hk with hx | ⟨x, hx⟩ <;> rw [hx, hk] <;> rfl
  · simp [hk]

theorem ofChildren_eq_find? (fields : List (Text × Datum)) :
    ofChildren fields =
      match find? "children" fields with
      | some d => ofItems d
      | none => return [] := by
  induction fields with
  | nil => rw [ofChildren, find?]
  | cons e fields ih =>
    obtain ⟨k, d⟩ := e
    rw [ofChildren, find?, ih]
    by_cases h : k = Text.ofString "children" <;> simp [h]

theorem Describes.ofChildren_eq (h : Describes fields n) :
    childrenFault? (find? "children" fields) = none ∧
      ofChildren fields = ofData (toData n.children) := by
  rw [ofChildren_eq_find?, h.children]
  cases n.children with
  | nil => exact ⟨rfl, by simp [toData, ofData]⟩
  | cons => exact ⟨rfl, by simp [ofItems]⟩

theorem ofExcept_bind {α β : Type} (a : α) (f : α → Loader β) :
    (ofExcept (.ok a : Except LoadFault α) >>= f) = f a := rfl

/-- **Loading one node**, given how its name is entered and its children are loaded. -/
theorem Describes.ofDatum_eq (h : Describes fields n)
    (hkind : Kind.ofName? n.kind.name = some n.kind)
    (hvalue : n.kind = .realConstant → n.value = .null ∨ ∃ x, n.value = .real x) :
    ofDatum (.record fields) = do
      let slot ← loadSlot n.kind n.text
      let children ← ofData (toData n.children)
      return { n with slot, children } := by
  rw [ofDatum, loadNode, h.loadKind_eq hkind, ofExcept_bind, h.loadLine_eq, ofExcept_bind,
    h.loadValue_eq hvalue, ofExcept_bind, h.text, h.descending, h.ofChildren_eq.1,
    h.ofChildren_eq.2]

end Load

/-! ### Binding every variable -/

/-- What a node is bound to when it is loaded: a variable to the key of its name. -/
def boundSlot (n : Node) : Option Text :=
  match n.kind, n.text with
  | .var, .text name => some (SymbolTable.key name)
  | _, _ => none

mutual

/-- The tree with every variable bound. -/
def rebound : Node → Node
  | ⟨kind, line, text, value, slot, descending, children⟩ =>
    ⟨kind, line, text, value, boundSlot ⟨kind, line, text, value, slot, descending, children⟩,
      descending, reboundAll children⟩

/-- The trees with every variable bound. -/
def reboundAll : List Node → List Node
  | [] => []
  | n :: ns => rebound n :: reboundAll ns

end

theorem reboundAll_eq_map (ns : List Node) : reboundAll ns = ns.map rebound := by
  induction ns with
  | nil => rfl
  | cons n ns ih => rw [reboundAll, ih, List.map_cons]

theorem rebound_eq (n : Node) :
    n.rebound = { n with slot := n.boundSlot, children := n.children.map rebound } := by
  cases n
  rw [rebound, reboundAll_eq_map]

/-! ### Loading trees -/

theorem loader_bind {α β : Type} {x : Loader α} {f : α → Loader β} {a : α}
    {table table' : SymbolTable} (h : x table = .ok a table') : (x >>= f) table = f a table' := by
  simp only [bind, EStateM.bind, h]

/-- Trees are loaded one after the other. -/
theorem ofData_toData {load : Node → Node} {names : Node → List Text} {ns : List Node}
    (h : ∀ n ∈ ns, ∀ table,
      ofDatum n.toDatum table = .ok (load n) (table.enterNames (names n))) (table : SymbolTable) :
    ofData (toData ns) table = .ok (ns.map load) (table.enterNames (ns.flatMap names)) := by
  induction ns generalizing table with
  | nil => simp [toData, ofData, pure, EStateM.pure]
  | cons n ns ih =>
    rw [toData, ofData, loader_bind (h n List.mem_cons_self table),
      loader_bind (ih (fun m hm => h m (List.mem_cons_of_mem n hm)) _), List.flatMap_cons,
      SymbolTable.enterNames_append]
    rfl

/-- **The tree is loaded with every variable bound**, and its names are entered in pre-order. -/
def Loads (n : Node) : Prop :=
  ∀ table, ofDatum n.toDatum table =
    .ok n.rebound (table.enterNames (n.occurrences.map Occurrence.name))

/-- A node enters names of its own, and then those of its children. -/
theorem ofDatum_of_loadSlot {n : Node} (names : List Text)
    (hkind : Kind.ofName? n.kind.name = some n.kind)
    (hvalue : n.kind = .realConstant → n.value = .null ∨ ∃ x, n.value = .real x)
    (hslot : ∀ table, loadSlot n.kind n.text table = .ok n.boundSlot (table.enterNames names))
    (hchildren : ∀ m ∈ n.children, m.Loads) (table : SymbolTable) :
    ofDatum n.toDatum table = .ok n.rebound
      (table.enterNames (names ++ (n.children.flatMap occurrences).map Occurrence.name)) := by
  rw [toDatum_eq, (describes_savedFields n).ofDatum_eq hkind hvalue, loader_bind (hslot table),
    loader_bind (ofData_toData hchildren _), ← SymbolTable.enterNames_append, rebound_eq,
    List.map_flatMap]
  rfl

theorem ofName?_name {kind : Kind} (h : ∀ name, kind ≠ .other name) :
    Kind.ofName? kind.name = some kind := by
  cases kind with
  | other name => exact absurd rfl (h name)
  | _ => decide

end Node

open Node

theorem loads_variable {line : Int} {name : Text} {slot : Option Text} :
    Loads { kind := .var, line, text := .text name, slot } :=
  ofDatum_of_loadSlot [name] (ofName?_name (by simp)) (by simp) (fun _ => rfl) nofun

theorem loadSlot_of_isBare {n : Node} (hk : n.kind.isBare = true) (table : SymbolTable) :
    loadSlot n.kind n.text table = .ok n.boundSlot table := by
  obtain ⟨kind, _, _, _, _, _, _⟩ := n
  cases kind <;> first | rfl | cases hk

/-- **A tree that is built can be saved and loaded.** -/
theorem Built.loads {n : Node} (h : Built n) : n.Loads := by
  induction h with
  | var line name hslot => exact loads_variable
  | integer line text x | real line text | string line text s =>
    exact ofDatum_of_loadSlot [] (ofName?_name (by simp)) (by simp) (fun _ => rfl) nofun
  | assign line line' name hns ih =>
    intro table
    rw [ofDatum_of_loadSlot [] (ofName?_name (by simp)) (by simp) (fun _ => rfl)
      (List.forall_mem_cons.2 ⟨loads_variable, ih⟩), occurrences_assign]
    -- the target enters its name once, and the assignment does not enter it again
    simp [Occurrence.name, occurrences_variable, SymbolTable.enter_of_contains,
      SymbolTable.contains_enter]
  | bare line hk hns ih =>
    intro table
    rw [ofDatum_of_loadSlot [] (ofName?_name ?_) ?_ (loadSlot_of_isBare hk) ih, occurrences_bare hk]
    · rfl
    · rintro name rfl
      cases hk
    · rintro rfl
      cases hk

/-! ### The same tree again -/

namespace Node

theorem sameAll_map_rebound (ns : List Node) :
    sameAll (ns.map rebound) ns = true ↔ ∀ n ∈ ns, n.rebound.same n = true := by
  induction ns with
  | nil => simp [sameAll]
  | cons n ns ih => simp [sameAll, ih]

/-- A node whose text and value are equal to themselves. -/
def IsProper (n : Node) : Prop := n.text.same n.text = true ∧ n.value.same n.value = true

/-- A node that is bound as it is when it is loaded. -/
def IsBound (n : Node) : Prop := n.boundSlot = n.slot

theorem IsProper.same_rebound_iff {n : Node} (h : n.IsProper) :
    n.rebound.same n = true ↔ n.IsBound ∧ ∀ m ∈ n.children, m.rebound.same m = true := by
  rw [rebound_eq, ← sameAll_map_rebound, IsBound]
  obtain ⟨htext, hvalue⟩ := h
  cases n
  rw [same]
  simp_all

/-- **The tree with every variable bound is equal to the tree** if every variable was bound. -/
theorem same_rebound_iff {n : Node} (h : n.Everywhere IsProper) :
    n.rebound.same n = true ↔ n.Everywhere IsBound := by
  induction h with
  | intro hproper _ ih =>
    rw [hproper.same_rebound_iff]
    constructor
    · rintro ⟨hbound, hsame⟩
      exact .intro hbound fun m hm => (ih m hm).1 (hsame m hm)
    · intro hbound
      exact ⟨hbound.self, fun m hm => (ih m hm).2 (hbound.child hm)⟩

theorem rebound_eq_self {n : Node} (h : n.Everywhere IsBound) : n.rebound = n := by
  induction h with
  | @intro n hbound _ ih =>
    have hchildren : n.children.map rebound = n.children :=
      (List.map_congr_left ih).trans (List.map_id _)
    rw [rebound_eq, hchildren, show n.boundSlot = n.slot from hbound]
    cases n
    rfl

end Node

theorem Binary64.equals_self {x : Binary64} (h : x ≠ .nan) : x.equals x = true := by
  cases x with
  | nan => exact absurd rfl h
  | infinite n => simp [equals, compare?]
  | finite n m e => simp [equals, compare?]

theorem Built.isProper {n : Node} (h : Built n) : n.IsProper := by
  cases h with
  | var | integer | string | assign | bare => exact ⟨by simp [Datum.same], by simp [Datum.same]⟩
  | real _ _ hx => exact ⟨by simp [Datum.same], Binary64.equals_self hx⟩

theorem Built.slot_eq_none {n : Node} (h : Built n) (hn : n.kind ≠ .var) : n.slot = none := by
  cases h with
  | var => exact absurd rfl hn
  | _ => rfl

theorem Built.isBound_iff {n : Node} (h : Built n) :
    n.IsBound ↔ (n.kind = .var → n.slot ≠ none) := by
  unfold IsBound boundSlot
  split
  · rename_i name hv htext
    obtain ⟨name', htext', -, hslot⟩ := h.occurrence?_eq hv
    obtain rfl : name' = name := Datum.text.inj (htext'.symm.trans htext)
    cases hs : n.slot with
    | none => simp [hv]
    | some key => simp [hslot key hs]
  · rename_i hno
    have hv : n.kind ≠ .var := fun hv => by
      obtain ⟨name, htext, -⟩ := h.occurrence?_eq hv
      exact hno name hv htext
    simp [hv, h.slot_eq_none hv]

/-! ### Saved programs -/

namespace BuiltProgram

variable {tree : Node}

/-- **A program that is built can be saved and loaded.** -/
theorem loads (h : BuiltProgram tree) : tree.Loads := by
  cases h with
  | intro line name hns =>
    intro table
    rw [ofDatum_of_loadSlot name.toList (ofName?_name (by simp)) (by simp) (fun table => ?_)
      (fun m hm => (hns m hm).loads), occurrences_program]
    · cases name <;> rfl
    · cases name <;> rfl

theorem everywhere_isProper (h : BuiltProgram tree) : tree.Everywhere IsProper := by
  refine everywhere_iff.2 fun m hm => ?_
  rcases h.eq_or_built hm with rfl | hb
  · obtain ⟨_, name, _⟩ := h
    cases name <;> exact ⟨by simp [Datum.same], by simp [Datum.same]⟩
  · exact hb.isProper

theorem everywhere_isBound_iff (h : BuiltProgram tree) :
    tree.Everywhere IsBound ↔ ∀ v ∈ tree.preorder, v.kind = .var → v.slot ≠ none := by
  refine everywhere_iff.trans (forall_congr' fun v => imp_congr_right fun hv => ?_)
  rcases h.eq_or_built hv with rfl | hb
  · obtain ⟨_, name, _⟩ := h
    exact iff_of_true rfl nofun
  · exact hb.isBound_iff

/-- **A saved program is the same when it is loaded** if all its variables are bound. -/
theorem same_rebound_iff (h : BuiltProgram tree) :
    tree.rebound.same tree = true ↔ ∀ v ∈ tree.preorder, v.kind = .var → v.slot ≠ none :=
  (Node.same_rebound_iff h.everywhere_isProper).trans h.everywhere_isBound_iff

theorem rebound_eq_self (h : BuiltProgram tree)
    (hbound : ∀ v ∈ tree.preorder, v.kind = .var → v.slot ≠ none) : tree.rebound = tree :=
  Node.rebound_eq_self (h.everywhere_isBound_iff.2 hbound)

end BuiltProgram

end MiniPascal

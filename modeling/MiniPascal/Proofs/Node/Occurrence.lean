import MiniPascal.Proofs.Node.Part
import MiniPascal.Proofs.SymbolTable

/-!
# Names in pre-order

In **pre-order** a node stands in front of its children. A program and an assignment declare a name,
their own and that of their target, and a variable refers to one. These are the **occurrences** of a
tree. An assignment stands right in front of its target, which therefore refers to a name that is
declared by then.

What the occurrences do to a symbol table is settled one after the other, in the order in which they
are met: a declared name is entered, and a variable is bound if its name is there.

The mentions of a tree (`MiniPascal.Mention`) are names only. An occurrence also tells to what a
variable is bound, and the target of an assignment is a variable like any other.

* `MiniPascal.Node.preorder`, `MiniPascal.Node.occurrences`: the nodes and the occurrences of a
  tree.
* `MiniPascal.Resolved`: the variables are bound as the table and the declarations ask for.
* `MiniPascal.Resolved.slot_eq`: what this means for one of them.
-/

namespace MiniPascal

/-! ### Pre-order -/

namespace Node

mutual

/-- The nodes of a tree in pre-order. -/
def preorder : Node → List Node
  | ⟨kind, line, text, value, slot, descending, children⟩ =>
    ⟨kind, line, text, value, slot, descending, children⟩ :: preorderAll children

/-- The nodes of some trees in pre-order. -/
def preorderAll : List Node → List Node
  | [] => []
  | n :: ns => preorder n ++ preorderAll ns

end

theorem preorderAll_eq_flatMap (ns : List Node) : preorderAll ns = ns.flatMap preorder := by
  induction ns with
  | nil => rfl
  | cons n ns ih => rw [preorderAll, ih, List.flatMap_cons]

theorem preorder_eq (n : Node) : n.preorder = n :: n.children.flatMap preorder := by
  cases n
  rw [← preorderAll_eq_flatMap, preorder]

theorem everywhere_iff {p : Node → Prop} {n : Node} :
    n.Everywhere p ↔ ∀ m ∈ n.preorder, p m := by
  constructor
  · intro h
    induction h with
    | intro hp _ ih =>
      rw [preorder_eq]
      refine List.forall_mem_cons.2 ⟨hp, fun m hm => ?_⟩
      obtain ⟨c, hc, hm⟩ := List.mem_flatMap.1 hm
      exact ih c hc m hm
  · intro h
    induction n using tree_induction with
    | h n ih =>
      rw [preorder_eq, List.forall_mem_cons] at h
      exact .intro h.1 fun c hc => ih c hc fun m hm => h.2 m (List.mem_flatMap.2 ⟨c, hc, hm⟩)

/-- What passes from a node to its children holds everywhere in a tree. -/
theorem everywhere_of_child {p : Node → Prop} (hp : ∀ n, p n → ∀ m ∈ n.children, p m) {n : Node}
    (h : p n) : n.Everywhere p := by
  induction n using tree_induction with
  | h n ih => exact .intro h fun m hm => ih m hm (hp n h m hm)

end Node

/-! ### Occurrences -/

/-- What a node says about a name. -/
inductive Occurrence
  | declares (name : Text)
  /-- A variable that is bound to the given slot, if it is. -/
  | refers (line : Int) (name : Text) (slot : Option Text)

namespace Occurrence

/-- The name of an occurrence. -/
def name : Occurrence → Text
  | declares name => name
  | refers _ name _ => name

/-- The name that is declared. -/
def declared? : Occurrence → Option Text
  | declares name => some name
  | refers .. => none

/-- The line and the name of a variable that is not bound. -/
def unbound? : Occurrence → Option (Int × Text)
  | refers line name none => some (line, name)
  | _ => none

end Occurrence

namespace Node

/-- The name that a node declares: a program declares its own one, an assignment that of its
target. -/
def declaredName? : Node → Option Text
  | ⟨.program, _, .text name, _, _, _, _⟩ => some name
  | ⟨.assign, _, _, _, _, _, ⟨_, _, .text name, _, _, _, _⟩ :: _⟩ => some name
  | _ => none

/-- What a node says about a name by itself. -/
def occurrence? (n : Node) : Option Occurrence :=
  match n.declaredName?, n.kind, n.text with
  | some name, _, _ => some (.declares name)
  | none, .var, .text name => some (.refers n.line name n.slot)
  | none, _, _ => none

/-- The occurrences of a tree. -/
def occurrences (n : Node) : List Occurrence := n.preorder.filterMap occurrence?

theorem occurrences_eq (n : Node) :
    n.occurrences = n.occurrence?.toList ++ n.children.flatMap occurrences := by
  rw [occurrences, preorder_eq, List.filterMap_cons, List.filterMap_flatMap]
  cases n.occurrence? <;> rfl

/-- The names that some nodes declare, by their occurrences or by themselves. -/
theorem filterMap_declared? (l : List Node) :
    (l.filterMap occurrence?).filterMap Occurrence.declared? = l.filterMap declaredName? := by
  rw [List.filterMap_filterMap]
  congr 1
  funext n
  unfold occurrence?
  cases hd : n.declaredName? with
  | some name => rfl
  | none => cases n.kind <;> cases n.text <;> rfl

end Node

/-! ### Resolving names -/

/-- **Variables are bound in order**: each to the key of its name if the table at that place has the
name, and otherwise to nothing. -/
def Resolved (table : SymbolTable) : List Occurrence → Prop
  | [] => True
  | .declares name :: os => Resolved (table.enter name) os
  | .refers _ name slot :: os =>
    slot = (if table.contains name = true then some (SymbolTable.key name) else none) ∧
      Resolved table os

variable {table : SymbolTable} {os os' : List Occurrence}

theorem resolved_append :
    Resolved table (os ++ os') ↔
      Resolved table os ∧ Resolved (table.enterNames (os.filterMap Occurrence.declared?)) os' := by
  induction os generalizing table with
  | nil => simp [Resolved]
  | cons o os ih =>
    cases o with
    | declares name => exact ih
    | refers line name slot => exact (and_congr_right fun _ => ih).trans and_assoc.symm

/-- **A variable and the declarations in front of it.** -/
theorem Resolved.slot_eq {line : Int} {name : Text} {slot : Option Text}
    (h : Resolved table (os ++ .refers line name slot :: os')) :
    slot =
      if SymbolTable.key name ∈ table.names ∨
          SymbolTable.key name ∈ (os.filterMap Occurrence.declared?).map SymbolTable.key
      then some (SymbolTable.key name) else none := by
  simpa only [SymbolTable.contains_enterNames] using (resolved_append.1 h).2.1

/-- If every variable is bound, entering all names is entering the declared ones. -/
theorem Resolved.enterNames_eq (h : Resolved table os)
    (hbound : os.filterMap Occurrence.unbound? = []) :
    table.enterNames (os.map Occurrence.name) =
      table.enterNames (os.filterMap Occurrence.declared?) := by
  induction os generalizing table with
  | nil => rfl
  | cons o os ih =>
    cases o with
    | declares name => exact ih h hbound
    | refers line name slot =>
      obtain ⟨hslot, htail⟩ := h
      cases slot with
      | none => cases hbound
      | some key =>
        have hname : table.contains name = true := by
          by_cases hc : table.contains name = true
          · exact hc
          · rw [if_neg hc] at hslot
            cases hslot
        rw [List.map_cons, SymbolTable.enterNames_cons, Occurrence.name,
          SymbolTable.enter_of_contains hname]
        exact ih htail hbound

end MiniPascal

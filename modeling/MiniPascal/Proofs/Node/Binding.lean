import MiniPascal.Proofs.Node.Built

/-!
# Trees and what their variables are bound to

Which variables of a tree are bound depends on the names that are declared from the start. What is
left when that is forgotten is the tree **unbound**.

Two kinds of nodes matter to what is read behind a variable that is not bound: a FOR statement that
lacks a part, and a branch of a CASE statement. A tree is **undisturbed** if no variable is left
unbound in the first, and **strictly** so if none is left unbound in the second either.

* `MiniPascal.Node.unbind`: the tree without what its variables are bound to.
* `MiniPascal.Node.Bound`: all variables of a tree are bound.
* `MiniPascal.Node.Undisturbed`: there are no unbound variables where they matter.
-/

namespace MiniPascal.Node

/-! ### Forgetting what variables are bound to -/

mutual

/-- The tree with its variables bound to nothing. -/
def unbind : Node → Node
  | ⟨kind, line, text, value, slot, descending, children⟩ =>
    ⟨kind, line, text, value, if kind = .var then none else slot, descending, unbindAll children⟩

/-- The trees with their variables bound to nothing. -/
def unbindAll : List Node → List Node
  | [] => []
  | n :: ns => unbind n :: unbindAll ns

end

theorem unbindAll_eq_map (ns : List Node) : unbindAll ns = ns.map unbind := by
  induction ns with
  | nil => rfl
  | cons n ns ih => rw [unbindAll, ih, List.map_cons]

@[simp] theorem unbind_mk (kind : Kind) (line : Int) (text value : Datum) (slot : Option Text)
    (descending : Bool) (ns : List Node) :
    unbind ⟨kind, line, text, value, slot, descending, ns⟩ =
      ⟨kind, line, text, value, if kind = .var then none else slot, descending, ns.map unbind⟩ := by
  rw [unbind, unbindAll_eq_map]

/-- What has been read of a phrase, or that nothing has, is the same for trees as for lists. -/
theorem map_toList_unbind {o o' : Option Node} (h : o'.map unbind = o.map unbind) :
    o'.toList.map unbind = o.toList.map unbind := by
  cases o <;> cases o' <;> simp_all

/-! ### Bound variables -/

/-- All variables of the tree are bound. -/
def Bound (n : Node) : Prop := ∀ v ∈ n.preorder, v.kind = .var → v.slot ≠ none

instance (n : Node) : Decidable n.Bound :=
  inferInstanceAs (Decidable (∀ v ∈ n.preorder, v.kind = .var → v.slot ≠ none))

variable {strict : Bool} {n m : Node}

theorem Bound.child (h : n.Bound) (hm : m ∈ n.children) : m.Bound := by
  intro v hv
  refine h v ?_
  rw [preorder_eq]
  exact List.mem_cons_of_mem n (List.mem_flatMap.2 ⟨m, hm, hv⟩)

/-- **No variable is left unbound where it matters**: in a FOR statement that lacks a part and,
strictly, in a branch of a CASE statement. -/
def Undisturbed (strict : Bool) (n : Node) : Prop :=
  n.Everywhere fun m => (m.kind = .forLoop → m.children.length < 3 → m.Bound) ∧
    (strict = true → m.kind = .selectBranch → m.Bound)

theorem Undisturbed.children (h : n.Undisturbed strict) :
    ∀ m ∈ n.children, m.Undisturbed strict := fun _ hm => h.child hm

theorem Undisturbed.bound_of_lacking (h : n.Undisturbed strict) (hkind : n.kind = .forLoop)
    (hlength : n.children.length < 3) : n.Bound := h.self.1 hkind hlength

theorem Undisturbed.bound_of_branch (h : n.Undisturbed true) (hkind : n.kind = .selectBranch) :
    n.Bound := h.self.2 rfl hkind

end MiniPascal.Node

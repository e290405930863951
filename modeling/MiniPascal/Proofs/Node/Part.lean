import MiniPascal.Node.Basic

/-!
# The nodes of a tree

A tree **has** its root and every node below it. What holds **everywhere** in a tree holds of all
its nodes. A tree that comes from a text is **anchored**: in the lines of the text, and in the names
of a symbol table.
-/

namespace MiniPascal.Node

/-- The condition holds of a node and of all nodes below it. -/
inductive Everywhere (p : Node → Prop) : Node → Prop
  | intro {n : Node} : p n → (∀ m ∈ n.children, Everywhere p m) → Everywhere p n

/-- The nodes of a tree. -/
inductive HasNode (tree : Node) : Node → Prop
  | root : HasNode tree tree
  | child {n m : Node} : HasNode tree n → m ∈ n.children → HasNode tree m

/-- All nodes of the tree are on lines of a text, and its variables are among the given names. -/
structure Anchored (names : List Text) (tree : Node) : Prop where
  line : ∀ n, tree.HasNode n → 1 ≤ n.line
  slot : ∀ n key, tree.HasNode n → n.slot = some key → key ∈ names

/-- A property of nodes that passes from the children of a node to it holds of all trees. -/
theorem tree_induction {p : Node → Prop} (h : ∀ n, (∀ m ∈ n.children, p m) → p n) : ∀ n, p n
  | ⟨kind, line, text, value, slot, descending, children⟩ => by
    refine h _ fun m hm => ?_
    have : sizeOf m < sizeOf children := List.sizeOf_lt_of_mem hm
    exact tree_induction h m
termination_by n => sizeOf n
decreasing_by
  simp only [mk.sizeOf_spec]
  omega

variable {p : Node → Prop} {tree n m : Node}

theorem Everywhere.self (h : n.Everywhere p) : p n := by
  obtain ⟨hp, -⟩ := h
  exact hp

theorem Everywhere.child (h : n.Everywhere p) (hm : m ∈ n.children) : m.Everywhere p := by
  obtain ⟨-, hc⟩ := h
  exact hc m hm

theorem Everywhere.of_hasNode (h : tree.Everywhere p) (hn : tree.HasNode n) : p n := by
  have below : n.Everywhere p := by
    induction hn with
    | root => exact h
    | child _ hm ih => exact ih.child hm
  exact below.self

/-- Below the root, a node of a tree is a node of one of the children. -/
theorem HasNode.eq_or_child (h : tree.HasNode n) : n = tree ∨ ∃ c ∈ tree.children, c.HasNode n := by
  induction h with
  | root => exact .inl rfl
  | @child n m _ hm ih =>
    rcases ih with rfl | ⟨c, hc, hn⟩
    · exact .inr ⟨m, hm, .root⟩
    · exact .inr ⟨c, hc, .child hn hm⟩

/-- The statement at a position of a program. -/
def statement? (i : Nat) (tree : Node) : Option Node := tree.children.head?.bind (·.children[i]?)

theorem HasNode.of_statement? {i : Nat} (h : tree.statement? i = some n) : tree.HasNode n := by
  obtain ⟨body, hbody, hn⟩ := Option.bind_eq_some_iff.1 h
  exact .child (.child .root (List.mem_of_mem_head? hbody)) (List.mem_of_getElem? hn)

end MiniPascal.Node

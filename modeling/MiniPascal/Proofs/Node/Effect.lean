import MiniPascal.Proofs.Node.Occurrence
import MiniPascal.Proofs.Node.Shape

/-!
# What the nodes of a tree are there for

A node **acts** or it is an expression, which only looks at variables. A tree **binds** the variables
to which its nodes are bound, and it **assigns to** those that are targets of its assignments, be they
statements or the headers of FOR loops.

* `MiniPascal.Node.Acts`: the tree is more than an expression.
* `MiniPascal.Node.Binds`, `MiniPascal.Node.Assigns`: the variables of a tree, and its targets.
* `MiniPascal.Node.slots`, `MiniPascal.Node.targets`: lists of them.
* `MiniPascal.Shaped.not_acts`: an expression has only expressions in it.
-/

namespace MiniPascal

namespace Node

/-- The kinds of expressions: variables, constants and operators. -/
def Kind.isExpression : Kind → Bool
  | var | integerConstant | realConstant | stringConstant | .not => true
  | kind => kind.isBinary

/-- The tree is more than an expression. -/
def Acts (tree : Node) : Prop := ∃ n, tree.HasNode n ∧ n.kind.isExpression = false

/-- A node of the tree is bound to the variable. -/
def Binds (tree : Node) (key : Text) : Prop := ∃ n, tree.HasNode n ∧ n.slot = some key

/-- **The variable is the target of an assignment in the tree**, which may be the header of a FOR
loop. -/
def Assigns (tree : Node) (key : Text) : Prop :=
  ∃ n v, tree.HasNode n ∧ n.kind = .assign ∧ n.children.head? = some v ∧ v.slot = some key

theorem Assigns.acts {tree : Node} {key : Text} (h : tree.Assigns key) : tree.Acts := by
  obtain ⟨n, -, hn, hk, -⟩ := h
  exact ⟨n, hn, by rw [hk]; rfl⟩

/-- The variables to which the nodes of a tree are bound. -/
def slots (tree : Node) : List Text := tree.preorder.filterMap (·.slot)

/-- The variable that an assignment has as its target. -/
def target? (n : Node) : Option Text :=
  if n.kind = .assign then n.children.head?.bind (·.slot) else none

/-- The targets of the assignments in a tree. -/
def targets (tree : Node) : List Text := tree.preorder.filterMap target?

theorem HasNode.mem_preorder {tree n : Node} (h : tree.HasNode n) : n ∈ tree.preorder :=
  (everywhere_iff.2 fun _ hm => hm).of_hasNode h

theorem Binds.mem_slots {tree : Node} {key : Text} (h : tree.Binds key) : key ∈ tree.slots := by
  obtain ⟨n, hn, hs⟩ := h
  exact List.mem_filterMap.2 ⟨n, hn.mem_preorder, hs⟩

theorem Assigns.mem_targets {tree : Node} {key : Text} (h : tree.Assigns key) : key ∈ tree.targets := by
  obtain ⟨n, v, hn, hk, hv, hs⟩ := h
  exact List.mem_filterMap.2 ⟨n, hn.mem_preorder, by simp [target?, hk, hv, hs]⟩

end Node

variable {tree n m : Node} {role : Role}

/-! ### Expressions -/

theorem Shaped.isExpression (h : Shaped .expression n) : n.kind.isExpression = true := by
  cases h with
  | ofLeaf h =>
    cases h with
    | ofVariable h => cases h; rfl
    | ofConstant h =>
      cases h with
      | number h => cases h; rfl
      | real | string => rfl
  | not => rfl
  | @binary _ kind _ _ hk => cases kind <;> first | rfl | cases hk

/-- A node of the kind of an expression is one. -/
theorem Shaped.expression_of_kind (h : Shaped role n) (hk : n.kind.isExpression = true) :
    Shaped .expression n := by
  induction h with
  | var line name => exact .ofLeaf (.ofVariable (.var line name))
  | integer line text k => exact .ofLeaf (.ofConstant (.number (.integer line text k)))
  | real line text x => exact .ofLeaf (.ofConstant (.real line text x))
  | string line text s => exact .ofLeaf (.ofConstant (.string line text s))
  | number _ ih | ofVariable _ ih | ofConstant _ ih | ofLeaf _ ih | assignment _ _ _ ih => exact ih hk
  | not line he => exact .not line he
  | binary line hb hl hr => exact .binary line hb hl hr
  | write _ hw => rcases hw with rfl | rfl <;> cases hk
  | _ => cases hk

theorem Shaped.child_expression (h : Shaped .expression n) (hm : m ∈ n.children) :
    Shaped .expression m := by
  cases h with
  | ofLeaf h =>
    cases h with
    | ofVariable h => cases h; cases hm
    | ofConstant h =>
      cases h with
      | number h => cases h; cases hm
      | real | string => cases hm
  | not _ he => exact List.mem_singleton.1 hm ▸ he
  | binary _ _ hl hr =>
    rcases List.mem_cons.1 hm with rfl | hm
    · exact hl
    · exact List.mem_singleton.1 hm ▸ hr

/-- **An expression has only expressions in it.** -/
theorem Shaped.not_acts (h : Shaped .expression n) : ¬n.Acts := by
  have below (m : Node) (hm : n.HasNode m) : Shaped .expression m := by
    induction hm with
    | root => exact h
    | child _ hm ih => exact ih.child_expression hm
  rintro ⟨m, hm, hk⟩
  rw [(below m hm).isExpression] at hk
  cases hk

/-! ### The nodes of a tree of the right shape -/

/-- All nodes of a tree of the right shape have the right shape. -/
theorem Shaped.exists_role (h : Shaped role tree) (hn : tree.HasNode n) :
    ∃ role', Shaped role' n := by
  induction hn with
  | root => exact ⟨role, h⟩
  | child _ hm ih =>
    obtain ⟨role', hn⟩ := ih
    exact hn.exists_role_child hm

theorem Shaped.kind_assignment (h : Shaped .assignment n) : n.kind = .assign := by
  cases h
  rfl

/-- What the children of a node are, if it is a loop, an assignment or a WRITE statement. -/
def Node.Parts (n : Node) : Prop :=
  match n.kind with
  | .assign => ∃ v e, n.children = [v, e] ∧ Shaped .variable v ∧ Shaped .expression e
  | .forLoop => ∃ a l s, n.children = [a, l, s] ∧ Shaped .assignment a ∧ Shaped .expression l ∧
      Shaped .statement s
  | .loop => ∃ ns t c, n.children = ns ++ [t] ∧ t.kind = .test ∧ t.children = [c]
  | .write | .writeln => n.children = [] ∨ ∃ e ns, n.children = e :: ns ∧ Shaped .expression e
  | _ => True

theorem Shaped.parts (h : Shaped role n) : n.Parts := by
  induction h with
  | number _ ih | ofVariable _ ih | ofConstant _ ih | ofLeaf _ ih | assignment _ _ _ ih => exact ih
  | assign _ hv he => exact ⟨_, _, rfl, hv, he⟩
  | forLoop _ _ ha hl hs => exact ⟨_, _, _, rfl, ha, hl, hs⟩
  | loop _ _ ht =>
    cases ht
    exact ⟨_, _, _, rfl, rfl, rfl⟩
  | write _ hw he => rcases hw with rfl | rfl <;> exact .inr ⟨_, _, rfl, .ofLeaf he⟩
  | writeln => exact .inl rfl
  -- an operator has another kind
  | @binary _ kind _ _ hb => cases kind <;> trivial
  | _ => trivial

/-- An assignment has a target, which is a variable, and an expression. -/
theorem Shaped.children_assign (h : Shaped role n) (hk : n.kind = .assign) :
    ∃ v e, n.children = [v, e] ∧ Shaped .variable v ∧ Shaped .expression e := by
  simpa only [Node.Parts, hk] using h.parts

/-- A FOR loop has an assignment, a limit and a statement. -/
theorem Shaped.children_forLoop (h : Shaped role n) (hk : n.kind = .forLoop) :
    ∃ a l s, n.children = [a, l, s] ∧ Shaped .assignment a ∧ Shaped .expression l ∧
      Shaped .statement s := by
  simpa only [Node.Parts, hk] using h.parts

/-- A REPEAT loop has statements and a test of one condition. -/
theorem Shaped.children_loop (h : Shaped role n) (hk : n.kind = .loop) :
    ∃ ns t c, n.children = ns ++ [t] ∧ t.kind = .test ∧ t.children = [c] := by
  simpa only [Node.Parts, hk] using h.parts

/-- What a WRITE statement writes is an expression; a WRITELN statement may have nothing to write. -/
theorem Shaped.children_write (h : Shaped role n) (hk : n.kind = .write ∨ n.kind = .writeln) :
    n.children = [] ∨ ∃ e ns, n.children = e :: ns ∧ Shaped .expression e := by
  rcases hk with hk | hk
  all_goals simpa only [Node.Parts, hk] using h.parts

end MiniPascal

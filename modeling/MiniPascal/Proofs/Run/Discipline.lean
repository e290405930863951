import MiniPascal.Proofs.Node.Effect
import MiniPascal.Proofs.Run.Action

/-!
# Disciplines

Much of what is true of every run is true for a plain reason: it is true of the single actions, and
doing one thing after the other keeps it. A **discipline** for a tree is a property of actions of this
kind. Its single actions are the ones for which the tree has a use: only variables of the tree are read,
only targets of its assignments are stored to, and a tree that is an expression neither writes nor
leaves a message in the log. Then visiting the tree obeys the discipline, whatever the number of rounds
of its loops, and however the visit ends.

One thing does not come from the single actions alone. What an assignment stores is what the visit of
its right-hand side gives, and that this is ever something is a matter of the kinds of nodes
(`MiniPascal.Run.isNothing_of_mayGive_visit`). Therefore what follows an action has to obey only for
the results that the action may give.

* `MiniPascal.Discipline`: a property that single actions have and that is kept in a row.
* `MiniPascal.Discipline.obeys_visit`: visits of the nodes of a tree obey its disciplines.
* `MiniPascal.Discipline.ofRelation`: an action leads from each machine to a related one.
-/

namespace MiniPascal

namespace Run

variable {α β : Type}

/-! ### Results -/

/-- An action that ends with giving a value gives one. -/
theorem isNothing_of_mayGive_value {act : Run α} {f : α → Value} {y : Yield}
    (h : (act >>= fun a => pure (.value (f a))).MayGive y) : y.isNothing = false := by
  obtain ⟨a, -, h⟩ := h.bind
  rw [h.eq]
  rfl

/-- A child of the node is found. -/
theorem mem_of_mayGive_child {n c : Node} {i : Nat} (h : (child n i).MayGive c) :
    c ∈ n.children := by
  unfold child at h
  split at h
  · rename_i c' hc
    rw [h.eq]
    exact List.mem_of_getElem? hc
  · exact absurd h not_mayGive_throw

/-- The branch that is found is one of the branches. -/
theorem mem_of_mayGive_findBranch {visit : Node → Run Yield} {selector : Yield} {bs : List Node}
    {b : Node} (h : (findBranch visit selector bs).MayGive (some b)) : b ∈ bs := by
  induction bs with
  | nil => cases h.eq
  | cons b' bs ih =>
    obtain ⟨labels, -, h⟩ := h.bind
    obtain ⟨found, -, h⟩ := h.bind
    split at h
    · obtain rfl := Option.some.inj h.eq
      exact List.mem_cons_self
    · exact List.mem_cons_of_mem _ (ih h)

/-- **Visiting an expression never gives nothing.** -/
theorem isNothing_of_mayGive_visit {level : Int} {fuel : Nat} {n : Node} {y : Yield}
    (hk : n.kind.isExpression = true) (h : (visit level fuel n).MayGive y) : y.isNothing = false := by
  cases fuel with
  | zero => exact absurd h not_mayGive_throw
  | succ fuel =>
    rw [visit, visitNode] at h
    generalize n.kind = kind at hk h
    cases kind with
    | add | subtract | multiply | divide | intDivide =>
      obtain ⟨values, -, h⟩ := h.bind
      exact isNothing_of_mayGive_value h
    | equal | unequal | less | greater | atMost | atLeast =>
      obtain ⟨values, -, h⟩ := h.bind
      exact isNothing_of_mayGive_value h
    | and | or =>
      obtain ⟨a, -, h⟩ := h.bind
      exact isNothing_of_mayGive_value h
    | not => exact isNothing_of_mayGive_value h
    | var =>
      obtain ⟨y', -, h⟩ := h.bind
      split at h
      · exact absurd h not_mayGive_throw
      · rw [h.eq]
        exact Bool.eq_false_iff.2 ‹_›
    | integerConstant | realConstant | stringConstant =>
      dsimp only [integerConstant, realConstant, stringConstant] at h
      split at h
      · rw [h.eq]
        rfl
      · exact absurd h not_mayGive_throw
    | _ => cases hk

end Run

/-! ### Disciplines -/

/-- **A property of actions** that the single actions of a tree have, and that is kept by doing one
thing after the other. -/
structure Discipline (tree : Node) where
  Obeys : {α : Type} → Run α → Prop
  pure : ∀ {α : Type} (a : α), Obeys (pure a)
  throw : ∀ {α : Type} (stop : Stop), Obeys (throw stop : Run α)
  bind : ∀ {α β : Type} {act : Run α} {next : α → Run β}, Obeys act →
    (∀ a, act.MayGive a → Obeys (next a)) → Obeys (act >>= next)
  write : tree.Acts → ∀ s, Obeys (Run.write s)
  trace : tree.Acts → ∀ level least message?, Obeys (Run.trace level least message?)
  load : ∀ key, tree.Binds key → Obeys (Run.load (some key))
  store : ∀ key y, tree.Assigns key → y.isNothing = false → Obeys (Run.store (some key) y)

namespace Discipline

open Run

variable {tree : Node} (D : Discipline tree) {α β : Type}

theorem seq {act : Run α} {next : α → Run β} (h : D.Obeys act) (h' : ∀ a, D.Obeys (next a)) :
    D.Obeys (act >>= next) := D.bind h fun a _ => h' a

theorem map {act : Run α} (f : α → β) (h : D.Obeys act) : D.Obeys (f <$> act) := by
  rw [map_eq_pure_bind]
  exact D.seq h fun a => D.pure (f a)

theorem ite {p : Prop} [Decidable p] {act act' : Run α} (h : D.Obeys act) (h' : D.Obeys act') :
    D.Obeys (if p then act else act') := by
  split
  · exact h
  · exact h'

/-! ### Single actions -/

theorem fail (f : Fault) : D.Obeys (Run.fail f : Run α) := D.throw _

theorem ofExcept (e : Except Fault α) : D.Obeys (Run.ofExcept e) := by
  cases e with
  | ok a => exact D.pure a
  | error f => exact D.fail f

theorem valueOf (asked : Inquiry) (y : Yield) : D.Obeys (Run.valueOf asked y) := by
  unfold Run.valueOf
  split
  · exact D.pure _
  · exact D.fail _

theorem bothValues (left right : Yield) : D.Obeys (Run.bothValues left right) :=
  D.seq (D.valueOf _ left) fun a => D.seq (D.valueOf _ right) fun b => D.pure (a, b)

theorem shown (text? : Option Text) : D.Obeys (Run.shown text?) := by
  unfold Run.shown
  split
  · exact D.pure _
  · exact D.fail _

theorem child (n : Node) (i : Nat) : D.Obeys (Run.child n i) := by
  unfold Run.child
  split
  · exact D.pure _
  · exact D.fail _

theorem load_slot {n : Node} (hn : tree.HasNode n) : D.Obeys (Run.load n.slot) := by
  cases hs : n.slot with
  | some key => exact D.load key ⟨n, hn, hs⟩
  | none => exact D.fail _

/-- A value is stored to a target of the tree, or there is no variable to store it to. -/
theorem store_slot {v : Node} {y : Yield} (h : ∀ key, v.slot = some key → tree.Assigns key)
    (hy : y.isNothing = false) : D.Obeys (Run.store v.slot y) := by
  cases hs : v.slot with
  | some key => exact D.store key y (h key hs) hy
  | none => exact D.fail _

theorem matchesLabel (selector : Yield) (labels : List Yield) :
    D.Obeys (Run.matchesLabel selector labels) := by
  induction labels with
  | nil => exact D.pure false
  | cons label labels ih =>
    exact D.seq (D.bothValues selector label) fun _ =>
      D.seq (D.ofExcept _) fun _ => D.ite (D.pure true) ih

/-! ### Parts of the rules -/

section Rules

variable {visit : Node → Run Yield} (hv : ∀ n, tree.HasNode n → D.Obeys (visit n)) {n : Node}
  (hn : tree.HasNode n)
include hv

theorem visitAll {ns : List Node} (hns : ∀ n ∈ ns, tree.HasNode n) :
    D.Obeys (Run.visitAll visit ns) := by
  induction ns with
  | nil => exact D.pure ()
  | cons n ns ih =>
    rw [List.forall_mem_cons] at hns
    exact D.seq (hv n hns.1) fun _ => ih hns.2

theorem visitEach {ns : List Node} (hns : ∀ n ∈ ns, tree.HasNode n) :
    D.Obeys (Run.visitEach visit ns) := by
  induction ns with
  | nil => exact D.pure []
  | cons n ns ih =>
    rw [List.forall_mem_cons] at hns
    exact D.seq (hv n hns.1) fun _ => D.seq (ih hns.2) fun _ => D.pure _

theorem repeatLoop {ns : List Node} {test : Node} (hns : ∀ n ∈ ns, tree.HasNode n)
    (ht : tree.HasNode test) (fuel : Nat) : D.Obeys (Run.repeatLoop visit ns test fuel) := by
  induction fuel with
  | zero => exact D.throw .exhausted
  | succ fuel ih =>
    exact D.seq (D.visitAll hv hns) fun _ => D.seq (hv test ht) fun y =>
      D.seq (D.valueOf _ y) fun _ => D.ite (D.pure ()) ih

theorem whileLoop {test body : Node} (ht : tree.HasNode test) (hb : tree.HasNode body) (fuel : Nat) :
    D.Obeys (Run.whileLoop visit test body fuel) := by
  induction fuel with
  | zero => exact D.throw .exhausted
  | succ fuel ih =>
    exact D.seq (hv test ht) fun y => D.seq (D.valueOf _ y) fun _ =>
      D.ite (D.seq (hv body hb) fun _ => ih) (D.pure ())

theorem forLoop {line : Int} {v : Node} {descending : Bool} {limit body : Node}
    (hvar : tree.HasNode v) (htarget : ∀ key, v.slot = some key → tree.Assigns key)
    (hl : tree.HasNode limit) (hb : tree.HasNode body) (fuel : Nat) :
    D.Obeys (Run.forLoop visit line v.slot descending limit body fuel) := by
  induction fuel with
  | zero => exact D.throw .exhausted
  | succ fuel ih =>
    refine D.seq (hv limit hl) fun bound => D.seq (D.load_slot hvar) fun y =>
      D.seq (D.bothValues y bound) fun values => D.seq (D.ofExcept _) fun past => D.ite (D.pure ()) ?_
    exact D.seq (hv body hb) fun _ => D.seq (D.load_slot hvar) fun y => D.seq (D.valueOf _ y)
      fun current => D.seq (D.ofExcept _) fun next => D.seq (D.store_slot htarget rfl) fun _ => ih

include hn

/-- A child that is found is visited. -/
theorem visit_child (i : Nat) : D.Obeys (Run.child n i >>= visit) :=
  D.bind (D.child n i) fun c hc => hv c (.child hn (mem_of_mayGive_child hc))

theorem operand (asked : Inquiry) (i : Nat) : D.Obeys (Run.operand asked visit n i) := by
  have h := D.seq (D.visit_child hv hn i) fun y => D.valueOf asked y
  rwa [bind_assoc] at h

theorem condition (i : Nat) : D.Obeys (Run.condition visit n i) := D.map _ (D.operand hv hn .kind i)

theorem operands : D.Obeys (Run.operands visit n) := by
  have hr (left : Yield) := D.seq (D.visit_child hv hn 1) fun right => D.bothValues left right
  have h := D.seq (D.visit_child hv hn 0) hr
  unfold Run.operands
  simpa only [bind_assoc] using h

theorem effect_child (i : Nat) : D.Obeys (do let _ ← visit (← Run.child n i)) := by
  have h := D.seq (D.visit_child hv hn i) fun _ => D.pure PUnit.unit
  rwa [bind_assoc] at h

theorem labelsOf : D.Obeys (Run.labelsOf visit n) := by
  refine D.bind (D.child n 0) fun c hc => D.seq (hv c (.child hn (mem_of_mayGive_child hc))) fun y => ?_
  split
  · exact D.pure _
  · exact D.fail _

omit hn in
theorem findBranch (selector : Yield) {bs : List Node} (hbs : ∀ b ∈ bs, tree.HasNode b) :
    D.Obeys (Run.findBranch visit selector bs) := by
  induction bs with
  | nil => exact D.pure none
  | cons b bs ih =>
    rw [List.forall_mem_cons] at hbs
    exact D.seq (D.labelsOf hv hbs.1) fun labels => D.seq (D.matchesLabel selector labels) fun _ =>
      D.ite (D.pure (some b)) (ih hbs.2)

theorem selectStatement (hacts : tree.Acts) (level : Int) :
    D.Obeys (Run.selectStatement level visit n) := by
  have hbranches : ∀ b ∈ n.children.drop 1, tree.HasNode b := fun b hb =>
    .child hn (List.mem_of_mem_drop hb)
  refine D.bind (D.child n 0) fun c hc => ?_
  refine D.seq (hv c (.child hn (mem_of_mayGive_child hc))) fun selector => ?_
  refine D.bind (D.findBranch hv selector hbranches) fun found hfound => ?_
  cases found with
  | some b =>
    have hb := hbranches b (mem_of_mayGive_findBranch hfound)
    exact D.seq (hv b hb) fun _ => D.pure _
  | none => exact D.trace hacts _ _ _

theorem writtenText : D.Obeys (Run.writtenText visit n) :=
  D.ite (D.pure []) (D.seq (D.operand hv hn _ 0) fun _ => D.ofExcept _)

omit hv in
theorem variableValue : D.Obeys (Run.variableValue n) :=
  D.seq (D.load_slot hn) fun _ => D.ite (D.fail _) (D.pure _)

theorem arithmetic (op : ArithmeticOp) : D.Obeys (Run.arithmetic visit op n) :=
  D.seq (D.operands hv hn) fun _ => D.seq (D.ofExcept _) fun _ => D.pure _

theorem comparison (op : RelationalOp) : D.Obeys (Run.comparison visit op n) :=
  D.seq (D.operands hv hn) fun _ => D.seq (D.ofExcept _) fun _ => D.pure _

theorem logical (op : Bool → Bool → Bool) : D.Obeys (Run.logical visit op n) :=
  D.seq (D.condition hv hn 0) fun _ => D.seq (D.condition hv hn 1) fun _ => D.pure _

theorem assign {v e : Node} (hc : n.children = [v, e]) (hk : n.kind = .assign)
    (hgives : ∀ y, (visit e).MayGive y → y.isNothing = false) (level : Int) :
    D.Obeys (Run.assign level visit n) := by
  have hacts : tree.Acts := ⟨n, hn, by rw [hk]; rfl⟩
  unfold Run.assign
  rw [hc]
  refine D.bind (hv e (.child hn (by simp [hc]))) fun y hy => ?_
  exact D.seq (D.store_slot (fun key hs => ⟨n, v, hn, hk, by simp [hc], hs⟩) (hgives y hy)) fun _ =>
    D.trace hacts _ _ _

theorem forStatement {a l s v e : Node} (hc : n.children = [a, l, s]) (ha : a.kind = .assign)
    (hca : a.children = [v, e]) (fuel : Nat) : D.Obeys (Run.forStatement visit fuel n) := by
  have hna : tree.HasNode a := .child hn (by simp [hc])
  unfold Run.forStatement
  rw [hc]
  refine D.seq (hv a hna) fun _ => ?_
  simp only [Run.child, hca, List.getElem?_cons_zero, pure_bind]
  exact D.forLoop hv (.child hna (by simp [hca])) (fun key hs => ⟨a, v, hna, ha, by simp [hca], hs⟩)
    (.child hn (by simp [hc])) (.child hn (by simp [hc])) fuel

omit hv hn in
theorem constant : D.Obeys (integerConstant n) ∧ D.Obeys (realConstant n) ∧
    D.Obeys (stringConstant n) := by
  unfold integerConstant realConstant stringConstant
  refine ⟨?_, ?_, ?_⟩
  all_goals
    split
    · exact D.pure _
    · exact D.fail _

/-! ### All nodes -/

omit hv hn in
theorem statement {action : Run Unit} (h : D.Obeys action) : D.Obeys (Run.statement action) :=
  D.seq h fun _ => D.pure _

/-- **The rule of every kind of node** obeys, if the visits that it makes do. -/
theorem visitNode {role : Role} (hshaped : Shaped role n)
    (hgives : ∀ e y, e.kind.isExpression = true → (visit e).MayGive y → y.isNothing = false)
    (level : Int) (fuel : Nat) : D.Obeys (Run.visitNode level visit fuel n) := by
  have hacts (hk : n.kind.isExpression = false) : tree.Acts := ⟨n, hn, hk⟩
  have hchildren : ∀ c ∈ n.children, tree.HasNode c := fun c hc => .child hn hc
  unfold Run.visitNode
  cases hk : n.kind with
  | program =>
    exact D.statement (D.seq (D.shown _) fun _ =>
      D.seq (D.trace (hacts (by rw [hk]; rfl)) _ _ _) fun _ => D.visitAll hv hchildren)
  | compound => exact D.statement (D.visitAll hv hchildren)
  | assign =>
    obtain ⟨v, e, hc, -, he⟩ := hshaped.children_assign hk
    exact D.statement (D.assign hv hn hc hk (fun y => hgives e y he.isExpression) level)
  | loop =>
    refine D.statement ?_
    split
    · rename_i test htest
      exact D.repeatLoop hv (fun m hm => hchildren m (List.dropLast_subset _ hm))
        (hchildren test (List.mem_of_getLast? htest)) fuel
    · exact D.fail _
  | test =>
    exact D.seq (D.condition hv hn 0) fun _ =>
      D.seq (D.trace (hacts (by rw [hk]; rfl)) _ _ _) fun _ => D.pure _
  | write | writeln =>
    exact D.statement (D.seq (D.writtenText hv hn) fun _ => D.write (hacts (by rw [hk]; rfl)) _)
  | conditional =>
    refine D.statement (D.seq (D.condition hv hn 0) fun _ =>
      D.seq (D.trace (hacts (by rw [hk]; rfl)) _ _ _) fun _ => D.ite (D.effect_child hv hn 1) ?_)
    split
    · rename_i c hc
      exact D.seq (hv c (hchildren c (List.mem_of_getElem? hc))) fun _ => D.pure _
    · exact D.pure _
  | whileLoop =>
    refine D.statement ?_
    split
    · rename_i test body hc
      exact D.whileLoop hv (hchildren test (by simp [hc])) (hchildren body (by simp [hc])) fuel
    · exact D.fail _
  | forLoop =>
    obtain ⟨a, l, s, hc, ha, -, -⟩ := hshaped.children_forLoop hk
    obtain ⟨v, e, hca, -, -⟩ := ha.children_assign ha.kind_assignment
    exact D.statement (D.forStatement hv hn hc ha.kind_assignment hca fuel)
  | select => exact D.statement (D.selectStatement hv hn (hacts (by rw [hk]; rfl)) level)
  | selectBranch => exact D.statement (D.effect_child hv hn 1)
  | selectConstants => exact D.seq (D.visitEach hv hchildren) fun _ => D.pure _
  | add | subtract | multiply | divide | intDivide => exact D.arithmetic hv hn _
  | equal | caseEqual | unequal | less | greater | atMost | atLeast => exact D.comparison hv hn _
  | and | or => exact D.logical hv hn _
  | not => exact D.seq (D.condition hv hn 0) fun _ => D.pure _
  | var => exact D.variableValue hn
  | integerConstant => exact D.constant.1
  | realConstant => exact D.constant.2.1
  | stringConstant => exact D.constant.2.2
  | other => exact D.fail _

end Rules

/-- **Visits of the nodes of a tree obey** every discipline for it, with any amount of fuel. -/
theorem obeys_visit {role : Role} (hshaped : Shaped role tree) (level : Int) (fuel : Nat) {n : Node}
    (hn : tree.HasNode n) : D.Obeys (visit level fuel n) := by
  induction fuel generalizing n with
  | zero => exact D.throw .exhausted
  | succ fuel ih =>
    obtain ⟨role', hrole⟩ := hshaped.exists_role hn
    exact D.visitNode (fun m hm => ih hm) hn hrole
      (fun e y he hy => isNothing_of_mayGive_visit he hy) level fuel

end Discipline

/-! ### Disciplines from relations -/

/-- **The discipline of a relation between machines** that goes from one to the next: every action
leads to a related machine, if the changes do that the tree may make. -/
def Discipline.ofRelation (tree : Node) (R : Machine → Machine → Prop) (refl : ∀ m, R m m)
    (trans : ∀ {m₁ m₂ m₃}, R m₁ m₂ → R m₂ m₃ → R m₁ m₃)
    (output : tree.Acts → ∀ m (s : Text), R m { m with output := m.output ++ s })
    (log : tree.Acts → ∀ m entry, R m { m with log := m.log.push entry })
    (store : ∀ key y, tree.Assigns key → y.isNothing = false →
      ∀ m, R m { m with table := m.table.store key y }) : Discipline tree where
  Obeys act := ∀ m, R m (act.after m)
  pure _ m := refl m
  throw _ m := refl m
  bind {_ _ act next} h h' m := by
    cases hact : act m with
    | ok a m₁ =>
      have hnext := h' a ⟨m, m₁, hact⟩ m₁
      have hm := h m
      rw [Run.after_of_ok hact] at hm
      rw [Run.after, Run.bind_of_ok hact]
      exact trans hm hnext
    | error stop m₁ =>
      have hm := h m
      rwa [Run.after, Run.bind_of_error hact, ← Run.after_of_error hact]
  write hacts s m := output hacts m s
  trace hacts level least message? m := by
    unfold Run.trace
    split
    · exact refl m
    · split
      · exact log hacts m _
      · exact refl m
  load key _ m := by
    rw [Run.after_load]
    exact refl m
  store key y hkey hy m := store key y hkey hy m

end MiniPascal

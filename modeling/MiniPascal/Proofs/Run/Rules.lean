import MiniPascal.Proofs.Node.Shape
import MiniPascal.Proofs.Run.Safe
import MiniPascal.Proofs.Value.Fault

/-!
# The rules of the kinds of nodes are safe

The rule of every kind of node is safe for nodes of the right shape, given that the visits it makes
are. What may stop it is then a fault of an operator of the tree, of a comparison with a label, or of
a WRITE statement.

* `MiniPascal.Excused`: what may stop the run of a tree.
* `MiniPascal.Run.Visits`: visiting the nodes of a tree is safe.
* `MiniPascal.Run.visits_visit`: it is so with any amount of fuel.
-/

namespace MiniPascal

/-- The kinds of nodes that are reported with their line: variables, operators that are arithmetic or
relational, and FOR loops. -/
def Node.Kind.isReported : Node.Kind → Bool
  | var | forLoop | add | subtract | multiply | divide | intDivide | equal | unequal | less | greater
  | atMost | atLeast => true
  | _ => false

/-- **What may stop the run of a tree.** -/
inductive Excused (tree : Node) : Fault → Prop
  /-- An operator fails, a FOR loop counts or compares in vain, or a variable has no value. -/
  | operator {n : Node} {f : Fault} : tree.HasNode n → n.kind.isReported = true → 1 ≤ n.line →
    OperatorFault n.line f → Excused tree f
  /-- An integer is too large to be compared with a real in a CASE statement. -/
  | label {n : Node} {k : Int} : tree.HasNode n → n.kind = .select →
    (Binary64.ofInt k).isInfinite = true → Excused tree (.number .tooLarge)
  /-- A value cannot be written as a WRITE statement asks for. -/
  | format {n : Node} {f : Fault} : tree.HasNode n → n.kind = .write ∨ n.kind = .writeln →
    FormatFault (Run.childValue n 1) (Run.childValue n 2) f → Excused tree f

namespace Run

open Node

/-- The yield is a value. -/
def IsValue (y : Yield) : Prop := ∃ v, y = .value v

/-- What a node of the given role gives. -/
def Gives : Role → Yield → Prop
  | .variable, y | .integer, y | .constant, y | .leaf, y | .expression, y | .test, y => IsValue y
  | .labels, y => ∃ ys, y = .list ys ∧ ∀ y ∈ ys, IsValue y
  | .assignment, _ | .statement, _ | .branch, _ | .program, _ => True

/-- **Visits of the nodes of a tree are safe**, and an assignment gives its variable a value. -/
structure Visits (names : List Text) (tree : Node) (visit : Node → Run Yield) : Prop where
  node : ∀ {role : Role} {n : Node}, Shaped role n → tree.HasNode n → ∀ keys,
    Safe names (Excused tree) keys keys (visit n) (Gives role)
  assignment : ∀ {n v e : Node} {key : Text}, Shaped .assignment n → tree.HasNode n →
    n.children = [v, e] → v.slot = some key → ∀ keys,
    Safe names (Excused tree) keys (key :: keys) (visit n) fun _ => True

section Rules

variable {names keys : List Text} {tree : Node} {visit : Node → Run Yield}

/-! ### Parts of the rules -/

theorem child_eq {n c : Node} {i : Nat} (h : n.children[i]? = some c) : child n i = pure c := by
  rw [child, h]

theorem Safe.statement {excused : Fault → Prop} {keys' : List Text} {action : Run Unit}
    (h : Safe names excused keys keys' action fun _ => True) :
    Safe names excused keys keys' (statement action) fun _ => True :=
  h.bind fun _ _ => safe_pure trivial

/-- Only the effect of the visit matters. -/
theorem Safe.discard {excused : Fault → Prop} {act : Run Yield} {post : Yield → Prop}
    (h : Safe names excused keys keys act post) :
    Safe names excused keys keys (do let _ ← act) fun _ => True :=
  h.bind fun _ _ => safe_pure trivial

theorem safe_visitAll {ns : List Node}
    (h : ∀ n ∈ ns, Safe names (Excused tree) keys keys (visit n) fun _ => True) :
    Safe names (Excused tree) keys keys (visitAll visit ns) fun _ => True := by
  induction ns with
  | nil => exact safe_pure trivial
  | cons n ns ih =>
    exact (h n List.mem_cons_self).bind fun _ _ => ih fun m hm => h m (List.mem_cons_of_mem n hm)

theorem safe_visitEach {ns : List Node}
    (h : ∀ n ∈ ns, Safe names (Excused tree) keys keys (visit n) IsValue) :
    Safe names (Excused tree) keys keys (visitEach visit ns) fun ys => ∀ y ∈ ys, IsValue y := by
  induction ns with
  | nil => exact safe_pure (by simp)
  | cons n ns ih =>
    refine (h n List.mem_cons_self).bind fun y hy => ?_
    refine (ih fun m hm => h m (List.mem_cons_of_mem n hm)).bind fun ys hys => ?_
    exact safe_pure (List.forall_mem_cons.2 ⟨hy, hys⟩)

theorem safe_operand {asked : Inquiry} {n c : Node} {i : Nat} (hc : n.children[i]? = some c)
    (h : Safe names (Excused tree) keys keys (visit c) IsValue) :
    Safe names (Excused tree) keys keys (operand asked visit n i) fun _ => True := by
  rw [operand, child_eq hc, pure_bind]
  refine h.bind ?_
  rintro _ ⟨v, rfl⟩
  exact safe_pure trivial

theorem safe_condition {n c : Node} {i : Nat} (hc : n.children[i]? = some c)
    (h : Safe names (Excused tree) keys keys (visit c) IsValue) :
    Safe names (Excused tree) keys keys (condition visit n i) fun _ => True :=
  (safe_operand hc h).map

theorem safe_operands {n l r : Node} (hc : n.children = [l, r])
    (hl : Safe names (Excused tree) keys keys (visit l) IsValue)
    (hr : Safe names (Excused tree) keys keys (visit r) IsValue) :
    Safe names (Excused tree) keys keys (operands visit n) fun _ => True := by
  rw [operands, child_eq (c := l) (by simp [hc]), pure_bind]
  refine hl.bind ?_
  rintro _ ⟨a, rfl⟩
  rw [child_eq (c := r) (by simp [hc]), pure_bind]
  refine hr.bind ?_
  rintro _ ⟨b, rfl⟩
  exact safe_pure trivial

/-! ### Loops -/

theorem safe_repeatLoop {body : List Node} {test : Node}
    (hbody : ∀ n ∈ body, Safe names (Excused tree) keys keys (visit n) fun _ => True)
    (htest : Safe names (Excused tree) keys keys (visit test) IsValue) (fuel : Nat) :
    Safe names (Excused tree) keys keys (repeatLoop visit body test fuel) fun _ => True := by
  induction fuel with
  | zero => exact safe_exhausted
  | succ fuel ih =>
    refine (safe_visitAll hbody).bind fun _ _ => htest.bind ?_
    rintro _ ⟨v, rfl⟩
    rw [valueOf_value, pure_bind]
    split
    · exact safe_pure trivial
    · exact ih

theorem safe_whileLoop {test body : Node}
    (htest : Safe names (Excused tree) keys keys (visit test) IsValue)
    (hbody : Safe names (Excused tree) keys keys (visit body) fun _ => True) (fuel : Nat) :
    Safe names (Excused tree) keys keys (whileLoop visit test body fuel) fun _ => True := by
  induction fuel with
  | zero => exact safe_exhausted
  | succ fuel ih =>
    refine htest.bind ?_
    rintro _ ⟨v, rfl⟩
    rw [valueOf_value, pure_bind]
    split
    · exact hbody.bind fun _ _ => ih
    · exact safe_pure trivial

/-- The rounds of a FOR loop whose control variable has got a value. -/
theorem safe_forLoop {line : Int} {key : Text} {descending : Bool} {limit body : Node}
    (hfault : ∀ f, OperatorFault line f → Excused tree f) (hname : key ∈ names) (hkey : key ∈ keys)
    (hlimit : Safe names (Excused tree) keys keys (visit limit) IsValue)
    (hbody : Safe names (Excused tree) keys keys (visit body) fun _ => True) (fuel : Nat) :
    Safe names (Excused tree) keys keys
      (forLoop visit line (some key) descending limit body fuel) fun _ => True := by
  induction fuel with
  | zero => exact safe_exhausted
  | succ fuel ih =>
    refine hlimit.bind ?_
    rintro _ ⟨bound, rfl⟩
    refine (safe_load_assigned hkey).bind ?_
    rintro _ ⟨current, rfl⟩
    rw [bothValues_value, pure_bind]
    refine (safe_ofExcept fun f hf => hfault f (Value.fault_of_relation hf)).bind fun past _ => ?_
    split
    · exact safe_pure trivial
    · -- the body may have changed the control variable, but there is still a value in it
      refine hbody.bind fun _ _ => (safe_load_assigned hkey).bind ?_
      rintro _ ⟨current', rfl⟩
      rw [valueOf_value, pure_bind]
      refine (safe_ofExcept fun f hf => hfault f (Value.fault_of_arithmetic hf)).bind
        fun next _ => ?_
      have hstore : Safe names (Excused tree) keys keys (store (some key) (.value next))
          fun _ => True :=
        (safe_store hname next).mono (fun _ => id) fun _ => List.mem_cons_of_mem key
      exact hstore.bind fun _ _ => ih

/-! ### CASE and WRITE -/

theorem safe_matchesLabel {n : Node} (hn : tree.HasNode n) (hk : n.kind = .select) (v : Value)
    {labels : List Yield} (h : ∀ y ∈ labels, IsValue y) :
    Safe names (Excused tree) keys keys (matchesLabel (.value v) labels) fun _ => True := by
  induction labels with
  | nil => exact safe_pure trivial
  | cons label labels ih =>
    obtain ⟨b, rfl⟩ := h label List.mem_cons_self
    rw [matchesLabel, bothValues_value, pure_bind]
    refine (safe_ofExcept ?_).bind fun same _ => ?_
    · intro f hf
      obtain ⟨k, hinf, rfl⟩ := Value.error_of_equals hf
      exact .label hn hk hinf
    · split
      · exact safe_pure trivial
      · exact ih fun y hy => h y (List.mem_cons_of_mem _ hy)

theorem Shaped.children_branch {n : Node} (h : Shaped .branch n) :
    ∃ l s, n.children = [l, s] ∧ Shaped .labels l ∧ Shaped .statement s := by
  cases h with
  | branch _ hl hs => exact ⟨_, _, rfl, hl, hs⟩

variable (hv : Visits names tree visit)
include hv

theorem safe_labelsOf {branch : Node} (hb : Shaped .branch branch) (ht : tree.HasNode branch) :
    Safe names (Excused tree) keys keys (labelsOf visit branch) fun ys => ∀ y ∈ ys, IsValue y := by
  obtain ⟨l, s, hc, hl, -⟩ := Shaped.children_branch hb
  rw [labelsOf, child_eq (c := l) (by simp [hc]), pure_bind]
  refine (hv.node hl (.child ht (by simp [hc])) keys).bind ?_
  rintro _ ⟨ys, rfl, hys⟩
  exact safe_pure hys

/-- The branch that is found is one of the branches. -/
theorem safe_findBranch {n : Node} (hn : tree.HasNode n) (hk : n.kind = .select) (v : Value)
    {branches : List Node} (hb : ∀ b ∈ branches, Shaped .branch b ∧ tree.HasNode b) :
    Safe names (Excused tree) keys keys (findBranch visit (.value v) branches)
      fun found => ∀ b ∈ found, b ∈ branches := by
  induction branches with
  | nil => exact safe_pure (by simp)
  | cons b branches ih =>
    obtain ⟨hshaped, htree⟩ := hb b List.mem_cons_self
    refine (safe_labelsOf hv hshaped htree).bind fun labels hlabels => ?_
    refine (safe_matchesLabel hn hk v hlabels).bind fun found _ => ?_
    split
    · exact safe_pure (by simp)
    · have hrest := ih fun b' hb' => hb b' (List.mem_cons_of_mem b hb')
      exact hrest.imp fun found hfound b' hb' => List.mem_cons_of_mem b (hfound b' hb')

theorem safe_selectStatement {line : Int} {e : Node} {ns : List Node} (he : Shaped .expression e)
    (hns : ∀ n ∈ ns, Shaped .branch n)
    (ht : tree.HasNode { kind := .select, line, children := e :: ns }) :
    Safe names (Excused tree) keys keys
      (selectStatement 0 visit { kind := .select, line, children := e :: ns }) fun _ => True := by
  rw [selectStatement, child_eq (c := e) rfl, pure_bind]
  refine (hv.node he (.child ht List.mem_cons_self) keys).bind ?_
  rintro _ ⟨v, rfl⟩
  have hbranches : ∀ b ∈ ns, Shaped .branch b ∧ tree.HasNode b := fun b hb =>
    ⟨hns b hb, .child ht (List.mem_cons_of_mem e hb)⟩
  refine (safe_findBranch hv ht rfl v hbranches).bind fun found hfound => ?_
  cases found with
  | some b =>
    obtain ⟨hb, hbt⟩ := hbranches b (hfound b rfl)
    exact (hv.node hb hbt keys).discard
  | none =>
    rw [trace_eq (by decide)]
    exact safe_pure trivial

omit hv in
theorem isFormatDatum_childValue {n : Node} {ns : List Node} {line : Int} {kind : Node.Kind}
    (h : ∀ m ∈ ns, Shaped .integer m) (i : Nat) :
    Value.IsFormatDatum (childValue { kind, line, children := n :: ns } (i + 1)) := by
  simp only [childValue, List.getElem?_cons_succ]
  cases hm : ns[i]? with
  | none => exact .inl rfl
  | some m =>
    have hshaped := h m (List.mem_of_getElem? hm)
    cases hshaped with
    | integer _ _ k => exact .inr ⟨k, rfl⟩

theorem safe_writtenText {line : Int} {kind : Node.Kind} {n : Node} {ns : List Node}
    (hk : kind = .write ∨ kind = .writeln) (hn : Shaped .leaf n) (hns : ∀ m ∈ ns, Shaped .integer m)
    (ht : tree.HasNode { kind, line, children := n :: ns }) :
    Safe names (Excused tree) keys keys
      (writtenText visit { kind, line, children := n :: ns }) fun _ => True := by
  rw [writtenText, if_neg (by simp)]
  have hleaf : Safe names (Excused tree) keys keys (visit n) IsValue :=
    hv.node hn (.child ht List.mem_cons_self) keys
  refine (safe_operand rfl hleaf).bind fun v _ => ?_
  refine safe_ofExcept fun f hf => .format ht hk ?_
  exact Value.fault_of_format (isFormatDatum_childValue hns 0) (isFormatDatum_childValue hns 1) hf

/-! ### Operators -/

theorem safe_arithmetic {op : ArithmeticOp} {n l r : Node} (hc : n.children = [l, r])
    (hl : Shaped .expression l) (hr : Shaped .expression r) (ht : tree.HasNode n)
    (hfault : ∀ f, OperatorFault n.line f → Excused tree f) :
    Safe names (Excused tree) keys keys (arithmetic visit op n) IsValue := by
  have hoperands := safe_operands hc (hv.node hl (.child ht (by simp [hc])) keys)
    (hv.node hr (.child ht (by simp [hc])) keys)
  refine hoperands.bind fun (a, b) _ => ?_
  refine (safe_ofExcept fun f hf => hfault f (Value.fault_of_arithmetic hf)).bind fun v _ => ?_
  exact safe_pure ⟨v, rfl⟩

theorem safe_comparison {op : RelationalOp} {n l r : Node} (hc : n.children = [l, r])
    (hl : Shaped .expression l) (hr : Shaped .expression r) (ht : tree.HasNode n)
    (hfault : ∀ f, OperatorFault n.line f → Excused tree f) :
    Safe names (Excused tree) keys keys (comparison visit op n) IsValue := by
  have hoperands := safe_operands hc (hv.node hl (.child ht (by simp [hc])) keys)
    (hv.node hr (.child ht (by simp [hc])) keys)
  refine hoperands.bind fun (a, b) _ => ?_
  refine (safe_ofExcept fun f hf => hfault f (Value.fault_of_compare hf)).bind fun v _ => ?_
  exact safe_pure ⟨v, rfl⟩

theorem safe_logical {op : Bool → Bool → Bool} {n l r : Node} (hc : n.children = [l, r])
    (hl : Shaped .expression l) (hr : Shaped .expression r) (ht : tree.HasNode n) :
    Safe names (Excused tree) keys keys (logical visit op n) IsValue := by
  refine (safe_condition (c := l) (by simp [hc]) (hv.node hl (.child ht (by simp [hc])) keys)).bind
    fun a _ => ?_
  refine (safe_condition (c := r) (by simp [hc]) (hv.node hr (.child ht (by simp [hc])) keys)).bind
    fun b _ => ?_
  exact safe_pure ⟨.boolean (op a b), rfl⟩

theorem safe_binary {fuel : Nat} {line : Int} {kind : Node.Kind} {l r : Node}
    (hk : kind.isBinary = true) (hl : Shaped .expression l) (hr : Shaped .expression r)
    (ht : tree.HasNode { kind, line, children := [l, r] }) (hline : 1 ≤ line) :
    Safe names (Excused tree) keys keys
      (visitNode 0 visit fuel { kind, line, children := [l, r] }) IsValue := by
  have hfault (hreported : kind.isReported = true) (f : Fault) (hf : OperatorFault line f) :
      Excused tree f := .operator ht hreported hline hf
  cases kind with
  | add | subtract | multiply | divide | intDivide =>
    exact safe_arithmetic hv rfl hl hr ht (hfault rfl)
  | equal | unequal | less | greater | atMost | atLeast =>
    exact safe_comparison hv rfl hl hr ht (hfault rfl)
  | and | or => exact safe_logical hv rfl hl hr ht
  | _ => cases hk

end Rules

/-! ### All nodes -/

section Nodes

variable {names : List Text} {tree : Node} {visit : Node → Run Yield} {fuel : Nat}

theorem safe_variableValue {keys : List Text} {line : Int} {name : Text}
    (ht : tree.HasNode
      { kind := .var, line, text := .text name, slot := some (SymbolTable.key name) })
    (hline : 1 ≤ line) (hname : SymbolTable.key name ∈ names) :
    Safe names (Excused tree) keys keys
      (variableValue { kind := .var, line, text := .text name, slot := some (SymbolTable.key name) })
      IsValue := by
  refine (safe_load hname).bind ?_
  rintro _ (rfl | ⟨v, rfl⟩)
  · exact safe_fail (.operator ht rfl hline (.cause _))
  · exact safe_pure ⟨v, rfl⟩

theorem safe_assign {keys : List Text} {line : Int} {v e : Node} {key : Text}
    (hv : Visits names tree visit) (he : Shaped .expression e)
    (ht : tree.HasNode { kind := .assign, line, children := [v, e] }) (hslot : v.slot = some key)
    (hname : key ∈ names) :
    Safe names (Excused tree) keys (key :: keys)
      (visitNode 0 visit fuel { kind := .assign, line, children := [v, e] }) fun _ => True := by
  refine Safe.statement ?_
  refine (hv.node he (.child ht (by simp)) keys).bind ?_
  rintro _ ⟨value, rfl⟩
  rw [hslot]
  refine (safe_store hname value).bind fun _ _ => ?_
  rw [trace_eq (by decide)]
  exact safe_pure trivial

theorem safe_forStatement {keys : List Text} {line : Int} {descending : Bool} {a l s : Node}
    (hv : Visits names tree visit) (hanchored : tree.Anchored names) (ha : Shaped .assignment a)
    (hl : Shaped .expression l) (hs : Shaped .statement s)
    (ht : tree.HasNode { kind := .forLoop, line, descending, children := [a, l, s] }) :
    Safe names (Excused tree) keys keys
      (forStatement visit fuel { kind := .forLoop, line, descending, children := [a, l, s] })
      fun _ => True := by
  have hat : tree.HasNode a := .child ht (by simp)
  obtain ⟨v, e, hc, hvariable⟩ : ∃ v e, a.children = [v, e] ∧ Shaped .variable v := by
    cases ha with
    | assign _ hv _ => exact ⟨_, _, rfl, hv⟩
  obtain ⟨name, -, hslot, -⟩ := hvariable.mentions_variable
  have hname := hanchored.slot v _ (.child hat (by simp [hc])) hslot
  -- from the assignment on the control variable holds a value
  have hinit := hv.assignment ha hat hc hslot keys
  have hrounds : Safe names (Excused tree) (SymbolTable.key name :: keys)
      (SymbolTable.key name :: keys)
      (forLoop visit line (some (SymbolTable.key name)) descending l s fuel) fun _ => True :=
    safe_forLoop (fun f hf => .operator ht rfl (hanchored.line _ ht) hf) hname List.mem_cons_self
      (hv.node hl (.child ht (by simp)) _) (hv.node hs (.child ht (by simp)) _) fuel
  refine Safe.mono ?_ (fun _ => id) fun _ => List.mem_cons_of_mem (SymbolTable.key name)
  refine hinit.bind fun _ _ => ?_
  rw [child_eq (c := v) (by simp [hc]), pure_bind, hslot]
  exact hrounds

/-- The assignment of a statement or of the header of a FOR loop. -/
theorem safe_assignment {keys : List Text} {n v e : Node} {key : Text}
    (hv : Visits names tree visit) (hanchored : tree.Anchored names) (h : Shaped .assignment n)
    (ht : tree.HasNode n) (hc : n.children = [v, e]) (hslot : v.slot = some key) :
    Safe names (Excused tree) keys (key :: keys) (visitNode 0 visit fuel n) fun _ => True := by
  cases h with
  | assign _ _ he =>
    cases hc
    exact safe_assign hv he ht hslot (hanchored.slot v key (.child ht (by simp)) hslot)

/-- **The rule of every kind of node is safe** for a node of the right shape. -/
theorem safe_visitNode {role : Role} {n : Node} (hv : Visits names tree visit)
    (hanchored : tree.Anchored names) (h : Shaped role n) (ht : tree.HasNode n) (keys : List Text) :
    Safe names (Excused tree) keys keys (visitNode 0 visit fuel n) (Gives role) := by
  induction h with
  | var _ name =>
    exact safe_variableValue ht (hanchored.line _ ht) (hanchored.slot _ _ ht rfl)
  | integer _ _ k => exact safe_pure ⟨.integer k, rfl⟩
  | real _ _ x => exact safe_pure ⟨.real x, rfl⟩
  | string _ _ s => exact safe_pure ⟨.text s, rfl⟩
  | number _ ih | ofVariable _ ih | ofConstant _ ih | ofLeaf _ ih => exact ih ht
  | not _ he =>
    refine (safe_condition rfl (hv.node he (.child ht (by simp)) keys)).bind fun b _ => ?_
    exact safe_pure ⟨.boolean !b, rfl⟩
  | binary _ hk hl hr => exact safe_binary hv hk hl hr ht (hanchored.line _ ht)
  | @assign line v e hvariable he =>
    obtain ⟨name, -, hslot, -⟩ := hvariable.mentions_variable
    refine Safe.mono ?_ (fun _ => id) fun _ => List.mem_cons_of_mem (SymbolTable.key name)
    exact safe_assignment hv hanchored (.assign line hvariable he) ht rfl hslot
  -- what is known of a target that it is not WRITE does not matter in a run
  | assignment _ _ _ ih => exact (ih ht).imp fun _ _ => trivial
  | compound _ hs =>
    refine Safe.statement (safe_visitAll fun n hn => ?_)
    exact hv.node (hs n hn) (.child ht hn) keys
  | conditional _ hc hs =>
    refine Safe.statement ?_
    refine (safe_condition rfl (hv.node hc (.child ht (by simp)) keys)).bind fun outcome _ => ?_
    rw [trace_eq (by decide), pure_bind]
    split
    · exact (hv.node hs (.child ht (by simp)) keys).discard
    · exact safe_pure trivial
  | alternative _ hc hs he =>
    refine Safe.statement ?_
    refine (safe_condition rfl (hv.node hc (.child ht (by simp)) keys)).bind fun outcome _ => ?_
    rw [trace_eq (by decide), pure_bind]
    split
    · exact (hv.node hs (.child ht (by simp)) keys).discard
    · exact (hv.node he (.child ht (by simp)) keys).discard
  | whileLoop _ hc hs =>
    exact Safe.statement (safe_whileLoop (hv.node hc (.child ht (by simp)) keys)
      (hv.node hs (.child ht (by simp)) keys) fuel)
  | forLoop _ _ ha hl hs => exact Safe.statement (safe_forStatement hv hanchored ha hl hs ht)
  | test _ hc =>
    refine (safe_condition rfl (hv.node hc (.child ht (by simp)) keys)).bind fun outcome _ => ?_
    rw [trace_eq (by decide), pure_bind]
    exact safe_pure ⟨.boolean outcome, rfl⟩
  | @loop _ ns t hs htest =>
    have hrounds : Safe names (Excused tree) keys keys (repeatLoop visit ns t fuel) fun _ => True :=
      safe_repeatLoop (fun n hn => hv.node (hs n hn) (.child ht (by simp [hn])) keys)
        (hv.node htest (.child ht (by simp)) keys) fuel
    refine Safe.statement ?_
    simpa using hrounds
  | select _ he hns => exact Safe.statement (safe_selectStatement hv he hns ht)
  | labels _ _ hns =>
    refine (safe_visitEach fun n hn => ?_).bind fun ys hys => safe_pure ⟨ys, rfl, hys⟩
    exact hv.node (hns n hn) (.child ht hn) keys
  | branch _ _ hs =>
    exact Safe.statement (hv.node hs (.child ht (by simp)) keys).discard
  | @write line kind leaf format hk hn hns hlen =>
    have htext : Safe names (Excused tree) keys keys
        (writtenText visit { kind, line, children := leaf :: format }) fun _ => True :=
      safe_writtenText hv hk hn hns ht
    rcases hk with rfl | rfl
    · exact Safe.statement (htext.bind fun s _ => safe_write s)
    · exact Safe.statement (htext.bind fun s _ => safe_write _)
  | writeln =>
    have htext : Safe names (Excused tree) keys keys (pure []) fun _ : Text => True :=
      safe_pure trivial
    exact Safe.statement (htext.bind fun s _ => safe_write _)
  | program _ _ _ hs =>
    refine Safe.statement ?_
    rw [Datum.display?, shown_some, pure_bind, trace_eq (by decide), pure_bind]
    refine safe_visitAll fun n hn => ?_
    obtain rfl := List.mem_singleton.1 hn
    exact hv.node (.compound _ hs) (.child ht hn) keys

/-- **All visits of a tree are safe**, whatever the amount of fuel. -/
theorem visits_visit (hanchored : tree.Anchored names) (fuel : Nat) :
    Visits names tree (Run.visit 0 fuel) := by
  induction fuel with
  | zero => exact ⟨fun _ _ _ => safe_exhausted, fun _ _ _ _ _ => safe_exhausted⟩
  | succ fuel ih =>
    exact ⟨fun h ht keys => safe_visitNode ih hanchored h ht keys,
      fun h ht hc hslot _ => safe_assignment ih hanchored h ht hc hslot⟩

end Nodes

end Run

end MiniPascal

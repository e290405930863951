import MiniPascal.Proofs.Grammar.Lockstep
import MiniPascal.Proofs.Node.Built
import MiniPascal.Proofs.Node.Part
import MiniPascal.Proofs.Run.Fuel
import MiniPascal.Proofs.Value.Alike

/-!
# Running two alike trees

What a run does to the variables and to the output depends on no line, on no spelling, and on no level
of detail of its trace. So two alike trees, run on the same variables with the same fuel, are run in
step: the variables and the output stay the same, and both runs stop for the same reason.

There is one exception, and it is why the levels come in. A message of a trace shows values, and an
overlong integer cannot be shown (`MiniPascal.Run.Untold`). A run that leaves such a message stops there,
and a run that does not leave it goes on. Of two runs in step, the first one leaves more messages, and it
may stop alone in this way only.

* `MiniPascal.Run.CutShort`: where the trace of a tree is cut short.
* `MiniPascal.Sides`: two runs, their levels, and what may differ in their trees.
* `MiniPascal.Run.InStep`: actions of the two runs that are in step.
* `MiniPascal.Run.inStep_visit`: visits of alike trees are in step.
* `MiniPascal.Sides.runs`: what becomes of two runs whose actions are in step.
* `MiniPascal.Sides.Pair.runs`: the runs of two alike trees.
* `MiniPascal.Parse.Alike.runs`: runs of programs that are read alike.
-/

namespace MiniPascal

open Node

/-! ### A tree and itself -/

/-- **A tree that is built is alike to itself**: its texts are spellings. -/
theorem Built.alike_self {A : Likeness} {n : Node} (h : Built n) : n.Alike A n := by
  have leaf {kind : Node.Kind} {line : Int} {name : Text} {value : Datum} {slot : Option Text} :
      Node.Alike A { kind, line, text := .text name, value, slot }
        { kind, line, text := .text name, value, slot } :=
    .intro rfl (A.line_refl _) (.text (A.text_refl _)) rfl rfl rfl .nil
  induction h with
  | var | integer | real | string => exact leaf
  | assign _ _ _ _ ih =>
    exact .intro rfl (A.line_refl _) .null rfl rfl rfl (.cons leaf (List.forall₂_same.2 ih))
  | bare _ _ _ ih => exact .intro rfl (A.line_refl _) .null rfl rfl rfl (List.forall₂_same.2 ih)

theorem BuiltProgram.alike_self {A : Likeness} {n : Node} (h : BuiltProgram n) : n.Alike A n := by
  obtain ⟨line, name, hns⟩ := h
  refine .intro rfl (A.line_refl _) ?_ rfl rfl rfl
    (List.forall₂_same.2 fun m hm => (hns m hm).alike_self)
  cases name with
  | none => exact .null
  | some name => exact .text (A.text_refl name)

/-- What is alike to itself has parts that are. -/
theorem Node.Alike.of_hasNode {A : Likeness} {tree n : Node} (h : tree.Alike A tree)
    (hn : tree.HasNode n) : n.Alike A n := by
  induction hn with
  | root => exact h
  | child _ hm ih => exact List.forall₂_same.1 ih.children _ hm

/-! ### Two runs -/

/-- **A selector that cannot be shown**: of a CASE statement of the tree, the selector has just been
evaluated, and no branch has been found. -/
inductive Run.Unmatched (level : Int) (visit : Node → Run Yield) (tree : Node) : SymbolTable → Prop
  | selector {n c : Node} {y : Yield} {m m₁ m₂ : Machine} : tree.HasNode n → n.kind = .select →
    n.children[0]? = some c → visit c m = .ok y m₁ →
    findBranch visit y (n.children.drop 1) m₁ = .ok none m₂ → Untold level 3 y →
    Unmatched level visit tree m₂.table

/-- **A variable that cannot be shown** when something is assigned to it. -/
def Run.UntoldAt (level : Int) (key : Text) (table : SymbolTable) : Prop :=
  ∃ y, table.get? key = some y ∧ Untold level 2 y

/-- **Where the trace of a tree is cut short**: the message cannot be made about what has been assigned to
a variable, or about the selector of a CASE statement. -/
def Run.CutShort (level : Int) (tree : Node) (table : SymbolTable) : Prop :=
  (∃ key, UntoldAt level key table) ∨
    ∃ fuel, Unmatched level (visit level fuel) tree table

theorem Run.CutShort.two_le {level : Int} {tree : Node} {table : SymbolTable}
    (h : CutShort level tree table) : 2 ≤ level := by
  rcases h with ⟨key, y, -, hu⟩ | ⟨fuel, ⟨-, -, -, -, -, hu⟩⟩
  · exact hu.asked
  · exact Int.le_trans (by decide) hu.asked

/-- **Two runs**: what may differ in their trees, the levels of detail of their traces, of which the
second is the same or none at all, the tree of the first run, the names of the variables, and where the
first run may stop alone. If the levels differ, that is wherever its trace is cut short, and the variables
have to be in the table, so that what is assigned can be found in it. -/
structure Sides where
  likeness : Likeness
  first : Int
  second : Int
  second_eq_or_le : second = first ∨ second ≤ 0
  tree : Node
  names : List Text
  slots : second < first → ∀ n key, tree.HasNode n → n.slot = some key → key ∈ names
  alone : SymbolTable → Prop
  alone_of_cutShort : second < first → ∀ table, Run.CutShort first tree table → alone table

/-- Two runs at the same level. -/
def Sides.level (A : Likeness) (level : Int) (tree : Node) (names : List Text)
    (alone : SymbolTable → Prop) : Sides where
  likeness := A
  first := level
  second := level
  second_eq_or_le := .inl rfl
  tree := tree
  names := names
  slots hlt := absurd hlt (Int.lt_irrefl level)
  alone := alone
  alone_of_cutShort hlt := absurd hlt (Int.lt_irrefl level)

namespace Sides

/-- Alike trees for the two runs. If the levels differ, they are parts of the whole trees. -/
structure Pair (S : Sides) (n n' : Node) : Prop where
  alike : n.Alike S.likeness n'
  node : S.second < S.first → S.tree.HasNode n

theorem Pair.children {S : Sides} {n n' : Node} (h : S.Pair n n') :
    List.Forall₂ S.Pair n.children n'.children := by
  have hboth := (List.forall₂_and_left _ _).2
    ⟨fun m hm hlt => (h.node hlt).child hm, h.alike.children⟩
  exact hboth.imp fun m m' hm => ⟨hm.2, hm.1⟩

end Sides

/-- **Machines that are alike**: the same variables and the same output, and no log in a second run
that has no trace. -/
structure Machine.Alike (S : Sides) (m m' : Machine) : Prop where
  table : m.table = m'.table
  output : m.output = m'.output
  names : m.table.names = S.names
  silent : S.second ≤ 0 → m'.log = #[]

theorem Machine.Alike.store {S : Sides} {m m' : Machine} (hm : m.Alike S m') (key : Text)
    (y : Yield) : Machine.Alike S { m with table := m.table.store key y }
      { m' with table := m'.table.store key y } :=
  ⟨by rw [hm.table], hm.output, by simp [hm.names], hm.silent⟩

namespace Run

variable {S : Sides} {α β γ δ : Type}

/-! ### Actions in step -/

/-- Outcomes that agree: related results or the same reason to stop, with alike machines, or the first
one stops alone. -/
inductive Agree (S : Sides) (R : α → β → Prop) :
    EStateM.Result Stop Machine α → EStateM.Result Stop Machine β → Prop
  | ok {a : α} {b : β} {m m' : Machine} : R a b → m.Alike S m' → Agree S R (.ok a m) (.ok b m')
  | error {stop stop' : Stop} {m m' : Machine} : stop.Alike S.likeness stop' → m.Alike S m' →
    Agree S R (.error stop m) (.error stop' m')
  | untold {m : Machine} {result : EStateM.Result Stop Machine β} : S.alone m.table →
    Agree S R (.error (.fault (.number .overlong)) m) result

/-- **Two actions are in step** if they lead from alike machines to outcomes that agree. -/
def InStep (S : Sides) (R : α → β → Prop) (act : Run α) (act' : Run β) : Prop :=
  ∀ ⦃m m' : Machine⦄, m.Alike S m' → Agree S R (act m) (act' m')

section Rules

variable {R : α → β → Prop} {Q : γ → δ → Prop} {act : Run α} {act' : Run β} {next : α → Run γ}
  {next' : β → Run δ}

theorem inStep_pure {a : α} {b : β} (h : R a b) : InStep S R (pure a) (pure b) :=
  fun _ _ hm => .ok h hm

/-- What follows is asked about the outcome of the first actions. -/
theorem agree_bind {m m' : Machine} (h : Agree S R (act m) (act' m'))
    (h' : ∀ a b m₁ m₁', act m = .ok a m₁ → R a b → m₁.Alike S m₁' →
      Agree S Q (next a m₁) (next' b m₁')) :
    Agree S Q ((act >>= next) m) ((act' >>= next') m') := by
  rw [bind_apply, bind_apply]
  generalize act m = result, act' m' = result' at h h' ⊢
  cases h with
  | ok hab hm₁ => exact h' _ _ _ _ rfl hab hm₁
  | error hstop hm₁ => exact .error hstop hm₁
  | untold hm₁ => exact .untold hm₁

/-- **Actions in step, one after the other**, are in step. -/
theorem InStep.bind (h : InStep S R act act') (h' : ∀ a b, R a b → InStep S Q (next a) (next' b)) :
    InStep S Q (act >>= next) (act' >>= next') :=
  fun _ _ hm => agree_bind (h hm) fun a b _ _ _ hab hm₁ => h' a b hab hm₁

/-- Both actions give the same result. -/
theorem InStep.bind_eq {act act' : Run α} {next : α → Run γ} {next' : α → Run δ}
    (h : InStep S Eq act act') (h' : ∀ a, InStep S Q (next a) (next' a)) :
    InStep S Q (act >>= next) (act' >>= next') := by
  refine h.bind ?_
  rintro a _ rfl
  exact h' a

theorem InStep.map_eq {act act' : Run α} (g : α → γ) (h : InStep S Eq act act') :
    InStep S Eq (g <$> act) (g <$> act') := by
  rw [map_eq_pure_bind, map_eq_pure_bind]
  exact h.bind_eq fun a => inStep_pure rfl

theorem InStep.ite {act₁ act₂ : Run α} {act₁' act₂' : Run β} {p : Prop} [Decidable p]
    (h₁ : InStep S R act₁ act₁') (h₂ : InStep S R act₂ act₂') :
    InStep S R (if p then act₁ else act₂) (if p then act₁' else act₂') := by
  split
  · exact h₁
  · exact h₂

theorem inStep_exhausted : InStep S R (throw .exhausted) (throw .exhausted) :=
  fun _ _ hm => .error .exhausted hm

theorem inStep_fail {f f' : Fault} (h : f.Alike S.likeness f') : InStep S R (fail f) (fail f') :=
  fun _ _ hm => .error (.fault h) hm

/-- There are as many children on both sides. -/
theorem inStep_wrongArity {ns ns' : List Node} {needed : Nat} (h : ns.length = ns'.length) :
    InStep S R (fail (.wrongArity needed ns.length)) (fail (.wrongArity needed ns'.length)) := by
  rw [h]
  exact inStep_fail (.refl _)

end Rules

/-! ### Single actions -/

theorem inStep_ofExcept {e e' : Except Fault α} (h : AlikeResult S.likeness e e') :
    InStep S Eq (ofExcept e) (ofExcept e') := by
  cases h with
  | ok a => exact inStep_pure rfl
  | error h => exact inStep_fail h

theorem inStep_valueOf (asked : Inquiry) (y : Yield) :
    InStep S Eq (valueOf asked y) (valueOf asked y) := by
  unfold valueOf
  split
  · exact inStep_pure rfl
  · exact inStep_fail (.refl _)

theorem inStep_bothValues (left right : Yield) :
    InStep S Eq (bothValues left right) (bothValues left right) :=
  (inStep_valueOf _ left).bind_eq fun _ => (inStep_valueOf _ right).bind_eq fun _ => inStep_pure rfl

/-- Two texts of which both can be shown or neither can. -/
theorem inStep_shown {text? text?' : Option Text} (h : text?.isSome = text?'.isSome) :
    InStep S (fun _ _ => True) (shown text?) (shown text?') := by
  unfold shown
  cases text? <;> cases text?' <;> simp only [Option.isSome_none, Option.isSome_some, reduceCtorEq] at h
  · exact inStep_fail (.refl _)
  · exact inStep_pure trivial

theorem inStep_write (s : Text) : InStep S Eq (write s) (write s) :=
  fun _ _ hm => .ok rfl ⟨hm.table, by simp [hm.output], hm.names, hm.silent⟩

theorem inStep_load (key : Option Text) : InStep S Eq (load key) (load key) := by
  intro m m' hm
  rw [load_apply, load_apply, hm.table]
  cases key.bind m'.table.get? with
  | some y => exact .ok rfl hm
  | none => exact .error (.fault (.refl _)) hm

theorem store_bind (key : Text) (y : Yield) (next : Unit → Run α) (m : Machine) :
    (store (some key) y >>= next) m = next () { m with table := m.table.store key y } := rfl

theorem inStep_store (key : Option Text) (y : Yield) : InStep S Eq (store key y) (store key y) := by
  cases key with
  | none => exact inStep_fail (.refl _)
  | some key => exact fun _ _ hm => .ok rfl (hm.store key y)

/-- **A message of the first run alone**: it is left or it is not, or the run stops because it has to show
what cannot be shown. -/
theorem agree_trace_pure {m m' : Machine} (hm : m.Alike S m') (least : Int)
    {message? : Unit → Option Text}
    (hhidden : least ≤ S.first → message? () = none → S.alone m.table) :
    Agree S Eq (trace S.first least message? m) ((pure () : Run Unit) m') := by
  by_cases hfirst : S.first < least
  · rw [trace_eq hfirst]
    exact .ok rfl hm
  · rw [trace, if_neg hfirst]
    cases hmessage : message? () with
    | some s => exact .ok rfl ⟨hm.table, hm.output, hm.names, hm.silent⟩
    | none => exact .untold (hhidden (Int.not_lt.1 hfirst) hmessage)

/-- **A message of a trace**: both runs leave one or none, or the first one stops alone because it has
to show what cannot be shown. -/
theorem agree_trace {m m' : Machine} (hm : m.Alike S m') (least : Int) (hleast : 0 < least)
    {message? message?' : Unit → Option Text}
    (hsome : (message? ()).isSome = (message?' ()).isSome)
    (hhidden : S.second < S.first → least ≤ S.first → message? () = none → S.alone m.table) :
    Agree S Eq (trace S.first least message? m) (trace S.second least message?' m') := by
  by_cases hless : S.second < least
  · rw [trace_eq hless]
    exact agree_trace_pure hm least fun hle => hhidden (Int.lt_of_lt_of_le hless hle) hle
  · -- the second level asks for the message, so that the levels are the same
    have hsecond := S.second_eq_or_le
    unfold trace
    rw [if_neg (by omega), if_neg hless]
    cases hmessage : message? () with
    | some s =>
      rw [hmessage, Option.isSome_some, eq_comm, Option.isSome_iff_exists] at hsome
      obtain ⟨s', hs'⟩ := hsome
      rw [hs']
      exact .ok rfl ⟨hm.table, hm.output, hm.names, fun hle => absurd hle (by omega)⟩
    | none =>
      rw [hmessage, Option.isSome_none, eq_comm, Option.isSome_eq_false_iff,
        Option.isNone_iff_eq_none] at hsome
      rw [hsome]
      exact .error (.fault (.refl _)) hm

/-- A message that can always be made. -/
theorem inStep_trace {least : Int} (hleast : 0 < least) {message? message?' : Unit → Option Text}
    (h : (message? ()).isSome = true) (h' : (message?' ()).isSome = true) :
    InStep S Eq (trace S.first least message?) (trace S.second least message?') :=
  fun _ _ hm => agree_trace hm least hleast (by rw [h, h']) fun _ _ hnone => by simp [hnone] at h

/-! ### Alike children -/

/-- Related lists are related position by position. -/
theorem rel_getElem? {R : α → β → Prop} {l : List α} {l' : List β} (h : List.Forall₂ R l l')
    (i : Nat) : Option.Rel R l[i]? l'[i]? := by
  induction h generalizing i with
  | nil => exact .none
  | cons hab _ ih =>
    cases i with
    | zero => exact .some hab
    | succ i => exact ih i

theorem rel_getLast? {R : α → β → Prop} {l : List α} {l' : List β} (h : List.Forall₂ R l l') :
    Option.Rel R l.getLast? l'.getLast? := by
  rw [List.getLast?_eq_getElem?, List.getLast?_eq_getElem?, h.length_eq]
  exact rel_getElem? h _

theorem isEmpty_eq {R : α → β → Prop} {l : List α} {l' : List β} (h : List.Forall₂ R l l') :
    l.isEmpty = l'.isEmpty := by
  cases h <;> rfl

theorem forall₂_dropLast {R : α → β → Prop} {l : List α} {l' : List β} (h : List.Forall₂ R l l') :
    List.Forall₂ R l.dropLast l'.dropLast := by
  rw [List.dropLast_eq_take, List.dropLast_eq_take, h.length_eq]
  exact List.forall₂_take _ h

theorem inStep_child {n n' : Node} (h : S.Pair n n') (i : Nat) :
    InStep S S.Pair (child n i) (child n' i) := by
  have hchild := rel_getElem? h.children i
  unfold child
  generalize n.children[i]? = c, n'.children[i]? = c' at hchild ⊢
  cases hchild with
  | some hc => exact inStep_pure hc
  | none => exact inStep_fail (.refl _)

theorem getElem?_of_child {n c : Node} {i : Nat} {m m' : Machine} (h : child n i m = .ok c m') :
    n.children[i]? = some c := by
  unfold child at h
  cases hc : n.children[i]? with
  | none =>
    rw [hc] at h
    cases h
  | some c' =>
    rw [hc] at h
    cases h
    rfl

theorem childValue_eq {n n' : Node} (h : S.Pair n n') (i : Nat) : childValue n i = childValue n' i := by
  have hchild := rel_getElem? h.children i
  unfold childValue
  generalize n.children[i]? = c, n'.children[i]? = c' at hchild ⊢
  cases hchild with
  | some hc => exact hc.alike.value
  | none => rfl

/-! ### Parts of the rules -/

section Rules

variable {visit visit' : Node → Run Yield}
  (hv : ∀ {n n' : Node}, S.Pair n n' → InStep S Eq (visit n) (visit' n'))
  {n n' : Node} {ns ns' : List Node}
include hv

theorem inStep_visitAll (h : List.Forall₂ S.Pair ns ns') :
    InStep S Eq (visitAll visit ns) (visitAll visit' ns') := by
  induction h with
  | nil => exact inStep_pure rfl
  | cons hn _ ih => exact (hv hn).bind_eq fun _ => ih

theorem inStep_visitEach (h : List.Forall₂ S.Pair ns ns') :
    InStep S Eq (visitEach visit ns) (visitEach visit' ns') := by
  induction h with
  | nil => exact inStep_pure rfl
  | cons hn _ ih => exact (hv hn).bind_eq fun _ => ih.bind_eq fun _ => inStep_pure rfl

theorem inStep_operand (asked : Inquiry) (h : S.Pair n n') (i : Nat) :
    InStep S Eq (operand asked visit n i) (operand asked visit' n' i) :=
  (inStep_child h i).bind fun _ _ hc => (hv hc).bind_eq (inStep_valueOf asked)

theorem inStep_condition (h : S.Pair n n') (i : Nat) :
    InStep S Eq (condition visit n i) (condition visit' n' i) :=
  (inStep_operand hv .kind h i).map_eq Value.truth

theorem inStep_operands (h : S.Pair n n') : InStep S Eq (operands visit n) (operands visit' n') :=
  (inStep_child h 0).bind fun _ _ hl => (hv hl).bind_eq fun left =>
    (inStep_child h 1).bind fun _ _ hr => (hv hr).bind_eq fun right =>
      inStep_bothValues left right

/-! ### Statements -/

theorem inStep_assign (h : S.Pair n n') :
    InStep S Eq (assign S.first visit n) (assign S.second visit' n') := by
  have hchildren := h.children
  have hlength := hchildren.length_eq
  unfold assign
  generalize n.children = children, n'.children = children' at hchildren hlength ⊢
  -- any other number of children is wrong on both sides
  rcases hchildren with - | ⟨htarget, - | ⟨hexpression, - | -⟩⟩
  case cons.cons.nil =>
    rename_i target target' expression expression'
    refine (hv hexpression).bind_eq fun y => ?_
    rw [htarget.alike.slot]
    cases hslot : target'.slot with
    | none => exact fun _ _ hm => .error (.fault (.refl _)) hm
    | some key =>
      intro m m' hm
      rw [store_bind, store_bind]
      refine agree_trace (hm.store key y) 2 (by decide) ?_ fun hlt hle hnone => ?_
      · obtain ⟨hs, hs'⟩ := htarget.alike.text.isSome_display?
        obtain ⟨name, hname⟩ := Option.isSome_iff_exists.1 hs
        obtain ⟨name', hname'⟩ := Option.isSome_iff_exists.1 hs'
        simp only [hname, hname', Option.bind_eq_bind, Option.bind_some, Option.pure_def]
        cases y.description? <;> simp
      · obtain ⟨name, hname⟩ := Option.isSome_iff_exists.1 htarget.alike.text.isSome_display?.1
        have hdescription : y.description? = none :=
          Option.eq_none_iff_forall_ne_some.2 (by simpa [hname] using hnone)
        have hkey : key ∈ m.table.names := by
          rw [hm.names]
          exact S.slots hlt _ key (htarget.node hlt) (htarget.alike.slot.trans hslot)
        obtain ⟨y', hy'⟩ := SymbolTable.mem_names_iff.1 hkey
        exact S.alone_of_cutShort hlt _
          (.inl ⟨key, y, by simp [SymbolTable.get?_store, hy'], hle, hdescription⟩)
  all_goals exact inStep_wrongArity hlength

omit hv in
theorem inStep_matchesLabel (selector : Yield) (labels : List Yield) :
    InStep S Eq (matchesLabel selector labels) (matchesLabel selector labels) := by
  induction labels with
  | nil => exact inStep_pure rfl
  | cons label labels ih =>
    exact (inStep_bothValues selector label).bind_eq fun _ =>
      (inStep_ofExcept (.refl _)).bind_eq fun _ => .ite (inStep_pure rfl) ih

theorem inStep_labelsOf (h : S.Pair n n') : InStep S Eq (labelsOf visit n) (labelsOf visit' n') := by
  refine (inStep_child h 0).bind fun c c' hc => (hv hc).bind_eq fun y => ?_
  cases y with
  | list labels => exact inStep_pure rfl
  | nothing | value => exact inStep_fail (.refl _)

theorem inStep_findBranch (selector : Yield) (h : List.Forall₂ S.Pair ns ns') :
    InStep S (Option.Rel S.Pair) (findBranch visit selector ns) (findBranch visit' selector ns') := by
  induction h with
  | nil => exact inStep_pure .none
  | cons hn _ ih =>
    exact (inStep_labelsOf hv hn).bind_eq fun labels =>
      (inStep_matchesLabel selector labels).bind_eq fun _ => .ite (inStep_pure (.some hn)) ih

theorem inStep_selectStatement
    (hu : ∀ {table}, Unmatched S.first visit S.tree table →
      ∃ fuel, Unmatched S.first (Run.visit S.first fuel) S.tree table)
    (hk : n.kind = .select) (h : S.Pair n n') :
    InStep S Eq (selectStatement S.first visit n) (selectStatement S.second visit' n') := by
  intro m m' hm
  unfold selectStatement
  refine agree_bind (inStep_child h 0 hm) fun c c' m₀ m₀' hchild hc hm₀ => ?_
  refine agree_bind (hv hc hm₀) fun y y' m₁ m₁' hvisit hy hm₁ => ?_
  obtain rfl := hy
  refine agree_bind (inStep_findBranch hv y (List.forall₂_drop 1 h.children) hm₁)
    fun b b' m₂ m₂' hfind hb hm₂ => ?_
  cases hb with
  | some hb => exact (hv hb).bind_eq (fun _ => inStep_pure rfl) hm₂
  | none =>
    refine agree_trace hm₂ 3 (by decide) (by simp only [Option.isSome_map]) fun hlt hle hnone =>
      S.alone_of_cutShort hlt _ (.inr (hu ?_))
    exact .selector (h.node hlt) hk (getElem?_of_child hchild) hvisit hfind
      ⟨hle, Option.map_eq_none_iff.1 hnone⟩

variable (fuel : Nat)

theorem inStep_repeatLoop {test test' : Node} (h : List.Forall₂ S.Pair ns ns')
    (ht : S.Pair test test') :
    InStep S Eq (repeatLoop visit ns test fuel) (repeatLoop visit' ns' test' fuel) := by
  induction fuel with
  | zero => exact inStep_exhausted
  | succ fuel ih =>
    exact (inStep_visitAll hv h).bind_eq fun _ => (hv ht).bind_eq fun y =>
      (inStep_valueOf _ y).bind_eq fun _ => .ite (inStep_pure rfl) ih

theorem inStep_whileLoop {test test' body body' : Node} (ht : S.Pair test test')
    (hb : S.Pair body body') :
    InStep S Eq (whileLoop visit test body fuel) (whileLoop visit' test' body' fuel) := by
  induction fuel with
  | zero => exact inStep_exhausted
  | succ fuel ih =>
    exact (hv ht).bind_eq fun y => (inStep_valueOf _ y).bind_eq fun _ =>
      .ite ((hv hb).bind_eq fun _ => ih) (inStep_pure rfl)

theorem inStep_forLoop {line line' : Int} (hline : S.likeness.line line line')
    (control : Option Text) (descending : Bool) {limit limit' body body' : Node}
    (hl : S.Pair limit limit') (hb : S.Pair body body') :
    InStep S Eq (forLoop visit line control descending limit body fuel)
      (forLoop visit' line' control descending limit' body' fuel) := by
  induction fuel with
  | zero => exact inStep_exhausted
  | succ fuel ih =>
    refine (hv hl).bind_eq fun bound => (inStep_load control).bind_eq fun y =>
      (inStep_bothValues y bound).bind_eq fun (current, limit) =>
        (inStep_ofExcept (Value.relation_alike hline _ current limit)).bind_eq fun past =>
          .ite (inStep_pure rfl) ?_
    exact (hv hb).bind_eq fun _ => (inStep_load control).bind_eq fun y =>
      (inStep_valueOf _ y).bind_eq fun current =>
        (inStep_ofExcept (Value.arithmetic_alike hline _ current _)).bind_eq fun next =>
          (inStep_store control _).bind_eq fun _ => ih

theorem inStep_forStatement (h : S.Pair n n') :
    InStep S Eq (forStatement visit fuel n) (forStatement visit' fuel n') := by
  have hchildren := h.children
  have hlength := hchildren.length_eq
  unfold forStatement
  generalize n.children = children, n'.children = children' at hchildren hlength ⊢
  rcases hchildren with - | ⟨hinit, - | ⟨hlimit, - | ⟨hbody, - | -⟩⟩⟩
  case cons.cons.cons.nil =>
    refine (hv hinit).bind_eq fun _ => (inStep_child hinit 0).bind fun target target' ht => ?_
    rw [ht.alike.slot, h.alike.descending]
    exact inStep_forLoop hv fuel h.alike.line _ _ hlimit hbody
  all_goals exact inStep_wrongArity hlength

theorem inStep_writtenText (h : S.Pair n n') :
    InStep S Eq (writtenText visit n) (writtenText visit' n') := by
  unfold writtenText
  rw [isEmpty_eq h.children, childValue_eq h, childValue_eq h]
  exact .ite (inStep_pure rfl)
    ((inStep_operand hv _ h 0).bind_eq fun _ => inStep_ofExcept (.refl _))

/-! ### Expressions -/

omit hv in
theorem inStep_variableValue (h : S.Pair n n') :
    InStep S Eq (variableValue n) (variableValue n') := by
  have htext := h.alike.text
  unfold variableValue
  rw [h.alike.slot]
  refine (inStep_load _).bind_eq fun y => .ite (inStep_fail ?_) (inStep_pure rfl)
  refine .program h.alike.line ?_
  generalize n.text = d, n'.text = d' at htext ⊢
  cases htext with
  | null => exact .refl _
  | text hs => exact .unassigned hs

theorem inStep_arithmetic (op : ArithmeticOp) (h : S.Pair n n') :
    InStep S Eq (arithmetic visit op n) (arithmetic visit' op n') :=
  (inStep_operands hv h).bind_eq fun values =>
    (inStep_ofExcept (Value.arithmetic_alike h.alike.line op values.1 values.2)).bind_eq fun _ =>
      inStep_pure rfl

theorem inStep_comparison (op : RelationalOp) (h : S.Pair n n') :
    InStep S Eq (comparison visit op n) (comparison visit' op n') :=
  (inStep_operands hv h).bind_eq fun values =>
    (inStep_ofExcept (Value.compare_alike h.alike.line op values.1 values.2)).bind_eq fun _ =>
      inStep_pure rfl

theorem inStep_logical (op : Bool → Bool → Bool) (h : S.Pair n n') :
    InStep S Eq (logical visit op n) (logical visit' op n') :=
  (inStep_condition hv h 0).bind_eq fun _ => (inStep_condition hv h 1).bind_eq fun _ =>
    inStep_pure rfl

omit hv in
theorem inStep_constant (h : S.Pair n n') :
    InStep S Eq (integerConstant n) (integerConstant n') ∧
      InStep S Eq (realConstant n) (realConstant n') ∧
      InStep S Eq (stringConstant n) (stringConstant n') := by
  unfold integerConstant realConstant stringConstant
  rw [h.alike.value]
  refine ⟨?_, ?_, ?_⟩
  all_goals
    split
    · exact inStep_pure rfl
    · exact inStep_fail (.refl _)

/-! ### All nodes -/

omit hv in
theorem InStep.statement {action action' : Run Unit} (h : InStep S Eq action action') :
    InStep S Eq (statement action) (statement action') := h.bind_eq fun _ => inStep_pure rfl

/-- The effect of a visit. -/
theorem inStep_effect (h : S.Pair n n') :
    InStep S Eq (do let _ ← visit n) (do let _ ← visit' n') :=
  (hv h).bind_eq fun _ => inStep_pure rfl

/-- **The rule of every kind of node** is in step, if the visits that it makes are. -/
theorem inStep_visitNode
    (hu : ∀ {table}, Unmatched S.first visit S.tree table →
      ∃ fuel, Unmatched S.first (Run.visit S.first fuel) S.tree table)
    (h : S.Pair n n') :
    InStep S Eq (visitNode S.first visit fuel n) (visitNode S.second visit' fuel n') := by
  unfold visitNode
  rw [h.alike.kind]
  cases hk : n'.kind with
  | program =>
    obtain ⟨htext, htext'⟩ := h.alike.text.isSome_display?
    exact .statement ((inStep_shown (by rw [htext, htext'])).bind fun _ _ _ =>
      (inStep_trace (by decide) rfl rfl).bind_eq fun _ => inStep_visitAll hv h.children)
  | compound => exact .statement (inStep_visitAll hv h.children)
  | assign => exact .statement (inStep_assign hv h)
  | loop =>
    refine .statement ?_
    have hlast := rel_getLast? h.children
    generalize n.children.getLast? = last, n'.children.getLast? = last' at hlast ⊢
    cases hlast with
    | some htest => exact inStep_repeatLoop hv fuel (forall₂_dropLast h.children) htest
    | none => exact inStep_fail (.refl _)
  | test =>
    exact (inStep_condition hv h 0).bind_eq fun _ =>
      (inStep_trace (by decide) rfl rfl).bind_eq fun _ => inStep_pure rfl
  | write | writeln =>
    exact .statement ((inStep_writtenText hv h).bind_eq fun _ => inStep_write _)
  | conditional =>
    refine .statement ((inStep_condition hv h 0).bind_eq fun _ =>
      (inStep_trace (by decide) rfl rfl).bind_eq fun _ => .ite ?_ ?_)
    · exact (inStep_child h 1).bind fun _ _ hc => inStep_effect hv hc
    · have helse := rel_getElem? h.children 2
      generalize n.children[2]? = c, n'.children[2]? = c' at helse ⊢
      cases helse with
      | some hc => exact inStep_effect hv hc
      | none => exact inStep_pure rfl
  | whileLoop =>
    have hchildren := h.children
    have hlength := hchildren.length_eq
    refine .statement ?_
    generalize n.children = children, n'.children = children' at hchildren hlength ⊢
    rcases hchildren with - | ⟨htest, - | ⟨hbody, - | -⟩⟩
    case cons.cons.nil => exact inStep_whileLoop hv fuel htest hbody
    all_goals exact inStep_wrongArity hlength
  | forLoop => exact .statement (inStep_forStatement hv fuel h)
  | select => exact .statement (inStep_selectStatement hv hu (h.alike.kind.trans hk) h)
  | selectBranch =>
    exact .statement ((inStep_child h 1).bind fun _ _ hc => inStep_effect hv hc)
  | selectConstants => exact (inStep_visitEach hv h.children).bind_eq fun _ => inStep_pure rfl
  | add | subtract | multiply | divide | intDivide => exact inStep_arithmetic hv _ h
  | equal | caseEqual | unequal | less | greater | atMost | atLeast =>
    exact inStep_comparison hv _ h
  | and | or => exact inStep_logical hv _ h
  | not => exact (inStep_condition hv h 0).bind_eq fun _ => inStep_pure rfl
  | var => exact inStep_variableValue h
  | integerConstant => exact (inStep_constant h).1
  | realConstant => exact (inStep_constant h).2.1
  | stringConstant => exact (inStep_constant h).2.2
  | other => exact inStep_fail (.refl _)

end Rules

/-- **Alike trees are run in step**, with any amount of fuel. -/
theorem inStep_visit (fuel : Nat) {n n' : Node} (h : S.Pair n n') :
    InStep S Eq (visit S.first fuel n) (visit S.second fuel n') := by
  induction fuel generalizing n n' with
  | zero => exact inStep_exhausted
  | succ fuel ih => exact inStep_visitNode (fun h => ih h) fuel (fun hu => ⟨fuel, hu⟩) h

end Run

/-! ### Whole runs -/

/-- **Outcomes of runs that are alike**: the same variables, the same output, and the same reason to
stop, if there is one. -/
structure Execution.Alike (A : Likeness) (e e' : Execution) : Prop where
  stop : Option.Rel (Stop.Alike A) e.stop e'.stop
  table : e.table = e'.table
  output : e.output = e'.output

/-- Two runs that stop for the same reason stop for the very same one. -/
theorem Execution.Alike.stop_eq {e e' : Execution} (h : e.Alike .exact e') : e.stop = e'.stop := by
  have hstop := h.stop
  generalize e.stop = stop, e'.stop = stop' at hstop ⊢
  cases hstop with
  | none => rfl
  | some hs => rw [hs.eq]

theorem Execution.Alike.stop_eq_exhausted_iff {A : Likeness} {e e' : Execution}
    (h : e.Alike A e') : e.stop = some .exhausted ↔ e'.stop = some .exhausted := by
  have hstop := h.stop
  generalize e.stop = stop, e'.stop = stop' at hstop ⊢
  cases hstop with
  | none => simp
  | some hs => simpa using hs.eq_exhausted_iff

namespace Sides

variable {S : Sides} {n n' : Node} {table : SymbolTable}

/-- The outcomes of two actions in step are alike, or the first one stops alone. -/
theorem alike_outcome {act act' : Run Yield} (h : Run.InStep S Eq act act')
    (hnames : table.names = S.names) :
    let e := act.outcome table
    let e' := act'.outcome table
    e.Alike S.likeness e' ∧ (S.second ≤ 0 → e'.log = #[]) ∨
      e.stop = some (.fault (.number .overlong)) ∧ S.alone e.table := by
  have hm : Machine.Alike S ⟨table, #[], #[]⟩ ⟨table, #[], #[]⟩ := ⟨rfl, rfl, hnames, fun _ => rfl⟩
  have hagree := h hm
  unfold Run.outcome
  generalize act ⟨table, #[], #[]⟩ = result, act' ⟨table, #[], #[]⟩ = result' at hagree ⊢
  cases hagree with
  | ok _ hm => exact .inl ⟨⟨.none, hm.table, congrArg Array.toList hm.output⟩, hm.silent⟩
  | error hs hm => exact .inl ⟨⟨.some hs, hm.table, congrArg Array.toList hm.output⟩, hm.silent⟩
  | untold h => exact .inr ⟨rfl, h⟩

/-- **Two runs whose actions are in step**: both diverge, or both end with alike outcomes, or the first
one stops alone. -/
theorem runs {act act' : Nat → Run Yield} (hact : Run.Enacts S.first table act n)
    (hact' : Run.Enacts S.second table act' n') (h : ∀ fuel, Run.InStep S Eq (act fuel) (act' fuel))
    (hnames : table.names = S.names) :
    Diverges S.first n table ∧ Diverges S.second n' table ∨
    (∃ e e', Ends S.first n table e ∧ Ends S.second n' table e' ∧ e.Alike S.likeness e' ∧
      (S.second ≤ 0 → e'.log = #[])) ∨
    ∃ e, Ends S.first n table e ∧ e.stop = some (.fault (.number .overlong)) ∧ S.alone e.table := by
  rcases diverges_or_ends S.first n table with hdiverges | ⟨e, hends⟩
  · refine .inl ⟨hdiverges, hact'.diverges_iff.2 fun fuel => ?_⟩
    have hexhausted := hact.diverges_iff.1 hdiverges fuel
    rcases alike_outcome (h fuel) hnames with ⟨halike, -⟩ | ⟨hstop, -⟩
    · exact halike.stop_eq_exhausted_iff.1 hexhausted
    · rw [hexhausted] at hstop
      cases hstop
  · obtain ⟨fuel, rfl⟩ := hact.exists_outcome hends
    refine .inr ((alike_outcome (h fuel) hnames).imp ?_ ?_)
    · rintro ⟨halike, hsilent⟩
      exact ⟨_, _, hends, hact'.ends fun hs => hends.1 (halike.stop_eq_exhausted_iff.2 hs), halike,
        hsilent⟩
    · rintro ⟨hstop, halone⟩
      exact ⟨_, hends, hstop, halone⟩

/-- **The runs of two alike trees.** -/
theorem Pair.runs (h : S.Pair n n') (hnames : table.names = S.names) :
    Diverges S.first n table ∧ Diverges S.second n' table ∨
    (∃ e e', Ends S.first n table e ∧ Ends S.second n' table e' ∧ e.Alike S.likeness e' ∧
      (S.second ≤ 0 → e'.log = #[])) ∨
    ∃ e, Ends S.first n table e ∧ e.stop = some (.fault (.number .overlong)) ∧ S.alone e.table :=
  Sides.runs (Run.enacts_visit _ _ n) (Run.enacts_visit _ _ n') (fun fuel => Run.inStep_visit fuel h)
    hnames

end Sides

/-- **Alike trees run alike** at any level: both runs diverge, or both end with alike outcomes. -/
theorem Node.Alike.runs {A : Likeness} {n n' : Node} (h : n.Alike A n') (table : SymbolTable)
    (level : Int) :
    Diverges level n table ∧ Diverges level n' table ∨
      ∃ e e', Ends level n table e ∧ Ends level n' table e' ∧ e.Alike A e' := by
  have hpair : (Sides.level A level n table.names fun _ => False).Pair n n' := ⟨h, fun _ => .root⟩
  rcases hpair.runs rfl with hdiverge | ⟨e, e', he, he', halike, -⟩ | ⟨e, -, -, halone⟩
  · exact .inl hdiverge
  · exact .inr ⟨e, e', he, he', halike⟩
  · exact halone.elim

/-- **Programs that are read alike run alike**, each on its own symbol table. -/
theorem Parse.Alike.runs {A : Likeness} {p p' : Parse} {tree tree' : Node} (h : p.Alike A p')
    (ht : p.tree = .ok tree) (ht' : p'.tree = .ok tree') (level : Int) :
    Diverges level tree p.table ∧ Diverges level tree' p'.table ∨
      ∃ e e', Ends level tree p.table e ∧ Ends level tree' p'.table e' ∧ e.Alike A e' := by
  rw [← h.table]
  exact (h.tree_alike ht ht').runs p.table level

end MiniPascal

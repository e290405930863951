import MiniPascal.Node.Basic
import MiniPascal.Proofs.Node.Mention
import MiniPascal.Proofs.Node.Part

/-!
# The shape of trees

The nodes of a tree are of one type, and nothing in it keeps an IF from having no condition. Here is
what the children of every kind of node are in a tree that stands for a program. A node has a text
exactly if it is a program, a variable or a constant, a value exactly if it is a constant, a key
exactly if it is a variable, and only FOR loops count down.

Shape is a matter of the whole tree and not of the lines on which its nodes start.

* `MiniPascal.Shaped`: the node has the shape of its kind, and may play the given role.
* `MiniPascal.Node.onLine`: the tree with all nodes on one line.
* `MiniPascal.Shaped.of_onLine_eq`: trees that differ only in lines have the same shape.
* `MiniPascal.Shaped.exists_name`: a variable in such a tree is bound to a name that it mentions.
-/

namespace MiniPascal

namespace Node

/-! ### Operators -/

/-- The operators between two operands. -/
def Kind.isBinary : Kind → Bool
  | add | subtract | multiply | divide | intDivide | equal | unequal | less | greater | atMost
  | atLeast | .and | .or => true
  | _ => false

/-- An operator has no name of its own. -/
theorem Kind.nameless_of_isBinary {kind : Kind} (h : kind.isBinary = true) :
    kind ≠ .var ∧ kind ≠ .program ∧ kind ≠ .assign := by
  refine ⟨?_, ?_, ?_⟩ <;> rintro rfl <;> cases h

/-! ### Lines -/

mutual

/-- The tree with all nodes on the given line. -/
def onLine (line : Int) : Node → Node
  | ⟨kind, _, text, value, slot, descending, children⟩ =>
    ⟨kind, line, text, value, slot, descending, onLineAll line children⟩

/-- The trees with all nodes on the given line. -/
def onLineAll (line : Int) : List Node → List Node
  | [] => []
  | n :: ns => onLine line n :: onLineAll line ns

end

theorem onLineAll_eq_map (line : Int) (ns : List Node) : onLineAll line ns = ns.map (onLine line) := by
  induction ns with
  | nil => rfl
  | cons n ns ih => rw [onLineAll, ih, List.map_cons]

section Fields

variable (line : Int) (n : Node)

@[simp] theorem onLine_kind : (n.onLine line).kind = n.kind := by cases n; rfl

@[simp] theorem onLine_line : (n.onLine line).line = line := by cases n; rfl

@[simp] theorem onLine_text : (n.onLine line).text = n.text := by cases n; rfl

@[simp] theorem onLine_value : (n.onLine line).value = n.value := by cases n; rfl

@[simp] theorem onLine_slot : (n.onLine line).slot = n.slot := by cases n; rfl

@[simp] theorem onLine_descending : (n.onLine line).descending = n.descending := by cases n; rfl

@[simp] theorem onLine_children : (n.onLine line).children = n.children.map (onLine line) := by
  cases n
  exact onLineAll_eq_map line _

theorem onLine_eq :
    n.onLine line = { n with line, children := n.children.map (onLine line) } := by
  cases n
  rw [onLine, onLineAll_eq_map]

end Fields

/-- Trees that differ only in lines have the same fields, and their children differ only in lines. -/
theorem fields_of_onLine_eq {line : Int} {n m : Node} (h : n.onLine line = m.onLine line) :
    n = { m with line := n.line, children := n.children } ∧
      n.children.map (onLine line) = m.children.map (onLine line) := by
  have hkind := congrArg kind h
  have htext := congrArg text h
  have hvalue := congrArg value h
  have hslot := congrArg slot h
  have hdescending := congrArg descending h
  have hchildren := congrArg children h
  simp only [onLine_kind, onLine_text, onLine_value, onLine_slot, onLine_descending,
    onLine_children] at hkind htext hvalue hslot hdescending hchildren
  refine ⟨?_, hchildren⟩
  cases n
  cases m
  simp_all

/-- Putting a tree on a line twice is the same as once. -/
@[simp] theorem onLine_onLine (line line' : Int) (n : Node) :
    (n.onLine line').onLine line = n.onLine line := by
  induction n using tree_induction with
  | h n ih =>
    obtain ⟨kind, k, text, value, slot, descending, children⟩ := n
    simp only [onLine, onLineAll_eq_map, List.map_map, mk.injEq, true_and]
    exact List.map_congr_left ih

end Node

/-! ### Shapes -/

/-- What a node can be in a tree. -/
inductive Role
  | variable
  | integer
  | constant
  /-- A variable or a constant. -/
  | leaf
  | expression
  | assignment
  | test
  | statement
  | labels
  | branch
  | program

/-- The name of a WRITE or WRITELN statement, whatever the case of its letters. -/
def IsWriteName (name : Text) : Prop :=
  Text.lowercase name = "write" ∨ Text.lowercase name = "writeln"

/-- **The shape of nodes.** Children are given in order, and all fields that are not given are
empty. An assignment is a statement unless it would be taken for a WRITE statement; the header of a
FOR loop has any assignment. -/
inductive Shaped : Role → Node → Prop
  | var (line : Int) (name : Text) :
    Shaped .variable
      { kind := .var, line, text := .text name, slot := some (SymbolTable.key name) }
  | integer (line : Int) (text : Text) (n : Int) :
    Shaped .integer { kind := .integerConstant, line, text := .text text, value := .int n }
  | number {n : Node} : Shaped .integer n → Shaped .constant n
  | real (line : Int) (text : Text) (x : Binary64) :
    Shaped .constant { kind := .realConstant, line, text := .text text, value := .real x }
  | string (line : Int) (text s : Text) :
    Shaped .constant { kind := .stringConstant, line, text := .text text, value := .text s }
  | ofVariable {n : Node} : Shaped .variable n → Shaped .leaf n
  | ofConstant {n : Node} : Shaped .constant n → Shaped .leaf n
  | ofLeaf {n : Node} : Shaped .leaf n → Shaped .expression n
  | not (line : Int) {e : Node} : Shaped .expression e →
    Shaped .expression { kind := .not, line, children := [e] }
  | binary (line : Int) {kind : Node.Kind} {l r : Node} : kind.isBinary = true →
    Shaped .expression l → Shaped .expression r →
    Shaped .expression { kind, line, children := [l, r] }
  | assign (line : Int) {v e : Node} : Shaped .variable v → Shaped .expression e →
    Shaped .assignment { kind := .assign, line, children := [v, e] }
  | assignment {n v e : Node} : Shaped .assignment n → n.children = [v, e] →
    (∀ name, v.text = .text name → ¬IsWriteName name) → Shaped .statement n
  | compound (line : Int) {ns : List Node} : (∀ n ∈ ns, Shaped .statement n) →
    Shaped .statement { kind := .compound, line, children := ns }
  | conditional (line : Int) {c s : Node} : Shaped .expression c → Shaped .statement s →
    Shaped .statement { kind := .conditional, line, children := [c, s] }
  | alternative (line : Int) {c s e : Node} : Shaped .expression c → Shaped .statement s →
    Shaped .statement e → Shaped .statement { kind := .conditional, line, children := [c, s, e] }
  | whileLoop (line : Int) {c s : Node} : Shaped .expression c → Shaped .statement s →
    Shaped .statement { kind := .whileLoop, line, children := [c, s] }
  | forLoop (line : Int) (descending : Bool) {a l s : Node} : Shaped .assignment a →
    Shaped .expression l → Shaped .statement s →
    Shaped .statement { kind := .forLoop, line, descending, children := [a, l, s] }
  | test (line : Int) {c : Node} : Shaped .expression c →
    Shaped .test { kind := .test, line, children := [c] }
  | loop (line : Int) {ns : List Node} {t : Node} : (∀ n ∈ ns, Shaped .statement n) →
    Shaped .test t → Shaped .statement { kind := .loop, line, children := ns ++ [t] }
  | select (line : Int) {e : Node} {ns : List Node} : Shaped .expression e →
    (∀ n ∈ ns, Shaped .branch n) →
    Shaped .statement { kind := .select, line, children := e :: ns }
  | labels (line : Int) {ns : List Node} : ns ≠ [] → (∀ n ∈ ns, Shaped .constant n) →
    Shaped .labels { kind := .selectConstants, line, children := ns }
  | branch (line : Int) {l s : Node} : Shaped .labels l → Shaped .statement s →
    Shaped .branch { kind := .selectBranch, line, children := [l, s] }
  | write (line : Int) {kind : Node.Kind} {n : Node} {ns : List Node} :
    kind = .write ∨ kind = .writeln → Shaped .leaf n → (∀ m ∈ ns, Shaped .integer m) →
    ns.length ≤ 2 → Shaped .statement { kind, line, children := n :: ns }
  | writeln (line : Int) : Shaped .statement { kind := .writeln, line }
  | program (line line' : Int) (name : Text) {ns : List Node} : (∀ n ∈ ns, Shaped .statement n) →
    Shaped .program
      { kind := .program, line, text := .text name,
        children := [{ kind := .compound, line := line', children := ns }] }

open Node

section Lines

variable {line : Int} {n m m₁ m₂ m₃ : Node} {ns ms : List Node}

/-- A list of trees that differs from another only in lines. -/
theorem forall_of_map_onLine_eq {p : Node → Prop} (h : ns.map (onLine line) = ms.map (onLine line))
    (hp : ∀ m ∈ ms, ∀ ⦃n : Node⦄, n.onLine line = m.onLine line → p n) : ∀ n ∈ ns, p n := by
  induction ns generalizing ms with
  | nil => simp
  | cons n ns ih =>
    cases ms with
    | nil => cases h
    | cons m ms =>
      obtain ⟨hn, hns⟩ := List.cons.inj h
      have htail := ih hns fun m' hm' => hp m' (List.mem_cons_of_mem m hm')
      simpa using ⟨hp m List.mem_cons_self hn, htail⟩

theorem children_of_onLine_one (h : ns.map (onLine line) = [m].map (onLine line)) :
    ∃ n, ns = [n] ∧ n.onLine line = m.onLine line := by
  obtain ⟨n, ns', rfl, hn, hns'⟩ := List.map_eq_cons_iff.1 h
  obtain rfl := List.map_eq_nil_iff.1 hns'
  exact ⟨n, rfl, hn⟩

theorem children_of_onLine_cons (h : ns.map (onLine line) = (m :: ms).map (onLine line)) :
    ∃ n ns', ns = n :: ns' ∧ n.onLine line = m.onLine line ∧
      ns'.map (onLine line) = ms.map (onLine line) := by
  obtain ⟨n, ns', rfl, hn, hns'⟩ := List.map_eq_cons_iff.1 h
  exact ⟨n, ns', rfl, hn, hns'⟩

theorem children_of_onLine_two (h : ns.map (onLine line) = [m₁, m₂].map (onLine line)) :
    ∃ n₁ n₂, ns = [n₁, n₂] ∧ n₁.onLine line = m₁.onLine line ∧ n₂.onLine line = m₂.onLine line := by
  obtain ⟨n₁, ns', rfl, h₁, h'⟩ := children_of_onLine_cons h
  obtain ⟨n₂, rfl, h₂⟩ := children_of_onLine_one h'
  exact ⟨n₁, n₂, rfl, h₁, h₂⟩

theorem children_of_onLine_three (h : ns.map (onLine line) = [m₁, m₂, m₃].map (onLine line)) :
    ∃ n₁ n₂ n₃, ns = [n₁, n₂, n₃] ∧ n₁.onLine line = m₁.onLine line ∧
      n₂.onLine line = m₂.onLine line ∧ n₃.onLine line = m₃.onLine line := by
  obtain ⟨n₁, ns', rfl, h₁, h'⟩ := children_of_onLine_cons h
  obtain ⟨n₂, n₃, rfl, h₂, h₃⟩ := children_of_onLine_two h'
  exact ⟨n₁, n₂, n₃, rfl, h₁, h₂, h₃⟩

/-- **Trees that differ only in lines have the same shape.** -/
theorem Shaped.of_onLine_eq {role : Role} (h : Shaped role m)
    (heq : n.onLine line = m.onLine line) : Shaped role n := by
  -- in every case `n` is rebuilt from the fields of `m`, its own line and its own children
  induction h generalizing n with
  | var _ name =>
    obtain ⟨hn, hc⟩ := fields_of_onLine_eq heq
    rw [hn, List.map_eq_nil_iff.1 hc]
    exact .var _ name
  | integer _ text k =>
    obtain ⟨hn, hc⟩ := fields_of_onLine_eq heq
    rw [hn, List.map_eq_nil_iff.1 hc]
    exact .integer _ text k
  | number _ ih => exact .number (ih heq)
  | real _ text x =>
    obtain ⟨hn, hc⟩ := fields_of_onLine_eq heq
    rw [hn, List.map_eq_nil_iff.1 hc]
    exact .real _ text x
  | string _ text s =>
    obtain ⟨hn, hc⟩ := fields_of_onLine_eq heq
    rw [hn, List.map_eq_nil_iff.1 hc]
    exact .string _ text s
  | ofVariable _ ih => exact .ofVariable (ih heq)
  | ofConstant _ ih => exact .ofConstant (ih heq)
  | ofLeaf _ ih => exact .ofLeaf (ih heq)
  | not _ _ ih =>
    obtain ⟨hn, hc⟩ := fields_of_onLine_eq heq
    obtain ⟨e, he, h⟩ := children_of_onLine_one hc
    rw [hn, he]
    exact .not _ (ih h)
  | binary _ hk _ _ ihl ihr =>
    obtain ⟨hn, hc⟩ := fields_of_onLine_eq heq
    obtain ⟨l, r, he, hl, hr⟩ := children_of_onLine_two hc
    rw [hn, he]
    exact .binary _ hk (ihl hl) (ihr hr)
  | assign _ _ _ ihv ihe =>
    obtain ⟨hn, hc⟩ := fields_of_onLine_eq heq
    obtain ⟨v, e, hcs, hv, he⟩ := children_of_onLine_two hc
    rw [hn, hcs]
    exact .assign _ (ihv hv) (ihe he)
  | assignment _ hvs hname ih =>
    obtain ⟨-, hc⟩ := fields_of_onLine_eq heq
    rw [hvs] at hc
    obtain ⟨v, e, hcs, hv, -⟩ := children_of_onLine_two hc
    refine .assignment (ih heq) hcs fun name htext => hname name ?_
    have hv := congrArg Node.text hv
    simpa [htext] using hv.symm
  | compound _ _ ih =>
    obtain ⟨hn, hc⟩ := fields_of_onLine_eq heq
    rw [hn]
    exact .compound _ (forall_of_map_onLine_eq hc ih)
  | conditional _ _ _ ihc ihs =>
    obtain ⟨hn, hc⟩ := fields_of_onLine_eq heq
    obtain ⟨c, s, hcs, h₁, h₂⟩ := children_of_onLine_two hc
    rw [hn, hcs]
    exact .conditional _ (ihc h₁) (ihs h₂)
  | alternative _ _ _ _ ihc ihs ihe =>
    obtain ⟨hn, hc⟩ := fields_of_onLine_eq heq
    obtain ⟨c, s, e, hcs, h₁, h₂, h₃⟩ := children_of_onLine_three hc
    rw [hn, hcs]
    exact .alternative _ (ihc h₁) (ihs h₂) (ihe h₃)
  | whileLoop _ _ _ ihc ihs =>
    obtain ⟨hn, hc⟩ := fields_of_onLine_eq heq
    obtain ⟨c, s, hcs, h₁, h₂⟩ := children_of_onLine_two hc
    rw [hn, hcs]
    exact .whileLoop _ (ihc h₁) (ihs h₂)
  | forLoop _ descending _ _ _ iha ihl ihs =>
    obtain ⟨hn, hc⟩ := fields_of_onLine_eq heq
    obtain ⟨a, l, s, hcs, h₁, h₂, h₃⟩ := children_of_onLine_three hc
    rw [hn, hcs]
    exact .forLoop _ descending (iha h₁) (ihl h₂) (ihs h₃)
  | test _ _ ih =>
    obtain ⟨hn, hc⟩ := fields_of_onLine_eq heq
    obtain ⟨c, hcs, h⟩ := children_of_onLine_one hc
    rw [hn, hcs]
    exact .test _ (ih h)
  | loop _ _ _ ihs iht =>
    obtain ⟨hn, hc⟩ := fields_of_onLine_eq heq
    rw [List.map_append] at hc
    obtain ⟨ns', ts, hcs, hns, hts⟩ := List.map_eq_append_iff.1 hc
    obtain ⟨t, rfl, ht⟩ := children_of_onLine_one hts
    rw [hn, hcs]
    exact .loop _ (forall_of_map_onLine_eq hns ihs) (iht ht)
  | select _ _ _ ihe ihs =>
    obtain ⟨hn, hc⟩ := fields_of_onLine_eq heq
    obtain ⟨e, ns', hcs, he, hns⟩ := children_of_onLine_cons hc
    rw [hn, hcs]
    exact .select _ (ihe he) (forall_of_map_onLine_eq hns ihs)
  | labels _ hne _ ih =>
    obtain ⟨hn, hc⟩ := fields_of_onLine_eq heq
    rw [hn]
    refine .labels _ (fun he => hne ?_) (forall_of_map_onLine_eq hc ih)
    simpa [he] using hc.symm
  | branch _ _ _ ihl ihs =>
    obtain ⟨hn, hc⟩ := fields_of_onLine_eq heq
    obtain ⟨l, s, hcs, hl, hs⟩ := children_of_onLine_two hc
    rw [hn, hcs]
    exact .branch _ (ihl hl) (ihs hs)
  | write _ hk _ _ hlen ihn ihs =>
    obtain ⟨hn, hc⟩ := fields_of_onLine_eq heq
    obtain ⟨a, ns', hcs, ha, hns⟩ := children_of_onLine_cons hc
    rw [hn, hcs]
    refine .write _ hk (ihn ha) (forall_of_map_onLine_eq hns ihs) ?_
    have hlength := congrArg List.length hns
    simp only [List.length_map] at hlength
    omega
  | writeln =>
    obtain ⟨hn, hc⟩ := fields_of_onLine_eq heq
    rw [hn, List.map_eq_nil_iff.1 hc]
    exact .writeln _
  | program _ _ name _ ihs =>
    obtain ⟨hn, hc⟩ := fields_of_onLine_eq heq
    obtain ⟨b, hcs, hb⟩ := children_of_onLine_one hc
    obtain ⟨hb', hc'⟩ := fields_of_onLine_eq hb
    rw [hn, hcs, hb']
    exact .program _ _ name (forall_of_map_onLine_eq hc' ihs)

/-- The names in a tree do not depend on lines. -/
@[simp] theorem mentions_onLine (line : Int) (n : Node) :
    (n.onLine line).mentions = n.mentions := by
  induction n using tree_induction with
  | h n ih =>
    have hall : ∀ ns : List Node, (∀ m ∈ ns, m ∈ n.children) →
        mentionsAll (ns.map (onLine line)) = mentionsAll ns := by
      intro ns hns
      induction ns with
      | nil => rfl
      | cons m ns ihns =>
        rw [List.map_cons, mentionsAll_cons, mentionsAll_cons, ih m (hns m (by simp)),
          ihns fun m' hm' => hns m' (by simp [hm'])]
    by_cases hv : n.kind = .var
    · obtain ⟨kind, k, text, value, slot, descending, children⟩ := n
      obtain rfl : kind = .var := hv
      have hchildren := hall children fun _ => id
      cases text <;> simp [mentions, onLine, onLineAll_eq_map, hchildren]
    by_cases hp : n.kind = .program
    · obtain ⟨kind, k, text, value, slot, descending, children⟩ := n
      obtain rfl : kind = .program := hp
      have hchildren := hall children fun _ => id
      cases text <;> simp [mentions, onLine, onLineAll_eq_map, hchildren]
    by_cases ha : n.kind = .assign
    · cases hc : n.children with
      | nil =>
        obtain ⟨kind, k, text, value, slot, descending, children⟩ := n
        obtain rfl : kind = .assign := ha
        obtain rfl : children = [] := hc
        rfl
      | cons v ns =>
        have hns := hall ns fun m hm => by simp [hc, hm]
        rw [mentions_assign (by simpa using ha) (by rw [onLine_children, hc, List.map_cons]),
          mentions_assign ha hc, onLine_text, hns, ih v (by simp [hc])]
    rw [mentions_of_kind (by simpa using hv) (by simpa using hp) (by simpa using ha),
      mentions_of_kind hv hp ha, onLine_children]
    exact hall n.children fun _ => id

end Lines

/-! ### The names of variables -/

section Names

variable {role : Role} {n m : Node} {name : Text}

/-- The name is declared or used in the tree. -/
def Node.Names (n : Node) (name : Text) : Prop :=
  .declares name ∈ n.mentions ∨ .uses name ∈ n.mentions

theorem mem_mentionsAll {ns : List Node} {mention : Mention} (hn : n ∈ ns)
    (h : mention ∈ n.mentions) : mention ∈ mentionsAll ns := by
  induction ns with
  | nil => cases hn
  | cons n' ns ih =>
    rw [mentionsAll_cons, List.mem_append]
    rcases List.mem_cons.1 hn with rfl | hn
    · exact .inl h
    · exact .inr (ih hn)

theorem names_of_kind (hv : n.kind ≠ .var) (hp : n.kind ≠ .program) (ha : n.kind ≠ .assign)
    (hm : m ∈ n.children) (h : m.Names name) : n.Names name := by
  rw [Names, mentions_of_kind hv hp ha]
  exact h.imp (mem_mentionsAll hm) (mem_mentionsAll hm)

theorem Shaped.mentions_variable (h : Shaped .variable n) :
    ∃ name, n.text = .text name ∧ n.slot = some (SymbolTable.key name) ∧
      n.mentions = [.uses name] := by
  cases h with
  | var _ name => exact ⟨name, rfl, rfl, rfl⟩

/-- A node mentions the names of its children. -/
theorem Shaped.names_of_child (h : Shaped role n) (hm : m ∈ n.children) (hn : m.Names name) :
    n.Names name := by
  induction h with
  | var | integer | real | string | writeln => cases hm
  | number _ ih | ofVariable _ ih | ofConstant _ ih | ofLeaf _ ih | assignment _ _ _ ih => exact ih hm
  | binary _ hk =>
    obtain ⟨hv, hp, ha⟩ := Kind.nameless_of_isBinary hk
    exact names_of_kind hv hp ha hm hn
  | write _ hk =>
    refine names_of_kind ?_ ?_ ?_ hm hn <;> rintro rfl <;> simp at hk
  | @assign line v e hv =>
    obtain ⟨target, htext, -, hmentions⟩ := hv.mentions_variable
    have heq := mentions_assign (n := { kind := .assign, line, children := [v, e] }) rfl rfl
    rw [Names, heq, htext]
    -- the target is used as a node of its own, and declared as a part of the assignment
    rcases List.mem_cons.1 hm with rfl | hm
    · refine .inl (List.mem_cons.2 (.inl ?_))
      simpa [Names, hmentions] using hn
    · refine hn.imp ?_ ?_ <;>
      · intro h
        exact List.mem_cons_of_mem _ (mem_mentionsAll hm h)
  | program _ _ title =>
    rw [Names, mentions_program]
    exact hn.imp (fun h => List.mem_cons_of_mem _ (mem_mentionsAll hm h))
      (fun h => List.mem_cons_of_mem _ (mem_mentionsAll hm h))
  | _ => exact names_of_kind (by simp) (by simp) (by simp) hm hn

/-- The children of a node of the right shape have the right shape. -/
theorem Shaped.exists_role_child (h : Shaped role n) (hm : m ∈ n.children) :
    ∃ role', Shaped role' m := by
  induction h with
  | var | integer | real | string | writeln => cases hm
  | number _ ih | ofVariable _ ih | ofConstant _ ih | ofLeaf _ ih | assignment _ _ _ ih => exact ih hm
  | not _ he | test _ he => exact ⟨_, List.mem_singleton.1 hm ▸ he⟩
  | binary _ _ hl hr | assign _ hl hr | conditional _ hl hr | whileLoop _ hl hr | branch _ hl hr =>
    rcases List.mem_cons.1 hm with rfl | hm
    · exact ⟨_, hl⟩
    · exact ⟨_, List.mem_singleton.1 hm ▸ hr⟩
  | alternative _ hc hs he | forLoop _ _ hc hs he =>
    rcases List.mem_cons.1 hm with rfl | hm
    · exact ⟨_, hc⟩
    rcases List.mem_cons.1 hm with rfl | hm
    · exact ⟨_, hs⟩
    · exact ⟨_, List.mem_singleton.1 hm ▸ he⟩
  | compound _ hs => exact ⟨_, hs m hm⟩
  | labels _ _ hs => exact ⟨_, hs m hm⟩
  | loop _ hs ht =>
    rcases List.mem_append.1 hm with hm | hm
    · exact ⟨_, hs m hm⟩
    · exact ⟨_, List.mem_singleton.1 hm ▸ ht⟩
  | select _ he hs =>
    rcases List.mem_cons.1 hm with rfl | hm
    · exact ⟨_, he⟩
    · exact ⟨_, hs m hm⟩
  | write _ _ he hs =>
    rcases List.mem_cons.1 hm with rfl | hm
    · exact ⟨_, he⟩
    · exact ⟨_, hs m hm⟩
  | program _ _ _ hs => exact ⟨.statement, List.mem_singleton.1 hm ▸ .compound _ hs⟩

theorem Shaped.name_of_slot {key : Text} (h : Shaped role n) (hs : n.slot = some key) :
    ∃ name, key = SymbolTable.key name ∧ n.Names name := by
  induction h with
  | var _ name =>
    obtain rfl : SymbolTable.key name = key := by simpa using hs
    exact ⟨name, rfl, .inr (List.mem_singleton.2 rfl)⟩
  | number _ ih | ofVariable _ ih | ofConstant _ ih | ofLeaf _ ih | assignment _ _ _ ih => exact ih hs
  | _ => cases hs

/-- **A variable is bound to the key of a name that the tree mentions.** -/
theorem Shaped.exists_name {key : Text} (h : Shaped role n) (hm : n.HasNode m)
    (hs : m.slot = some key) : ∃ name, key = SymbolTable.key name ∧ n.Names name := by
  induction n using tree_induction generalizing role with
  | h n ih =>
    rcases hm.eq_or_child with rfl | ⟨c, hc, hm⟩
    · exact h.name_of_slot hs
    · obtain ⟨role', hc'⟩ := h.exists_role_child hc
      obtain ⟨name, rfl, hname⟩ := ih c hc hc' hm
      exact ⟨name, rfl, h.names_of_child hc hname⟩

end Names

end MiniPascal

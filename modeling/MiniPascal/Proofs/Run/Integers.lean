import MiniPascal.Proofs.Run.Loops
import MiniPascal.Proofs.Value.Quotient

/-!
# Integer expressions

An expression of integer constants, variables that hold integers, and the operators `+`, `-`, `*` and
`DIV` means an integer, which may be of any size, unless it divides by zero somewhere. What it means is
said here without running it, by a relation that follows the tree. A node that divides by zero means
nothing, and so does every node above it.

Visiting the expression gives what it means. If there are several divisions by zero, the run fails with
the line of the first one in **post-order**, in which a node stands behind its children: the operands of
a node are visited from left to right, and only then is it applied.

* `MiniPascal.Node.IsIntegral`: the integer expressions, given what the variables hold.
* `MiniPascal.Node.Means`: what they mean.
* `MiniPascal.Node.DividesByZero`: the divisions by zero.
* `MiniPascal.Run.Settles`: what a visit gives with any fuel from some amount on.
* `MiniPascal.integer_expressions_exact`: visiting an integer expression.
-/

namespace MiniPascal

/-! ### Post-order -/

namespace Node

mutual

/-- The nodes of a tree in post-order. -/
def postorder : Node → List Node
  | ⟨kind, line, text, value, slot, descending, children⟩ =>
    postorderAll children ++ [⟨kind, line, text, value, slot, descending, children⟩]

/-- The nodes of some trees in post-order. -/
def postorderAll : List Node → List Node
  | [] => []
  | n :: ns => postorder n ++ postorderAll ns

end

theorem postorder_of_nil {n : Node} (hc : n.children = []) : n.postorder = [n] := by
  cases n
  cases hc
  rfl

theorem postorder_of_pair {n l r : Node} (hc : n.children = [l, r]) :
    n.postorder = l.postorder ++ r.postorder ++ [n] := by
  cases n
  cases hc
  simp [postorder, postorderAll]

/-! ### What an expression means -/

/-- The operator that a kind of node applies to two integers. -/
def Kind.integerOp? : Kind → Option ArithmeticOp
  | add => some .add
  | subtract => some .subtract
  | multiply => some .multiply
  | intDivide => some .intDivide
  | _ => none

end Node

/-- What an operator makes of two integers; there is no quotient by zero. -/
inductive ArithmeticOp.Combines : ArithmeticOp → Int → Int → Int → Prop
  | add (a b : Int) : Combines .add a b (a + b)
  | subtract (a b : Int) : Combines .subtract a b (a - b)
  | multiply (a b : Int) : Combines .multiply a b (a * b)
  | intDivide {a b q : Int} : Value.Truncates a b q → Combines .intDivide a b q

namespace Node

variable (table : SymbolTable)

/-- **An integer expression**: constants and variables that hold integers, and operators on two such
expressions. -/
inductive IsIntegral : Node → Prop
  | constant {n : Node} {k : Int} : n.kind = .integerConstant → n.children = [] →
    n.value.toInteger = .ok k → IsIntegral n
  | var {n : Node} {key : Text} {k : Int} : n.kind = .var → n.children = [] →
    n.slot = some key → table.get? key = some (.value (.integer k)) → IsIntegral n
  | operation {n l r : Node} {op : ArithmeticOp} : n.kind.integerOp? = some op →
    n.children = [l, r] → IsIntegral l → IsIntegral r → IsIntegral n

/-- **What an integer expression means.** -/
inductive Means : Node → Int → Prop
  | constant {n : Node} {k : Int} : n.kind = .integerConstant → n.value.toInteger = .ok k → Means n k
  | var {n : Node} {key : Text} {k : Int} : n.kind = .var → n.slot = some key →
    table.get? key = some (.value (.integer k)) → Means n k
  | operation {n l r : Node} {op : ArithmeticOp} {a b k : Int} : n.kind.integerOp? = some op →
    n.children = [l, r] → Means l a → Means r b → op.Combines a b k → Means n k

/-- **The node divides by zero**: it is a whole division, and its right operand means zero. -/
def DividesByZero (n : Node) : Prop :=
  n.kind = .intDivide ∧ ∃ l r, n.children = [l, r] ∧ r.Means table 0

/-- Of the nodes in a row, the given one is the first that divides by zero. -/
def FirstDivision (nodes : List Node) (n : Node) : Prop :=
  ∃ before after, nodes = before ++ n :: after ∧ (∀ n' ∈ before, ¬n'.DividesByZero table) ∧
    n.DividesByZero table

end Node

/-! ### Meanings are unique -/

namespace ArithmeticOp

variable {op : ArithmeticOp} {a b k k' : Int}

theorem Combines.unique (h : op.Combines a b k) (h' : op.Combines a b k') : k' = k := by
  cases h with
  | intDivide hq =>
    cases h' with
    | intDivide hq' => exact hq'.unique hq
  | _ =>
    cases h'
    rfl

/-- What two integers combine to is what the operator gives. -/
theorem Combines.integerArithmetic_eq (h : op.Combines a b k) (line : Int) :
    Value.integerArithmetic line op a b = .ok (.integer k) := by
  cases h with
  | intDivide hq =>
    rw [Value.integerArithmetic, if_neg hq.ne_zero,
      hq.unique (Value.truncates_truncatedQuotient a hq.ne_zero)]
  | _ => rfl

/-- Two integers combine to something, or a division by zero is asked for. -/
theorem exists_combines {kind : Node.Kind} (h : kind.integerOp? = some op) (a b : Int) :
    (∃ k, op.Combines a b k) ∨ kind = .intDivide ∧ op = .intDivide ∧ b = 0 := by
  unfold Node.Kind.integerOp? at h
  split at h
  · cases h
    exact .inl ⟨_, .add a b⟩
  · cases h
    exact .inl ⟨_, .subtract a b⟩
  · cases h
    exact .inl ⟨_, .multiply a b⟩
  · cases h
    by_cases hb : b = 0
    · exact .inr ⟨rfl, rfl, hb⟩
    · exact .inl ⟨_, .intDivide (Value.truncates_truncatedQuotient a hb)⟩
  · cases h

end ArithmeticOp

namespace Node

variable {table : SymbolTable} {n l r : Node} {k k' : Int}

/-- **An expression means one integer at most.** -/
theorem Means.unique (h : n.Means table k) (h' : n.Means table k') : k' = k := by
  induction h generalizing k' with
  | constant hk hv =>
    cases h' with
    | constant _ hv' => exact Except.ok.inj (hv'.symm.trans hv)
    | var hk' => cases hk.symm.trans hk'
    | operation hop =>
      rw [hk] at hop
      cases hop
  | var hk hs hy =>
    cases h' with
    | constant hk' => cases hk.symm.trans hk'
    | var _ hs' hy' =>
      cases hs.symm.trans hs'
      cases hy.symm.trans hy'
      rfl
    | operation hop =>
      rw [hk] at hop
      cases hop
  | operation hop hc _ _ hcombines ihl ihr =>
    cases h' with
    | constant hk' =>
      rw [hk'] at hop
      cases hop
    | var hk' =>
      rw [hk'] at hop
      cases hop
    | operation hop' hc' hl hr hcombines' =>
      cases hop.symm.trans hop'
      cases hc.symm.trans hc'
      cases ihl hl
      cases ihr hr
      exact hcombines.unique hcombines'

/-! ### Divisions by zero -/

section FirstDivision

variable {nodes others : List Node} {n' : Node}

theorem FirstDivision.append (h : FirstDivision table nodes n) (others : List Node) :
    FirstDivision table (nodes ++ others) n := by
  obtain ⟨before, after, rfl, hbefore, hn⟩ := h
  exact ⟨before, after ++ others, by simp, hbefore, hn⟩

theorem FirstDivision.behind (hothers : ∀ n' ∈ others, ¬n'.DividesByZero table)
    (h : FirstDivision table nodes n) : FirstDivision table (others ++ nodes) n := by
  obtain ⟨before, after, rfl, hbefore, hn⟩ := h
  exact ⟨others ++ before, after, by simp, List.forall_mem_append.2 ⟨hothers, hbefore⟩, hn⟩

theorem FirstDivision.unique (h : FirstDivision table nodes n)
    (h' : FirstDivision table nodes n') : n' = n := by
  classical
  have found {n : Node} (h : FirstDivision table nodes n) :
      nodes.find? (fun n => n.DividesByZero table) = some n := by
    obtain ⟨before, after, hsplit, hbefore, hn⟩ := h
    exact List.find?_eq_some_iff_append.2
      ⟨by simpa using hn, before, after, hsplit, by simpa using hbefore⟩
  exact Option.some.inj ((found h').symm.trans (found h))

end FirstDivision

/-- Only a node with two children divides by zero. -/
theorem not_dividesByZero_of_nil (hc : n.children = []) : ¬n.DividesByZero table := by
  rintro ⟨-, l, r, hc', -⟩
  cases hc.symm.trans hc'

/-- A node that means something does not divide by zero. -/
theorem Means.not_dividesByZero (h : n.Means table k) : ¬n.DividesByZero table := by
  rintro ⟨hk, l, r, hc, hr⟩
  cases h with
  | constant hk' => cases hk.symm.trans hk'
  | var hk' => cases hk.symm.trans hk'
  | operation hop hc' _ hr' hcombines =>
    rw [hk] at hop
    cases hop
    cases hc.symm.trans hc'
    cases hr.unique hr'
    cases hcombines with
    | intDivide hq => exact hq.ne_zero rfl

end Node

/-! ### Visits of operations -/

namespace Run

open Node

/-- **What visiting an expression comes to**, with any fuel from some amount on. -/
def Settles (level : Int) (m : Machine) (e : Node) (r : EStateM.Result Stop Machine Yield) : Prop :=
  ∃ least, ∀ fuel, least ≤ fuel → visit level fuel e m = r

variable {level : Int} {m : Machine} {n l r : Node} {op : ArithmeticOp} {a b : Value}

theorem visit_operation (hop : n.kind.integerOp? = some op) (level : Int) (fuel : Nat) :
    visit level (fuel + 1) n = arithmetic (visit level fuel) op n := by
  rw [visit, visitNode]
  unfold Node.Kind.integerOp? at hop
  split at hop <;> cases hop
  all_goals
    rename_i hk
    rw [hk]

section Operation

variable (hop : n.kind.integerOp? = some op) (hc : n.children = [l, r])
include hop hc

/-- An operation whose left operand fails does so, too. -/
theorem Settles.of_left {stop : Stop} (hl : Settles level m l (.error stop m)) :
    Settles level m n (.error stop m) := by
  obtain ⟨least, hl⟩ := hl
  refine ⟨least + 1, fun fuel hfuel => ?_⟩
  obtain ⟨fuel, rfl⟩ := Nat.exists_eq_add_of_le' (Nat.le_of_add_left_le hfuel)
  rw [visit_operation hop, arithmetic_eq hc, bind_of_error (hl fuel (by omega))]

/-- An operation whose right operand fails does so, too, if the left one does not. -/
theorem Settles.of_right {stop : Stop} (hl : Settles level m l (.ok (.value a) m))
    (hr : Settles level m r (.error stop m)) : Settles level m n (.error stop m) := by
  obtain ⟨least, hl⟩ := hl
  obtain ⟨least', hr⟩ := hr
  refine ⟨max least least' + 1, fun fuel hfuel => ?_⟩
  obtain ⟨fuel, rfl⟩ := Nat.exists_eq_add_of_le' (Nat.le_of_add_left_le hfuel)
  rw [visit_operation hop, arithmetic_eq hc, bind_of_ok (hl fuel (by omega)),
    bind_of_error (hr fuel (by omega))]

/-- An operation whose operands have values applies the operator to them. -/
theorem Settles.of_operands (hl : Settles level m l (.ok (.value a) m))
    (hr : Settles level m r (.ok (.value b) m)) :
    Settles level m n
      ((do return .value (← ofExcept (Value.arithmetic n.line op a b)) : Run Yield) m) := by
  obtain ⟨least, hl⟩ := hl
  obtain ⟨least', hr⟩ := hr
  refine ⟨max least least' + 1, fun fuel hfuel => ?_⟩
  obtain ⟨fuel, rfl⟩ := Nat.exists_eq_add_of_le' (Nat.le_of_add_left_le hfuel)
  rw [visit_operation hop, arithmetic_eq hc, bind_of_ok (hl fuel (by omega)),
    bind_of_ok (hr fuel (by omega)), bothValues_value, pure_bind]

end Operation

/-! ### Visits of expressions -/

/-- What visiting an integer expression comes to, and why. -/
theorem exists_settles {e : Node} (he : e.IsIntegral m.table) (level : Int) :
    (∃ k, e.Means m.table k ∧ (∀ n ∈ e.postorder, ¬n.DividesByZero m.table) ∧
      Settles level m e (.ok (.value (.integer k)) m)) ∨
    ∃ n, FirstDivision m.table e.postorder n ∧
      Settles level m e (.error (.fault (.program n.line .divisionByZero)) m) := by
  induction he with
  | @constant e k hk hc hv =>
    refine .inl ⟨k, .constant hk hv, ?_, 1, fun fuel hfuel => ?_⟩
    · simpa [postorder_of_nil hc] using not_dividesByZero_of_nil hc
    · obtain ⟨fuel, rfl⟩ := Nat.exists_eq_add_of_le' hfuel
      rw [visit, visitNode, hk]
      dsimp only
      rw [integerConstant, hv]
      rfl
  | @var e key k hk hc hs hy =>
    refine .inl ⟨k, .var hk hs hy, ?_, 1, fun fuel hfuel => ?_⟩
    · simpa [postorder_of_nil hc] using not_dividesByZero_of_nil hc
    · obtain ⟨fuel, rfl⟩ := Nat.exists_eq_add_of_le' hfuel
      exact visit_var hk hs hy rfl level fuel
  | @operation e l r op hop hc _ _ ihl ihr =>
    rw [postorder_of_pair hc]
    -- the left operand comes first, then the right one, then the operation itself
    rcases ihl with ⟨a, hla, hlnone, hl⟩ | ⟨n, hn, hl⟩
    · rcases ihr with ⟨b, hrb, hrnone, hr⟩ | ⟨n, hn, hr⟩
      · have hnone : ∀ n ∈ l.postorder ++ r.postorder, ¬n.DividesByZero m.table :=
          List.forall_mem_append.2 ⟨hlnone, hrnone⟩
        have hvisit := hl.of_operands hop hc hr
        rcases ArithmeticOp.exists_combines hop a b with ⟨k, hk⟩ | ⟨hkind, rfl, rfl⟩
        · have hmeans : e.Means m.table k := .operation hop hc hla hrb hk
          refine .inl ⟨k, hmeans, ?_, ?_⟩
          · exact List.forall_mem_append.2 ⟨hnone, by simpa using hmeans.not_dividesByZero⟩
          · have hvalue : Value.arithmetic e.line op (.integer a) (.integer b) = .ok (.integer k) :=
              hk.integerArithmetic_eq e.line
            rwa [hvalue] at hvisit
        · refine .inr ⟨e, ⟨_, [], rfl, hnone, hkind, l, r, hc, hrb⟩, hvisit⟩
      · exact .inr ⟨n, (hn.behind hlnone).append [e], hl.of_right hop hc hr⟩
    · exact .inr ⟨n, (hn.append r.postorder).append [e], hl.of_left hop hc⟩

end Run

/-- **Integer expressions are exact.** If no node divides by zero, visiting the expression gives the one
integer that it means. Otherwise it fails with the line of the first node in post-order that does. -/
theorem integer_expressions_exact {m : Machine} {e : Node} (he : e.IsIntegral m.table) (level : Int) :
    ((∀ n ∈ e.postorder, ¬n.DividesByZero m.table) →
      ∃ k, (∀ k', e.Means m.table k' ↔ k' = k) ∧
        Run.Settles level m e (.ok (.value (.integer k)) m)) ∧
    ∀ n, Node.FirstDivision m.table e.postorder n →
      Run.Settles level m e (.error (.fault (.program n.line .divisionByZero)) m) := by
  rcases Run.exists_settles he level with ⟨k, hk, hnone, hvisit⟩ | ⟨n, hn, hvisit⟩
  · refine ⟨fun _ => ⟨k, fun k' => ⟨hk.unique, fun h => h ▸ hk⟩, hvisit⟩, ?_⟩
    rintro n ⟨before, after, hsplit, -, hn⟩
    exact absurd hn (hnone n (by simp [hsplit]))
  · refine ⟨fun hnone => ?_, fun n' hn' => hn.unique hn' ▸ hvisit⟩
    obtain ⟨before, after, hsplit, -, hzero⟩ := hn
    exact absurd hzero (hnone n (by simp [hsplit]))

/-- A quotient of a positive and a negative integer, and a sum of two divisions by zero: the one on the
left fails, though it stands further down. -/
theorem integer_expressions_exact_signs :
    let m : Machine := ⟨⟨[("x", .value (.integer 7))]⟩, #[], #[]⟩
    let x : Node := { kind := .var, line := 1, text := .text "x", slot := some "x" }
    let divided (line divisor : Int) : Node :=
      { kind := .intDivide, line,
        children := [x, { kind := .integerConstant, line := 1, value := .int divisor }] }
    let sum : Node := { kind := .add, line := 1, children := [divided 3 0, divided 2 0] }
    (divided 1 (-2)).IsIntegral m.table ∧ sum.IsIntegral m.table ∧
      Run.Settles 0 m (divided 1 (-2)) (.ok (.value (.integer (-3))) m) ∧
      Run.Settles 0 m sum (.error (.fault (.program 3 .divisionByZero)) m) := by
  intro m x divided sum
  have hx : m.table.get? "x" = some (.value (.integer 7)) := by
    simp [m, SymbolTable.get?, SymbolTable.find?]
  have hintegral (line k : Int) : (divided line k).IsIntegral m.table :=
    .operation rfl rfl (.var rfl rfl rfl hx) (.constant rfl rfl rfl)
  have hsum : sum.IsIntegral m.table := .operation rfl rfl (hintegral 3 0) (hintegral 2 0)
  have hmeans : (divided 1 (-2)).Means m.table (-3) :=
    .operation rfl rfl (.var rfl rfl hx) (.constant rfl rfl) (.intDivide ⟨1, by decide⟩)
  have hzero (line : Int) : (divided line 0).DividesByZero m.table :=
    ⟨rfl, _, _, rfl, .constant rfl rfl⟩
  refine ⟨hintegral 1 (-2), hsum, ?_, ?_⟩
  · have hnone : ∀ n ∈ (divided 1 (-2)).postorder, ¬n.DividesByZero m.table := by
      rw [Node.postorder_of_pair rfl, Node.postorder_of_nil rfl, Node.postorder_of_nil rfl]
      simp only [List.cons_append, List.nil_append, List.forall_mem_cons]
      exact ⟨Node.not_dividesByZero_of_nil rfl, Node.not_dividesByZero_of_nil rfl,
        hmeans.not_dividesByZero, by simp⟩
    obtain ⟨k, hk, hvisit⟩ := (integer_expressions_exact (hintegral 1 (-2)) 0).1 hnone
    exact ((hk (-3)).1 hmeans) ▸ hvisit
  · refine (integer_expressions_exact hsum 0).2 (divided 3 0)
      ⟨[x, { kind := .integerConstant, line := 1, value := .int 0 }], _, rfl, ?_, hzero 3⟩
    simp only [List.forall_mem_cons]
    exact ⟨Node.not_dividesByZero_of_nil rfl, Node.not_dividesByZero_of_nil rfl, by simp⟩

end MiniPascal

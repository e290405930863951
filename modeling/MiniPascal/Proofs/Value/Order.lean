import Mathlib.Algebra.Group.Int.Defs
import MiniPascal.Proofs.Binary64.Integer
import MiniPascal.Value.Operator

/-!
# The order of values

Integers are ordered by their size, texts lexicographically by their code points, and the false truth
value stands before the true one. On two values of one of these kinds the six relational operators tell
of **one standing** of the values: the first one is before the second, it is the same, or it is behind.
Hence the operators have the laws of a total order, although equality and order are computed separately.

Reals have a NaN, which stands nowhere. Between values of any kinds, the operators keep what their
failures promise: nothing but the order of two values of different kinds is a mistake of the program.

* `MiniPascal.Value.Precedes`: the order of two values of one kind.
* `MiniPascal.Value.compare_of_ranked`: the six operators tell of one standing.
* `MiniPascal.Value.Ordered`: the laws of a total order.
* `MiniPascal.Value.Compared`: which operators fail, and how.
* `MiniPascal.Value.relations_coherent`: the operators have these laws.
-/

namespace MiniPascal

/-! ### Lexicographic order -/

namespace Text

/-- **The lexicographic order of texts** by the numbers of their code points. -/
def Before (s t : Text) : Prop := s.map CodePoint.toNat < t.map CodePoint.toNat

theorem compare_eq_lt_iff (s t : Text) : compare s t = .lt ↔ Before s t := by
  unfold Before
  induction s generalizing t with
  | nil => cases t <;> simp [compare]
  | cons a s ih =>
    cases t with
    | nil => simp [compare]
    | cons b t =>
      rw [compare, List.map_cons, List.map_cons, List.cons_lt_cons_iff, ← ih]
      rcases Nat.lt_trichotomy a.toNat b.toNat with h | h | h
      · simp [h]
      · simp [h]
      · have hne : a.toNat ≠ b.toNat := Nat.ne_of_gt h
        simp [h, hne, Nat.lt_asymm h]

/-- The order of two texts the other way round. -/
theorem compare_swap (s t : Text) : (compare s t).swap = compare t s := by
  induction s generalizing t with
  | nil => cases t <;> rfl
  | cons a s ih =>
    cases t with
    | nil => rfl
    | cons b t =>
      rw [compare, compare]
      rcases Nat.lt_trichotomy a.toNat b.toNat with h | h | h
      · simp [h, Nat.lt_asymm h]
      · simp [h, ih]
      · simp [h, Nat.lt_asymm h]

theorem compare_eq_gt_iff (s t : Text) : compare s t = .gt ↔ Before t s := by
  rw [← compare_eq_lt_iff, ← compare_swap s t]
  cases compare s t <;> decide

end Text

/-! ### The operators -/

namespace RelationalOp

/-- Whether an operator holds of two values of which one is before the other, the same, or behind. -/
def accepts : RelationalOp → Ordering → Bool
  | equal, o => o == .eq
  | unequal, o => o != .eq
  | less, o => o == .lt
  | greater, o => o == .gt
  | atMost, o => o == .lt || o == .eq
  | atLeast, o => o == .gt || o == .eq
  | other _, _ => false

/-- The operators of the language. -/
def all : List RelationalOp := [equal, unequal, less, greater, atMost, atLeast]

/-- The operators that ask whether two values are the same. -/
def equalities : List RelationalOp := [equal, unequal]

/-- The operators that ask for an order. -/
def orderings : List RelationalOp := [less, greater, atMost, atLeast]

/-- The operators that tell how two values stand. -/
def standings : List RelationalOp := [less, equal, greater]

theorem of_mem_orderings {op : RelationalOp} (h : op ∈ orderings) :
    op = less ∨ op = greater ∨ op = atMost ∨ op = atLeast := by
  simpa [orderings] using h

end RelationalOp

namespace Value

/-! ### Values of one kind -/

/-- **One value stands before another one** of its kind. -/
def Precedes : Value → Value → Prop
  | integer m, integer n => m < n
  | text s, text t => s.Before t
  | boolean b, boolean c => b = false ∧ c = true
  | _, _ => False

/-- Two integers, two texts or two truth values: the values that are in one line. -/
inductive Ranked : Value → Value → Prop
  | integers (m n : Int) : Ranked (integer m) (integer n)
  | texts (s t : Text) : Ranked (text s) (text t)
  | booleans (b c : Bool) : Ranked (boolean b) (boolean c)

variable {a b c : Value} {line : Int}

theorem Ranked.of_kind (h : a.kind = b.kind) (hreal : a.kind ≠ .real) : Ranked a b := by
  cases a <;> cases b <;> cases h
  · exact .integers ..
  · exact absurd rfl hreal
  · exact .booleans ..
  · exact .texts ..

theorem Ranked.symm (h : Ranked a b) : Ranked b a := by
  cases h <;> constructor

theorem Ranked.trans (h : Ranked a b) (h' : Ranked b c) : Ranked a c := by
  cases h <;> cases h' <;> constructor

theorem Precedes.ranked (h : Precedes a b) : Ranked a b := by
  cases a <;> cases b <;> first | constructor | cases h

theorem Precedes.trans (h : Precedes a b) (h' : Precedes b c) : Precedes a c := by
  have hab : Ranked a b := h.ranked
  have hbc : Ranked b c := h'.ranked
  cases hab with
  | integers m n =>
    cases hbc with
    | integers _ k => exact Int.lt_trans h h'
  | texts s t =>
    cases hbc with
    | texts _ u => exact List.lt_trans h h'
  | booleans p q =>
    cases hbc with
    | booleans _ r => exact ⟨h.1, h'.2⟩

/-! ### One standing -/

/-- The standing of two values of one kind: before, the same, or behind. -/
def standing : Value → Value → Ordering
  | integer m, integer n => Ord.compare m n
  | text s, text t => s.compare t
  | boolean b, boolean c => compareBool b c
  | _, _ => .eq

theorem compareBool_eq_eq_iff (b c : Bool) : compareBool b c = .eq ↔ b = c := by
  cases b <;> cases c <;> decide

theorem standing_eq_lt_iff (h : Ranked a b) : standing a b = .lt ↔ Precedes a b := by
  cases h with
  | integers m n => exact Int.compare_eq_lt
  | texts s t => exact Text.compare_eq_lt_iff s t
  | booleans b c => cases b <;> cases c <;> simp [standing, compareBool, Precedes]

theorem standing_eq_gt_iff (h : Ranked a b) : standing a b = .gt ↔ Precedes b a := by
  cases h with
  | integers m n => exact Int.compare_eq_gt
  | texts s t => exact Text.compare_eq_gt_iff s t
  | booleans b c => cases b <;> cases c <;> simp [standing, compareBool, Precedes]

theorem standing_eq_eq_iff (h : Ranked a b) : standing a b = .eq ↔ a = b := by
  cases h with
  | integers m n => exact Int.compare_eq_eq.trans (integer.injEq m n).symm.to_iff
  | texts s t => exact (Text.compare_eq_iff s t).trans (text.injEq s t).symm.to_iff
  | booleans b c => exact (compareBool_eq_eq_iff b c).trans (boolean.injEq b c).symm.to_iff

/-- Equality is a standing like the others, though it is computed on its own. -/
theorem equals_of_ranked (h : Ranked a b) : equals a b = .ok (standing a b == .eq) := by
  cases h with
  | integers m n =>
    have hiff : (m == n) = true ↔ (Ord.compare m n == .eq) = true := by
      rw [beq_iff_eq, beq_iff_eq, Int.compare_eq_eq]
    exact congrArg Except.ok (Bool.eq_iff_iff.2 hiff)
  | texts s t =>
    have hiff : (s == t) = true ↔ (s.compare t == .eq) = true := by
      rw [beq_iff_eq, beq_iff_eq, Text.compare_eq_iff]
    exact congrArg Except.ok (Bool.eq_iff_iff.2 hiff)
  | booleans b c => cases b <;> cases c <;> rfl

theorem order?_of_ranked (h : Ranked a b) : order? line a b = .ok (some (standing a b)) := by
  cases h <;> rfl


/-- The operator has the outcome true. -/
def Holds (line : Int) (op : RelationalOp) (a b : Value) : Prop :=
  compare line op a b = .ok (boolean true)

/-- **The operators tell of one standing** of two values of one kind. -/
theorem compare_of_ranked (h : Ranked a b) {op : RelationalOp} (hop : op ∈ RelationalOp.all) :
    compare line op a b = .ok (boolean (op.accepts (standing a b))) := by
  simp only [RelationalOp.all, List.mem_cons, List.not_mem_nil, or_false] at hop
  rcases hop with rfl | rfl | rfl | rfl | rfl | rfl <;>
    simp only [compare, relation, equals_of_ranked h, order?_of_ranked h] <;> rfl

theorem holds_iff (h : Ranked a b) {op : RelationalOp} (hop : op ∈ RelationalOp.all) :
    Holds line op a b ↔ op.accepts (standing a b) = true := by
  rw [Holds, compare_of_ranked h hop, Except.ok.injEq, boolean.injEq]

theorem holds_less (h : Ranked a b) : Holds line .less a b ↔ Precedes a b := by
  rw [holds_iff h (by decide), ← standing_eq_lt_iff h]
  exact beq_iff_eq

theorem holds_greater (h : Ranked a b) : Holds line .greater a b ↔ Precedes b a := by
  rw [holds_iff h (by decide), ← standing_eq_gt_iff h]
  exact beq_iff_eq

theorem holds_equal (h : Ranked a b) : Holds line .equal a b ↔ a = b := by
  rw [holds_iff h (by decide), ← standing_eq_eq_iff h]
  exact beq_iff_eq

/-! ### A total order -/

/-- **The laws of a total order** for three values of one kind, on a line of a program. -/
structure Ordered (line : Int) (a b c : Value) : Prop where
  /-- Every operator has an outcome. -/
  decided (op : RelationalOp) (hop : op ∈ RelationalOp.all) :
    ∃ o, compare line op a b = .ok (boolean o)
  /-- Less is the order of integers, the lexicographic order of texts, or false before true. -/
  less_iff : Holds line .less a b ↔ Precedes a b
  equal_iff : Holds line .equal a b ↔ a = b
  /-- Exactly one of less, equal and greater holds. -/
  trichotomy : ∃ op ∈ RelationalOp.standings, Holds line op a b ∧
    ∀ op' ∈ RelationalOp.standings, Holds line op' a b → op' = op
  atMost_iff : Holds line .atMost a b ↔ ¬Holds line .greater a b
  atLeast_iff : Holds line .atLeast a b ↔ ¬Holds line .less a b
  converse : Holds line .less a b ↔ Holds line .greater b a
  less_trans : Holds line .less a b → Holds line .less b c → Holds line .less a c
  equal_refl : Holds line .equal a a
  equal_symm : Holds line .equal a b → Holds line .equal b a
  equal_trans : Holds line .equal a b → Holds line .equal b c → Holds line .equal a c

/-- Each standing is told by one operator, and by no other one. -/
theorem exists_standing (o : Ordering) :
    ∃ op ∈ RelationalOp.standings, op.accepts o = true ∧
      ∀ op' ∈ RelationalOp.standings, op'.accepts o = true → op' = op := by
  cases o with
  | lt => exact ⟨.less, by decide, rfl, by decide⟩
  | eq => exact ⟨.equal, by decide, rfl, by decide⟩
  | gt => exact ⟨.greater, by decide, rfl, by decide⟩

theorem standings_subset {op : RelationalOp} (h : op ∈ RelationalOp.standings) :
    op ∈ RelationalOp.all := by
  revert op
  decide

theorem ordered_of_ranked (hab : Ranked a b) (hbc : Ranked b c) : Ordered line a b c where
  decided op hop := ⟨_, compare_of_ranked hab hop⟩
  less_iff := holds_less hab
  equal_iff := holds_equal hab
  trichotomy := by
    obtain ⟨op, hop, hholds, huniq⟩ := exists_standing (standing a b)
    refine ⟨op, hop, (holds_iff hab (standings_subset hop)).2 hholds, fun op' hop' h => ?_⟩
    exact huniq op' hop' ((holds_iff hab (standings_subset hop')).1 h)
  atMost_iff := by
    rw [holds_iff hab (by decide), holds_iff hab (by decide)]
    cases standing a b <;> decide
  atLeast_iff := by
    rw [holds_iff hab (by decide), holds_iff hab (by decide)]
    cases standing a b <;> decide
  converse := by rw [holds_less hab, holds_greater hab.symm]
  less_trans h h' := by
    rw [holds_less (hab.trans hbc)]
    exact ((holds_less hab).1 h).trans ((holds_less hbc).1 h')
  equal_refl := (holds_equal (hab.trans hab.symm)).2 rfl
  equal_symm h := (holds_equal hab.symm).2 ((holds_equal hab).1 h).symm
  equal_trans h h' := by
    rw [holds_equal (hab.trans hbc)]
    exact ((holds_equal hab).1 h).trans ((holds_equal hbc).1 h')

/-! ### Values of any kinds -/

/-- **An integer beside a real is too large** to become a real. -/
inductive Overflows : Value → Value → Prop
  | left {n : Int} {x : Binary64} :
    Binary64.leastTooLarge ≤ n.natAbs → Overflows (integer n) (real x)
  | right {n : Int} {x : Binary64} :
    Binary64.leastTooLarge ≤ n.natAbs → Overflows (real x) (integer n)

/-- Two values have an order if they are of one kind, or numbers. -/
def Comparable (a b : Value) : Prop :=
  a.kind = b.kind ∨ a.isNumeric = true ∧ b.isNumeric = true

theorem realOfInt_eq_error {n : Int} (h : Binary64.leastTooLarge ≤ n.natAbs) :
    realOfInt n = .error (.number .tooLarge) :=
  if_pos ((Binary64.isInfinite_ofInt_iff n).2 h)

theorem realOfInt_eq_ok {n : Int} (h : ¬Binary64.leastTooLarge ≤ n.natAbs) :
    realOfInt n = .ok (Binary64.ofInt n) :=
  if_neg fun hinf => h ((Binary64.isInfinite_ofInt_iff n).1 hinf)

theorem equals_of_overflows (h : Overflows a b) : equals a b = .error (.number .tooLarge) := by
  cases h with
  | left h => rw [equals, realOfInt_eq_error h, Except.map]
  | right h => rw [equals, realOfInt_eq_error h, Except.map]

theorem order?_of_overflows (h : Overflows a b) :
    order? line a b = .error (.number .tooLarge) := by
  cases h with
  | left h => rw [order?, realOfInt_eq_error h, Except.map]
  | right h => rw [order?, realOfInt_eq_error h, Except.map]

theorem equals_of_not_overflows (h : ¬Overflows a b) : ∃ o, equals a b = .ok o := by
  cases a <;> cases b <;> try exact ⟨_, rfl⟩
  case integer.real n x =>
    rw [equals, realOfInt_eq_ok fun hn => h (.left hn)]
    exact ⟨_, rfl⟩
  case real.integer x n =>
    rw [equals, realOfInt_eq_ok fun hn => h (.right hn)]
    exact ⟨_, rfl⟩

theorem order?_of_comparable (h : Comparable a b) (ho : ¬Overflows a b) :
    ∃ o, order? line a b = .ok o := by
  cases a <;> cases b <;> try exact ⟨_, rfl⟩
  case integer.real n x =>
    rw [order?, realOfInt_eq_ok fun hn => ho (.left hn)]
    exact ⟨_, rfl⟩
  case real.integer x n =>
    rw [order?, realOfInt_eq_ok fun hn => ho (.right hn)]
    exact ⟨_, rfl⟩
  all_goals simp [Comparable, kind, isNumeric] at h

theorem order?_of_not_comparable (h : ¬Comparable a b) :
    order? line a b = .error (.program line (.incomparable a.kind b.kind)) := by
  cases a <;> cases b <;> first | rfl | simp [Comparable, kind, isNumeric] at h

/-- An ordering operator has an outcome for every order. -/
theorem orderHolds_orderings {op : RelationalOp} (hop : op ∈ RelationalOp.orderings)
    (o : Option Ordering) : ∃ r, orderHolds line op o = .ok r := by
  rcases RelationalOp.of_mem_orderings hop with rfl | rfl | rfl | rfl <;> exact ⟨_, rfl⟩

theorem compare_orderings {op : RelationalOp} (hop : op ∈ RelationalOp.orderings) :
    compare line op a b = (order? line a b >>= orderHolds line op).map boolean := by
  rcases RelationalOp.of_mem_orderings hop with rfl | rfl | rfl | rfl <;> rfl

/-- **What the operators do with two values of any kinds**, on a line of a program. -/
structure Compared (line : Int) (a b : Value) : Prop where
  /-- Unequal is the negation of equal. -/
  negation (h : ¬Overflows a b) : ∃ o, compare line .equal a b = .ok (boolean o) ∧
    compare line .unequal a b = .ok (boolean !o)
  overflow (h : Overflows a b) : compare line .equal a b = .error (.number .tooLarge) ∧
    compare line .unequal a b = .error (.number .tooLarge)
  /-- To ask whether two values are the same is no mistake. -/
  harmless (op : RelationalOp) (hop : op ∈ RelationalOp.equalities) (l : Int) (cause : Cause) :
    compare line op a b ≠ .error (.program l cause)
  /-- To ask for an order is one exactly if there is none. -/
  mistake_iff (op : RelationalOp) (hop : op ∈ RelationalOp.orderings) :
    (∃ l cause, compare line op a b = .error (.program l cause)) ↔
      a.kind ≠ b.kind ∧ ¬(a.isNumeric = true ∧ b.isNumeric = true)
  complaint (op : RelationalOp) (hop : op ∈ RelationalOp.orderings) (h : ¬Comparable a b) :
    compare line op a b = .error (.program line (.incomparable a.kind b.kind))

theorem compare_equalities (line : Int) (a b : Value) :
    Overflows a b ∧ compare line .equal a b = .error (.number .tooLarge) ∧
        compare line .unequal a b = .error (.number .tooLarge) ∨
      ¬Overflows a b ∧ ∃ o, compare line .equal a b = .ok (boolean o) ∧
        compare line .unequal a b = .ok (boolean !o) := by
  by_cases h : Overflows a b
  · have he := equals_of_overflows h
    exact .inl ⟨h, by rw [compare, relation, he]; rfl, by rw [compare, relation, he]; rfl⟩
  · obtain ⟨o, he⟩ := equals_of_not_overflows h
    exact .inr ⟨h, o, by rw [compare, relation, he]; rfl, by rw [compare, relation, he]; rfl⟩

theorem compare_of_comparable (h : Comparable a b) {op : RelationalOp}
    (hop : op ∈ RelationalOp.orderings) (l : Int) (cause : Cause) :
    compare line op a b ≠ .error (.program l cause) := by
  rw [compare_orderings hop]
  by_cases ho : Overflows a b
  · rw [order?_of_overflows ho]
    exact fun h => by cases h
  · obtain ⟨o, horder⟩ : ∃ o, order? line a b = .ok o := order?_of_comparable h ho
    obtain ⟨r, hr⟩ : ∃ r, orderHolds line op o = .ok r := orderHolds_orderings hop o
    have hok : (order? line a b >>= orderHolds line op) = .ok r := by
      rw [horder]
      exact hr
    rw [hok]
    exact fun h => by cases h

theorem compare_of_not_comparable (h : ¬Comparable a b) {op : RelationalOp}
    (hop : op ∈ RelationalOp.orderings) :
    compare line op a b = .error (.program line (.incomparable a.kind b.kind)) := by
  rw [compare_orderings hop, order?_of_not_comparable h]
  rfl

theorem compared (line : Int) (a b : Value) : Compared line a b where
  negation h := by
    rcases compare_equalities line a b with ⟨ho, -⟩ | ⟨-, hout⟩
    · exact absurd ho h
    · exact hout
  overflow h := by
    rcases compare_equalities line a b with ⟨-, hout⟩ | ⟨ho, -⟩
    · exact hout
    · exact absurd h ho
  harmless op hop l cause h := by
    simp only [RelationalOp.equalities, List.mem_cons, List.not_mem_nil, or_false] at hop
    rcases compare_equalities line a b with ⟨-, heq, hne⟩ | ⟨-, o, heq, hne⟩ <;>
      rcases hop with rfl | rfl
    · cases heq.symm.trans h
    · cases hne.symm.trans h
    · cases heq.symm.trans h
    · cases hne.symm.trans h
  mistake_iff op hop := by
    rw [← not_or]
    refine ⟨fun ⟨l, cause, h⟩ hc => compare_of_comparable hc hop l cause h, fun hc => ?_⟩
    exact ⟨_, _, compare_of_not_comparable hc hop⟩
  complaint op hop h := compare_of_not_comparable h hop

/-- **The relational operators are coherent**: they have the laws of a total order on three integers, three
texts and three truth values, and on values of any kinds they agree on what is the same and on what has
no order. -/
theorem relations_coherent (line : Int) (a b c : Value) :
    Compared line a b ∧
      (a.kind = b.kind → b.kind = c.kind → a.kind ≠ .real → Ordered line a b c) := by
  refine ⟨compared line a b, fun hab hbc hreal => ?_⟩
  exact ordered_of_ranked (.of_kind hab hreal) (.of_kind hbc (hab ▸ hreal))

/-- Three texts, of which the first is a part of the second, an integer that is too large for the real
beside it, and a text beside a truth value. -/
theorem relations_coherent_samples :
    Ordered 7 (text (Text.ofString "a")) (text (Text.ofString "ab")) (text (Text.ofString "b")) ∧
      compare 7 .unequal (integer (2 ^ 1024)) (real (.zero false)) = .error (.number .tooLarge) ∧
      compare 7 .less (text []) (boolean true) =
        .error (.program 7 (.incomparable .text .boolean)) :=
  ⟨(relations_coherent 7 _ _ _).2 rfl rfl (by decide),
    ((relations_coherent 7 _ _ (integer 0)).1.overflow (.left (by decide +kernel))).2,
    (relations_coherent 7 _ _ (integer 0)).1.complaint .less (by decide)
      (by simp [Comparable, kind, isNumeric])⟩

end Value

end MiniPascal

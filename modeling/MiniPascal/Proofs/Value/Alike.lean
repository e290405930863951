import MiniPascal.Proofs.Alike
import MiniPascal.Value.Operator

/-!
# Operators on alike lines

An operator is told the line on which it is used for one purpose only: to name it when it fails. Used
on an alike line it gives the same value, or it fails for the same reason.

* `MiniPascal.AlikeResult`: the same result, or alike faults.
* `MiniPascal.Value.arithmetic_alike`, `MiniPascal.Value.compare_alike`: the operators.
-/

namespace MiniPascal

/-- The same result of an operation, or alike faults. -/
inductive AlikeResult (A : Likeness) {α : Type} : Except Fault α → Except Fault α → Prop
  | ok (a : α) : AlikeResult A (.ok a) (.ok a)
  | error {f f' : Fault} : f.Alike A f' → AlikeResult A (.error f) (.error f')

namespace AlikeResult

variable {A : Likeness} {α β : Type} {e e' : Except Fault α}

theorem refl (e : Except Fault α) : AlikeResult A e e := by
  cases e with
  | ok a => exact .ok a
  | error f => exact .error (.refl f)

theorem bind {g g' : α → Except Fault β} (h : AlikeResult A e e')
    (hg : ∀ a, AlikeResult A (g a) (g' a)) : AlikeResult A (e >>= g) (e' >>= g') := by
  cases h with
  | ok a => exact hg a
  | error h => exact .error h

theorem map (g : α → β) (h : AlikeResult A e e') : AlikeResult A (e.map g) (e'.map g) := by
  cases h with
  | ok a => exact .ok (g a)
  | error h => exact .error h

/-- A cause of the program on alike lines. -/
theorem program {line line' : Int} (h : A.line line line') (cause : Cause) :
    AlikeResult A (.error (.program line cause) : Except Fault α) (.error (.program line' cause)) :=
  .error (.program h (.refl cause))

end AlikeResult

namespace Value

variable {A : Likeness} {line line' : Int}

theorem promote_alike (h : A.line line line') (a b : Value) :
    AlikeResult A (promote line a b) (promote line' a b) := by
  unfold promote
  split
  · exact .refl _
  · exact .refl _
  · exact .refl _
  · exact .refl _
  · exact .program h _

theorem integerArithmetic_alike (h : A.line line line') (op : ArithmeticOp) (m n : Int) :
    AlikeResult A (integerArithmetic line op m n) (integerArithmetic line' op m n) := by
  cases op with
  | add | subtract | multiply => exact .refl _
  | divide =>
    simp only [integerArithmetic, quotient]
    split
    · exact .program h _
    · exact .refl _
  | intDivide =>
    simp only [integerArithmetic]
    split
    · exact .program h _
    · exact .refl _
  | other symbol => exact .program h _

theorem realArithmetic_alike (h : A.line line line') (op : ArithmeticOp) (x y : Binary64) :
    AlikeResult A (realArithmetic line op x y) (realArithmetic line' op x y) := by
  cases op with
  | add | subtract | multiply => exact .refl _
  | divide =>
    simp only [realArithmetic]
    split
    · exact .program h _
    · exact .refl _
  | intDivide | other symbol => exact .program h _

/-- **Arithmetic on alike lines.** -/
theorem arithmetic_alike (h : A.line line line') (op : ArithmeticOp) (a b : Value) :
    AlikeResult A (arithmetic line op a b) (arithmetic line' op a b) := by
  refine (promote_alike h a b).bind fun pair => ?_
  cases pair with
  | integers m n => exact integerArithmetic_alike h op m n
  | reals x y => exact realArithmetic_alike h op x y

theorem order?_alike (h : A.line line line') (a b : Value) :
    AlikeResult A (order? line a b) (order? line' a b) := by
  unfold order?
  split
  case h_7 => exact .program h _
  all_goals exact .refl _

theorem orderHolds_alike (h : A.line line line') (op : RelationalOp) (o : Option Ordering) :
    AlikeResult A (orderHolds line op o) (orderHolds line' op o) := by
  cases op with
  | other symbol => exact .program h _
  | _ => exact .refl _

theorem relation_alike (h : A.line line line') (op : RelationalOp) (a b : Value) :
    AlikeResult A (relation line op a b) (relation line' op a b) := by
  have order (op : RelationalOp) : AlikeResult A (do orderHolds line op (← order? line a b))
      (do orderHolds line' op (← order? line' a b)) :=
    (order?_alike h a b).bind fun o => orderHolds_alike h op o
  cases op with
  | equal | unequal => exact .refl _
  | _ => exact order _

/-- **Comparison on alike lines.** -/
theorem compare_alike (h : A.line line line') (op : RelationalOp) (a b : Value) :
    AlikeResult A (compare line op a b) (compare line' op a b) :=
  (relation_alike h op a b).map boolean

end Value

end MiniPascal

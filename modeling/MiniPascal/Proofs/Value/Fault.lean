import MiniPascal.Value.Format
import MiniPascal.Value.Operator

/-!
# How operations on values fail

An operator on two values fails for a cause of the program, which is reported with the line of the
operator, or because a number is too large for a real: an integer beside a real, or the quotient of
two integers. Writing a value fails because of its field width, its decimal places, or its digits.

* `MiniPascal.OperatorFault`: the faults of operators.
* `MiniPascal.FormatFault`: the faults of writing.
-/

namespace MiniPascal

/-- **The faults of an operator** on the given line. -/
inductive OperatorFault (line : Int) : Fault → Prop
  | cause (cause : Cause) : OperatorFault line (.program line cause)
  /-- An integer is beyond the greatest finite real. -/
  | conversion {n : Int} : (Binary64.ofInt n).isInfinite = true →
    OperatorFault line (.number .tooLarge)
  /-- The quotient of two integers is beyond the greatest finite real. -/
  | quotient {m n : Int} : n ≠ 0 → (Binary64.ofQuotient m n).isInfinite = true →
    OperatorFault line (.number .quotientTooLarge)

/-- **The faults of writing** a value with the given field width and decimal places. -/
inductive FormatFault (width places : Datum) : Fault → Prop
  | conversion {n : Int} : (Binary64.ofInt n).isInfinite = true → places ≠ .null →
    FormatFault width places (.number .tooLarge)
  | width {w : Int} : width = .int w → Value.maxWidth < w.natAbs →
    FormatFault width places .widthOutOfRange
  | digits {n : Int} : Numeral.isOverlong n = true → places = .null →
    FormatFault width places (.number .overlong)
  | places {p : Int} : places = .int p → Value.maxPlaces < p →
    FormatFault width places (Value.placesFault p)

/-- What is done with a result does not fail. -/
theorem error_of_map {α β : Type} {e : Except Fault α} {g : α → β} {f : Fault}
    (h : e.map g = .error f) : e = .error f := by
  rcases e with f' | a <;> cases h
  rfl

/-- In a row of two operations one of them fails. -/
theorem error_of_bind {α β : Type} {e : Except Fault α} {g : α → Except Fault β} {f : Fault}
    (h : e >>= g = .error f) : e = .error f ∨ ∃ a, e = .ok a ∧ g a = .error f := by
  rcases e with f' | a
  · cases h
    exact .inl rfl
  · exact .inr ⟨a, rfl, h⟩

namespace Value

variable {line : Int} {f : Fault}

/-! ### Operators -/

theorem error_of_realOfInt {n : Int} (h : realOfInt n = .error f) :
    (Binary64.ofInt n).isInfinite = true ∧ f = .number .tooLarge := by
  unfold realOfInt at h
  dsimp only at h
  split at h
  · cases h
    exact ⟨‹_›, rfl⟩
  · cases h

theorem fault_of_realOfInt {n : Int} (h : realOfInt n = .error f) : OperatorFault line f := by
  obtain ⟨hinf, rfl⟩ := error_of_realOfInt h
  exact .conversion hinf

theorem fault_of_promote {a b : Value} (h : promote line a b = .error f) :
    OperatorFault line f := by
  unfold promote at h
  split at h
  · cases h
  · cases h
  · exact fault_of_realOfInt (error_of_map h)
  · exact fault_of_realOfInt (error_of_map h)
  · cases h
    exact .cause _

theorem fault_of_integerArithmetic {op : ArithmeticOp} {m n : Int}
    (h : integerArithmetic line op m n = .error f) : OperatorFault line f := by
  cases op with
  | add | subtract | multiply => cases h
  | divide =>
    simp only [integerArithmetic, quotient] at h
    by_cases hn : n = 0
    · rw [if_pos hn] at h
      cases h
      exact .cause _
    · rw [if_neg hn] at h
      split at h
      · cases h
        exact .quotient hn ‹_›
      · cases h
  | intDivide =>
    simp only [integerArithmetic] at h
    split at h
    · cases h
      exact .cause _
    · cases h
  | other symbol =>
    cases h
    exact .cause _

theorem fault_of_realArithmetic {op : ArithmeticOp} {x y : Binary64}
    (h : realArithmetic line op x y = .error f) : OperatorFault line f := by
  cases op with
  | add | subtract | multiply => cases h
  | divide =>
    simp only [realArithmetic] at h
    split at h
    · cases h
      exact .cause _
    · cases h
  | intDivide | other symbol =>
    cases h
    exact .cause _

/-- **Arithmetic fails for a cause on its line, or a number is too large.** -/
theorem fault_of_arithmetic {op : ArithmeticOp} {a b : Value}
    (h : arithmetic line op a b = .error f) : OperatorFault line f := by
  rcases error_of_bind h with hp | ⟨m | x, -, h⟩
  · exact fault_of_promote hp
  · exact fault_of_integerArithmetic h
  · exact fault_of_realArithmetic h

/-- Comparing for equality fails only if an integer beside a real is too large. -/
theorem error_of_equals {a b : Value} (h : a.equals b = .error f) :
    ∃ n : Int, (Binary64.ofInt n).isInfinite = true ∧ f = .number .tooLarge := by
  unfold equals at h
  split at h
  · cases h
  · cases h
  · cases h
  · cases h
  · exact ⟨_, error_of_realOfInt (error_of_map h)⟩
  · exact ⟨_, error_of_realOfInt (error_of_map h)⟩
  · cases h

theorem fault_of_equals {a b : Value} (h : a.equals b = .error f) : OperatorFault line f := by
  obtain ⟨n, hn, rfl⟩ := error_of_equals h
  exact .conversion hn

theorem fault_of_order? {a b : Value} (h : order? line a b = .error f) :
    OperatorFault line f := by
  unfold order? at h
  split at h
  · cases h
  · cases h
  · cases h
  · cases h
  · exact fault_of_realOfInt (error_of_map h)
  · exact fault_of_realOfInt (error_of_map h)
  · cases h
    exact .cause _

theorem fault_of_orderHolds {op : RelationalOp} {o : Option Ordering}
    (h : orderHolds line op o = .error f) : OperatorFault line f := by
  cases op with
  | other symbol =>
    cases h
    exact .cause _
  | _ => cases h

theorem fault_of_relation {op : RelationalOp} {a b : Value}
    (h : relation line op a b = .error f) : OperatorFault line f := by
  have order (h : (do orderHolds line op (← order? line a b)) = .error f) :
      OperatorFault line f := by
    rcases error_of_bind h with ho | ⟨o, -, h⟩
    · exact fault_of_order? ho
    · exact fault_of_orderHolds h
  cases op with
  | equal => exact fault_of_equals h
  | unequal => exact fault_of_equals (error_of_map h)
  | _ => exact order h

/-- **A comparison fails for a cause on its line, or a number is too large.** -/
theorem fault_of_compare {op : RelationalOp} {a b : Value}
    (h : compare line op a b = .error f) : OperatorFault line f :=
  fault_of_relation (error_of_map h)

/-! ### Writing -/

/-- Nothing or an integer, which is what the nodes of a program give for width and places. -/
def IsFormatDatum (d : Datum) : Prop := d = .null ∨ ∃ n, d = .int n

theorem fault_of_plainText {v : Value} {width : Datum} (h : plainText v = .error f) :
    FormatFault width .null f := by
  cases v with
  | integer n =>
    simp only [plainText, toText?, Numeral.write?] at h
    by_cases hn : Numeral.isOverlong n = true
    · rw [if_pos hn] at h
      cases h
      exact .digits hn rfl
    · rw [if_neg hn] at h
      cases h
  | _ => cases h

theorem fault_of_bodyText {v : Value} {width places : Datum} (hp : IsFormatDatum places)
    (h : bodyText v places = .error f) : FormatFault width places f := by
  rcases hp with rfl | ⟨p, rfl⟩
  · simp only [bodyText] at h
    exact fault_of_plainText h
  have fixed {x : Binary64} (h : fixedText x (.int p) = .error f) :
      FormatFault width (.int p) f := by
    simp only [fixedText, decimalPlaces] at h
    split at h
    · obtain rfl := Except.error.inj h
      exact .places rfl ‹_›
    · cases h
  cases v with
  | integer n =>
    simp only [bodyText] at h
    split at h
    · cases h
      exact .conversion ‹_› (by simp)
    · exact fixed h
  | real x => exact fixed h
  | boolean b => cases h
  | text s => cases h

/-- **Writing fails only for its width, its places or its digits.** -/
theorem fault_of_format {v : Value} {width places : Datum} (hw : IsFormatDatum width)
    (hp : IsFormatDatum places) (h : v.format width places = .error f) :
    FormatFault width places f := by
  rcases error_of_bind h with hb | ⟨s, -, h⟩
  · exact fault_of_bodyText hp hb
  rcases error_of_bind h with hwidth | ⟨w, -, ⟨⟩⟩
  rcases hw with rfl | ⟨w, rfl⟩
  · cases hwidth
  · by_cases hlarge : maxWidth < w.natAbs
    · rw [fieldWidth?, if_pos hlarge] at hwidth
      cases hwidth
      exact .width rfl hlarge
    · rw [fieldWidth?, if_neg hlarge] at hwidth
      cases hwidth

end Value

end MiniPascal

import MiniPascal.Value.Operator

/-!
# Whole division

The quotient of two integers, **truncated toward zero**, is the one that leaves a remainder which is
smaller than the divisor and does not lie on the other side of zero from the dividend. This determines
it. How it is computed is another matter: the sizes of the integers are divided, and the quotient of
the sizes gets a sign.

* `MiniPascal.Value.Truncates`: the quotient truncated toward zero, by its remainder.
* `MiniPascal.Value.Truncates.unique`: there is only one.
* `MiniPascal.Value.truncates_truncatedQuotient`: it is what whole division gives.
-/

namespace MiniPascal.Value

/-- **The integer is the quotient of the two, truncated toward zero**: the remainder is smaller than the
divisor, and it is zero or has the sign of the dividend. -/
def Truncates (a b q : Int) : Prop :=
  ∃ r, a = q * b + r ∧ r.natAbs < b.natAbs ∧ (r = 0 ∨ r.sign = a.sign)

variable {a b q q' : Int}

/-- Nothing is divided by zero. -/
theorem Truncates.ne_zero (h : Truncates a b q) : b ≠ 0 := by
  obtain ⟨r, -, hlt, -⟩ := h
  rintro rfl
  exact absurd hlt (Nat.not_lt_zero _)

/-- The remainder is not on the other side of zero from the dividend. -/
theorem remainder_side {r : Int} (h : r = 0 ∨ r.sign = a.sign) :
    0 ≤ a ∧ 0 ≤ r ∨ a < 0 ∧ r ≤ 0 := by
  rcases Int.lt_or_le a 0 with ha | ha
  · refine .inr ⟨ha, ?_⟩
    rcases h with rfl | hsign
    · exact Int.le_refl 0
    · exact Int.sign_nonpos_iff.1 (hsign ▸ Int.sign_nonpos_iff.2 (Int.le_of_lt ha))
  · refine .inl ⟨ha, ?_⟩
    rcases h with rfl | hsign
    · exact Int.le_refl 0
    · exact Int.sign_nonneg_iff.1 (hsign ▸ Int.sign_nonneg_iff.2 ha)

/-- **The truncated quotient is unique**: two remainders are on one side of zero, so that they differ by
less than the divisor, and their difference is a multiple of it. -/
theorem Truncates.unique (h : Truncates a b q) (h' : Truncates a b q') : q = q' := by
  have hb : b ≠ 0 := h.ne_zero
  obtain ⟨r, heq, hlt, hsign⟩ := h
  obtain ⟨r', heq', hlt', hsign'⟩ := h'
  have hmul : (q - q') * b = r' - r := by
    rw [Int.sub_mul]
    omega
  have hnear : (r' - r).natAbs < b.natAbs := by
    rcases remainder_side hsign with ⟨ha, hr⟩ | ⟨ha, hr⟩ <;>
      rcases remainder_side hsign' with ⟨ha', hr'⟩ | ⟨ha', hr'⟩ <;> omega
  have hzero : r' - r = 0 :=
    Int.eq_zero_of_dvd_of_natAbs_lt_natAbs ⟨q - q', by rw [← hmul, Int.mul_comm]⟩ hnear
  rw [hzero, Int.mul_eq_zero] at hmul
  omega

/-- The signs of the quotient and of the divisor leave that of the dividend. -/
theorem signed_mul (a b : Int) (n : Nat) :
    (if 0 ≤ a ↔ 0 ≤ b then (n : Int) else -n) * b =
      if 0 ≤ a then (b.natAbs : Int) * n else -(b.natAbs * n) := by
  by_cases ha : 0 ≤ a <;> by_cases hb : 0 ≤ b
  · rw [if_pos (iff_of_true ha hb), if_pos ha, Int.natAbs_of_nonneg hb, Int.mul_comm]
  · rw [if_neg (by simp [ha, hb]), if_pos ha, Int.ofNat_natAbs_of_nonpos (Int.le_of_not_le hb),
      Int.neg_mul, Int.neg_mul, Int.mul_comm]
  · rw [if_neg (by simp [ha, hb]), if_neg ha, Int.natAbs_of_nonneg hb, Int.neg_mul, Int.mul_comm]
  · rw [if_pos (iff_of_false ha hb), if_neg ha, Int.ofNat_natAbs_of_nonpos (Int.le_of_not_le hb),
      Int.neg_mul, Int.neg_neg, Int.mul_comm]

/-- **Whole division truncates toward zero**, in each of the four cases of signs. -/
theorem truncates_truncatedQuotient (a : Int) (hb : b ≠ 0) :
    Truncates a b (truncatedQuotient a b) := by
  have hlt : a.natAbs % b.natAbs < b.natAbs := Nat.mod_lt _ (Int.natAbs_pos.2 hb)
  have hsize : b.natAbs * (a.natAbs / b.natAbs) + a.natAbs % b.natAbs = a.natAbs :=
    Nat.div_add_mod ..
  have hmul := signed_mul a b (a.natAbs / b.natAbs)
  rw [truncatedQuotient]
  generalize a.natAbs / b.natAbs = n, a.natAbs % b.natAbs = r at *
  have hsize' : (b.natAbs : Int) * n + r = a.natAbs := by exact_mod_cast hsize
  by_cases ha : 0 ≤ a
  · rw [if_pos ha] at hmul
    refine ⟨r, by rw [hmul]; omega, hlt, ?_⟩
    rcases Nat.eq_zero_or_pos r with hr | hr
    · exact .inl (by omega)
    · right
      rw [Int.sign_eq_one_of_pos (by omega), Int.sign_eq_one_of_pos (by omega)]
  · rw [if_neg ha] at hmul
    refine ⟨-r, by rw [hmul]; omega, by simpa using hlt, ?_⟩
    rcases Nat.eq_zero_or_pos r with hr | hr
    · exact .inl (by omega)
    · right
      rw [Int.sign_eq_neg_one_of_neg (by omega), Int.sign_eq_neg_one_of_neg (by omega)]

end MiniPascal.Value

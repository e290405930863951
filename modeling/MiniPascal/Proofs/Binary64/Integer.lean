import Mathlib.Algebra.Group.Nat.Defs
import MiniPascal.Binary64.Shortest

/-!
# Integers as reals

The real nearest to an integer has the binary digits of the integer, as far as 53 of them go. An integer
of at most 53 digits is therefore exact, and so is `2 ^ 53` itself. An integer has no finite real near it
if rounding carries it to `2 ^ 1024`, which is so from halfway between this and the greatest finite
number on.

An exact integer loses nothing when it is written with decimal places, either: its digits come out again,
followed by nothing but zeros.

* `MiniPascal.Binary64.ofRatio_one`: the real nearest to a natural number.
* `MiniPascal.Binary64.leastTooLarge`, `MiniPascal.Binary64.isInfinite_ofInt_iff`: the integers that are
  too large.
* `MiniPascal.Binary64.ofInt_exact`: the integers up to `2 ^ 53` are exact.
* `MiniPascal.Binary64.fixedPlaces_of_exact`: an exact integer with decimal places.
-/

namespace MiniPascal.Binary64

/-! ### Powers and rounding -/

theorem twoTo_natCast (k : Nat) : twoTo k = 2 ^ k := rfl

theorem twoTo_of_nonpos {e : Int} (h : e ≤ 0) : twoTo e = 1 := by
  rw [twoTo, Int.toNat_of_nonpos h]

theorem twoTo_of_eq_succ {e : Int} {k : Nat} (h : e = k + 1) : twoTo e = 2 * 2 ^ k := by
  rw [h, ← Int.natCast_succ, twoTo_natCast, Nat.pow_succ']

theorem tenTo_natCast (k : Nat) : tenTo k = 10 ^ k := rfl

/-- A fraction is rounded to the number that it is nearer to than one half. -/
theorem roundDiv_eq_of_lt {num den m : Nat} (h : 2 * (m * den) < 2 * num + den)
    (h' : 2 * num < 2 * (m * den) + den) : roundDiv num den = m := by
  obtain ⟨hlow, hhigh⟩ := roundDiv_near num den (by omega)
  generalize roundDiv num den = r at *
  have hle : r * den < (m + 1) * den := by
    rw [Nat.add_mul, Nat.one_mul]
    omega
  have hge : m * den < (r + 1) * den := by
    rw [Nat.add_mul, Nat.one_mul]
    omega
  have := Nat.lt_of_mul_lt_mul_right hle
  have := Nat.lt_of_mul_lt_mul_right hge
  omega

/-- Rounding to multiples of `2 * d` carries to `2 ^ 54 * d` from halfway below it on. -/
theorem roundDiv_eq_carry_iff {n d : Nat} (hlt : n < 2 ^ 54 * d) :
    roundDiv n (2 * d) = 2 ^ 53 ↔ 2 ^ 54 * d - d ≤ n := by
  have hd : 0 < d := Nat.pos_of_ne_zero fun h => by simp [h] at hlt
  constructor
  · intro h
    have hnear := (roundDiv_near n (2 * d) (by omega)).1
    rw [h] at hnear
    omega
  · intro h
    rcases Nat.lt_or_eq_of_le h with h | h
    · exact roundDiv_eq_of_lt (by omega) (by omega)
    · -- the middle goes to the even neighbour, which is the greater one
      have hq : n / (2 * d) = 2 ^ 53 - 1 := Nat.div_eq_of_lt_le (by omega) (by omega)
      have hr : n % (2 * d) = d := by
        rw [Nat.mod_eq_sub_mul_div, hq]
        omega
      have hround : roundDiv n (2 * d) = 2 ^ 53 - 1 + (2 ^ 53 - 1) % 2 := by
        simp only [roundDiv, hq, hr, Nat.lt_irrefl, if_false]
      exact hround.trans rfl

theorem lt_of_log2_lt {k a b : Nat} (h0 : k ≠ 0) (h : k.log2 < a + b) : k < 2 ^ a * 2 ^ b := by
  rw [← Nat.pow_add]
  exact (Nat.log2_lt h0).1 h

theorem le_of_le_log2 {k a b : Nat} (h0 : k ≠ 0) (h : a + b ≤ k.log2) : 2 ^ a * 2 ^ b ≤ k := by
  rw [← Nat.pow_add]
  exact (Nat.le_log2 h0).1 h

/-! ### The nearest real -/

section Natural

variable {n : Nat} (hn : n ≠ 0)
include hn

theorem leadingExponent_one : leadingExponent n 1 = n.log2 := by
  have hle : 2 ^ n.log2 ≤ n := Nat.log2_self_le hn
  have hone : Nat.log2 1 = 0 := by decide
  simp only [leadingExponent, hone, Int.natCast_zero, Int.sub_zero, Nat.one_mul]
  rw [twoTo_of_nonpos (by omega), twoTo_natCast, if_neg (by omega)]

/-- **The real nearest to a natural number** has the number's leading 53 binary digits, rounded. A carry
behind the first of them gives one more digit. -/
theorem ofRatio_one (negative : Bool) :
    ofRatio negative n 1 =
      let e : Int := n.log2 - 52
      let m := roundDiv (n * twoTo (-e)) (twoTo e)
      if m = 2 ^ 53 then if maxExponent < e + 1 then .infinite negative
        else .finite negative (2 ^ 52) (e + 1)
      else if maxExponent < e then .infinite negative
      else .finite negative m e := by
  have hmax : max ((n.log2 : Int) - 52) minExponent = n.log2 - 52 := by
    rw [minExponent]
    omega
  rw [ofRatio, if_neg hn, leadingExponent_one hn, hmax]
  simp only [Nat.one_mul]
  have hcarry : twoTo 53 = 2 ^ 53 := rfl
  rw [hcarry]
  split <;> rfl

/-- Below `2 ^ 53` the digits are only shifted. -/
theorem ofRatio_of_lt (negative : Bool) (h : n < 2 ^ 53) :
    ofRatio negative n 1 =
      .finite negative (n * 2 ^ (52 - n.log2)) (n.log2 - 52) := by
  have hlog : n.log2 < 53 := (Nat.log2_lt hn).2 h
  have hshift : twoTo (-((n.log2 : Int) - 52)) = 2 ^ (52 - n.log2) := by
    rw [← twoTo_natCast]
    congr 1
    omega
  have hlt : n * 2 ^ (52 - n.log2) < 2 ^ 53 := by
    calc n * 2 ^ (52 - n.log2) < 2 ^ (n.log2 + 1) * 2 ^ (52 - n.log2) :=
          Nat.mul_lt_mul_of_pos_right Nat.lt_log2_self (Nat.two_pow_pos _)
      _ = 2 ^ 53 := by
          rw [← Nat.pow_add]
          congr 1
          omega
  have hround : roundDiv (n * 2 ^ (52 - n.log2)) 1 = n * 2 ^ (52 - n.log2) := by
    simpa using roundDiv_mul_right (n * 2 ^ (52 - n.log2)) 1 (by decide)
  rw [ofRatio_one hn]
  simp only [hshift, twoTo_of_nonpos (e := (n.log2 : Int) - 52) (by omega), hround]
  rw [if_neg (Nat.ne_of_lt hlt), if_neg (by rw [maxExponent]; omega)]

/-- A number is infinite if its leading digit stands for `2 ^ 1024` or more, and if it stands for half of
that and rounding carries to `2 ^ 53`. -/
theorem isInfinite_ofRatio_one (negative : Bool) :
    (ofRatio negative n 1).isInfinite = true ↔
      1023 < n.log2 ∨ n.log2 = 1023 ∧ roundDiv n (2 * 2 ^ 970) = 2 ^ 53 := by
  have hmax : maxExponent = 971 := rfl
  rw [ofRatio_one hn, hmax]
  dsimp only
  rcases Nat.lt_trichotomy n.log2 1023 with hlog | hlog | hlog
  · have hcarried : ¬971 < (n.log2 : Int) - 52 + 1 := by omega
    have hplain : ¬971 < (n.log2 : Int) - 52 := by omega
    rw [if_neg hcarried, if_neg hplain]
    have hne : n.log2 ≠ 1023 := Nat.ne_of_lt hlog
    have hle : ¬1023 < n.log2 := Nat.lt_asymm hlog
    generalize roundDiv n (2 * 2 ^ 970) = m
    split <;> simp [isInfinite, hne, hle]
  · have hscale : twoTo ((n.log2 : Int) - 52) = 2 * 2 ^ 970 :=
      twoTo_of_eq_succ (k := 970) (by omega)
    have hcarried : 971 < (n.log2 : Int) - 52 + 1 := by omega
    have hplain : ¬971 < (n.log2 : Int) - 52 := by omega
    rw [if_pos hcarried, if_neg hplain, twoTo_of_nonpos (e := -((n.log2 : Int) - 52)) (by omega),
      hscale, Nat.mul_one]
    generalize roundDiv n (2 * 2 ^ 970) = m
    by_cases hm : m = 2 ^ 53
    · rw [if_pos hm]
      exact iff_of_true rfl (.inr ⟨hlog, hm⟩)
    · rw [if_neg hm]
      refine iff_of_false Bool.false_ne_true ?_
      rintro (habove | ⟨-, hcarry⟩)
      · omega
      · exact hm hcarry
  · have hcarried : 971 < (n.log2 : Int) - 52 + 1 := by omega
    have hplain : 971 < (n.log2 : Int) - 52 := by omega
    rw [if_pos hcarried, if_pos hplain]
    generalize roundDiv n (2 * 2 ^ 970) = m
    split <;> simp [isInfinite, hlog]

end Natural

/-- The size from which on an integer has no finite real near it: halfway between the greatest finite
number and `2 ^ 1024`. -/
def leastTooLarge : Nat := 2 ^ 1024 - 2 ^ 970

theorem leastTooLarge_eq : leastTooLarge = 2 ^ 54 * 2 ^ 970 - 2 ^ 970 := by decide +kernel

/-- **The integers that are too large** for a finite real. -/
theorem isInfinite_ofInt_iff (n : Int) :
    (ofInt n).isInfinite = true ↔ leastTooLarge ≤ n.natAbs := by
  have hpos : 0 < 2 ^ 970 := by decide +kernel
  rw [ofInt, leastTooLarge_eq]
  generalize n.natAbs = k
  by_cases h0 : k = 0
  · subst h0
    rw [ofRatio, if_pos rfl]
    simp only [zero, isInfinite, Bool.false_eq_true, false_iff]
    generalize 2 ^ 970 = d at *
    omega
  rw [isInfinite_ofRatio_one h0]
  rcases Nat.lt_trichotomy k.log2 1023 with hlog | hlog | hlog
  · have := lt_of_log2_lt h0 (a := 53) (b := 970) (by omega)
    generalize 2 ^ 970 = d at *
    omega
  · have hlt := lt_of_log2_lt h0 (a := 54) (b := 970) (by omega)
    generalize 2 ^ 970 = d at *
    rw [roundDiv_eq_carry_iff hlt]
    simp [hlog]
  · have := le_of_le_log2 h0 (a := 54) (b := 970) (by omega)
    simp only [hlog, true_or, true_iff]
    generalize 2 ^ 970 = d at *
    omega

/-- **The integers up to `2 ^ 53` are exact.** -/
theorem ofInt_exact {n : Int} (h : n.natAbs ≤ 2 ^ 53) :
    ∃ m e, ofInt n = .finite (decide (n < 0)) m e ∧ m * twoTo e = n.natAbs * twoTo (-e) := by
  rw [ofInt]
  generalize n.natAbs = k at *
  by_cases h0 : k = 0
  · subst h0
    exact ⟨0, minExponent, rfl, by simp⟩
  rcases Nat.lt_or_eq_of_le h with hlt | rfl
  · refine ⟨_, _, ofRatio_of_lt h0 _ hlt, ?_⟩
    have hlog : k.log2 < 53 := (Nat.log2_lt h0).2 hlt
    have hshift : twoTo (-((k.log2 : Int) - 52)) = 2 ^ (52 - k.log2) := by
      rw [← twoTo_natCast]
      congr 1
      omega
    rw [hshift, twoTo_of_nonpos (by omega), Nat.mul_one]
  · refine ⟨2 ^ 52, 1, ?_, by decide⟩
    cases decide (n < 0) <;> decide +kernel

/-! ### Decimal places -/

/-- A power of ten behind a positive number is a row of zeros behind its digits. -/
theorem decimalDigits_mul_tenTo {k : Nat} (hk : k ≠ 0) (places : Nat) :
    decimalDigits (k * 10 ^ places) = decimalDigits k ++ List.replicate places '0' := by
  induction places with
  | zero => simp
  | succ places ih =>
    have hpos : 0 < k * 10 ^ places := Nat.mul_pos (Nat.pos_of_ne_zero hk) (Nat.pow_pos (by decide))
    have hstep : k * 10 ^ (places + 1) = 10 * (k * 10 ^ places) + 0 := by
      rw [Nat.pow_succ', Nat.add_zero, Nat.mul_left_comm]
    rw [hstep, decimalDigits, ← Nat.toDigits_append_toDigits (by decide) hpos (by decide)]
    rw [← decimalDigits, ih, List.append_assoc, Nat.toDigits_zero, List.replicate_succ']

/-- The digits of an integer with its places, filled up in front to have one digit before the point. -/
theorem padded_mul_tenTo (k places : Nat) :
    List.replicate (places + 1 - (decimalDigits (k * 10 ^ places)).length) '0' ++
        decimalDigits (k * 10 ^ places) =
      decimalDigits k ++ List.replicate places '0' := by
  have hzero : decimalDigits 0 = ['0'] := Nat.toDigits_zero 10
  by_cases hk : k = 0
  · simp [hk, hzero, ← List.replicate_succ', List.replicate_succ]
  · have hlen : 0 < (decimalDigits k).length := Nat.length_toDigits_pos
    rw [decimalDigits_mul_tenTo hk, List.length_append, List.length_replicate]
    rw [Nat.sub_eq_zero_of_le (by omega), List.replicate_zero, List.nil_append]

/-- **An exact integer with decimal places**: its digits, and zeros behind the point. -/
theorem fixedPlaces_of_exact {m k : Nat} {e : Int} (h : m * twoTo e = k * twoTo (-e)) (negative : Bool)
    (places : Nat) :
    fixedPlaces negative m e places =
      signText negative ++ decimalDigits k ++
        (if places = 0 then [] else '.' :: List.replicate places '0') := by
  have hround : roundDiv (m * twoTo e * tenTo places) (twoTo (-e)) = k * 10 ^ places := by
    rw [h, tenTo_natCast, Nat.mul_right_comm]
    exact roundDiv_mul_right _ _ (twoTo_pos _)
  simp only [fixedPlaces, hround, padded_mul_tenTo]
  simp

end MiniPascal.Binary64

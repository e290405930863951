import MiniPascal.Text.Numeral

/-!
# Numerals

The decimal numeral of an integer has a minus sign if the integer is negative, and then its digits. It
tells the integer.
-/

namespace MiniPascal.Numeral

/-- A numeral has nothing but digits and a minus sign. -/
theorem mem_chars {n : Int} {c : Char} (h : c ∈ chars n) : c = '-' ∨ c.isDigit = true := by
  rcases List.mem_append.1 h with h | h
  · rw [Binary64.signText] at h
    split at h
    · exact .inl (List.mem_singleton.1 h)
    · cases h
  · exact .inr (Nat.isDigit_of_mem_toDigits (by decide) (by decide) h)

theorem decimalDigits_inj {m n : Nat} (h : Binary64.decimalDigits m = Binary64.decimalDigits n) :
    m = n := by
  rw [← Nat.ofDigitChars_ten_toDigits (n := m), ← Nat.ofDigitChars_ten_toDigits (n := n)]
  exact congrArg (Nat.ofDigitChars 10 · 0) h

/-- Digits do not start with a minus sign. -/
theorem decimalDigits_ne (m : Nat) (cs : List Char) : Binary64.decimalDigits m ≠ '-' :: cs := by
  intro h
  have hdigit : Char.isDigit '-' = true :=
    Nat.isDigit_of_mem_toDigits (b := 10) (n := m) (by decide) (by decide)
      (by rw [← Binary64.decimalDigits, h]; exact List.mem_cons_self)
  cases hdigit

/-- **Integers with one numeral are equal.** -/
theorem chars_inj {m n : Int} (h : chars m = chars n) : m = n := by
  unfold chars Binary64.signText at h
  by_cases hm : m < 0 <;> by_cases hn : n < 0
  · have := decimalDigits_inj (m := m.natAbs) (n := n.natAbs) (by simpa [hm, hn] using h)
    omega
  · exact absurd (by simpa [hm, hn] using h.symm) (decimalDigits_ne _ _)
  · exact absurd (by simpa [hm, hn] using h) (decimalDigits_ne _ _)
  · have := decimalDigits_inj (m := m.natAbs) (n := n.natAbs) (by simpa [hm, hn] using h)
    omega

theorem toList_write (n : Int) : (write n).toList = chars n := String.toList_ofList

end MiniPascal.Numeral

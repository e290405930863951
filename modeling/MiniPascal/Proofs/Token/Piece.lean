import MiniPascal.Token.Piece

/-!
# The piece at the start of a text

What a piece is, and where it ends, is found by looking at the text that follows. Here the answers are
given case by case: for a number by what stands behind its digits, for a string by the quotes that are
left, and for the other pieces by their first character.
-/

namespace MiniPascal.Piece

/-! ### Numbers -/

/-- A number that no point follows. -/
theorem measureNumber_of_ne {rest : Text}
    (h : ∀ tail, rest.drop (digitsLength rest) ≠ .char '.' :: tail) :
    measureNumber rest = (.integer, digitsLength rest) := by
  unfold measureNumber
  dsimp only
  split
  · exact absurd (by assumption) (h _)
  · rfl

/-- A number that a point follows. -/
theorem measureNumber_of_point {rest tail : Text}
    (h : rest.drop (digitsLength rest) = .char '.' :: tail) :
    measureNumber rest =
      if digitsLength tail = 0 then
        if tail.head? = some (.char '.') then (.integer, digitsLength rest)
        else (.real, digitsLength rest + 1)
      else
        if dottedLength 0 0 true (tail.drop (digitsLength tail)) = 0 then
          (.real, digitsLength rest + 1 + digitsLength tail)
        else (.malformedNumber, digitsLength rest + 1 + digitsLength tail +
          dottedLength 0 0 true (tail.drop (digitsLength tail))) := by
  unfold measureNumber
  dsimp only
  rw [h]
  rfl

theorem digitsLength_le_measureNumber (rest : Text) :
    digitsLength rest ≤ (measureNumber rest).2 := by
  by_cases h : ∃ tail, rest.drop (digitsLength rest) = .char '.' :: tail
  · obtain ⟨tail, h⟩ := h
    rw [measureNumber_of_point h]
    split <;> split <;> simp only <;> omega
  · simp [measureNumber_of_ne fun tail ht => h ⟨tail, ht⟩]

/-- A number that is no longer than its digits is an integer. -/
theorem measureNumber_of_le {rest : Text} (h : (measureNumber rest).2 ≤ digitsLength rest) :
    measureNumber rest = (.integer, digitsLength rest) := by
  by_cases hpoint : ∃ tail, rest.drop (digitsLength rest) = .char '.' :: tail
  · obtain ⟨tail, htail⟩ := hpoint
    rw [measureNumber_of_point htail] at h ⊢
    by_cases hzero : digitsLength tail = 0
    · rw [if_pos hzero] at h ⊢
      by_cases hhead : tail.head? = some (.char '.')
      · rw [if_pos hhead]
      · rw [if_neg hhead] at h
        simp only at h
        omega
    · rw [if_neg hzero] at h
      split at h <;> simp only at h <;> omega
  · exact measureNumber_of_ne fun tail htail => hpoint ⟨tail, htail⟩

/-! ### Strings -/

/-- Where no quote is left, the end of a string is what was found before. -/
theorem closingQuote?_of_not_mem {closing : Option Nat} {seen : Nat} {text : Text}
    (h : .char '\'' ∉ text) : closingQuote? closing seen text = closing := by
  fun_induction closingQuote? closing seen text with
  | case1 => rfl
  | case2 => simp at h
  | case3 => simp at h
  | case4 _ _ _ _ _ _ ih => exact ih fun hmem => h (List.mem_cons_of_mem _ hmem)

/-- An end of a string that is not in the text is one that was found before. -/
theorem not_mem_of_closingQuote? {closing : Option Nat} {seen length : Nat} {text : Text}
    (h : closingQuote? closing seen text = some length) (hle : length ≤ seen) :
    closing = some length ∧ .char '\'' ∉ text := by
  fun_induction closingQuote? closing seen text with
  | case1 => exact ⟨h, by simp⟩
  | case2 _ _ _ ih =>
    obtain ⟨hclosing, -⟩ := ih h (by omega)
    cases hclosing
    omega
  | case3 =>
    cases h
    omega
  | case4 _ _ c _ _ _ ih =>
    obtain ⟨hclosing, hmem⟩ := ih h (by omega)
    refine ⟨hclosing, fun hmem' => ?_⟩
    rcases List.mem_cons.1 hmem' with hc | hmem'
    · simp_all
    · exact hmem hmem'

theorem closingQuote?_cons_of_ne {closing : Option Nat} {seen : Nat} {c : CodePoint} {text : Text}
    (hc : c ≠ .char '\'') :
    closingQuote? closing seen (c :: text) = closingQuote? closing (seen + 1) text := by
  rw [closingQuote?]
  · rintro _ rfl
    exact absurd rfl hc
  · rintro rfl
    exact absurd rfl hc

theorem closingQuote?_quote_of_ne {closing : Option Nat} {seen : Nat} {text : Text}
    (h : text.head? ≠ some (.char '\'')) :
    closingQuote? closing seen (.char '\'' :: text) = some (seen + 1) := by
  rw [closingQuote?]
  rintro _ rfl
  exact absurd rfl h

/-! ### Pieces by their first character -/

theorem measure_quote (rest : Text) :
    measure (.char '\'') rest =
      match closingQuote? none 0 rest with
      | some length => (.string, length)
      | none => (.unclosedString, rest.length) := by
  rw [measure, if_neg (by decide)]
  exact if_pos rfl

/-- Two points are one symbol. -/
theorem measure_points (rest : Text) :
    measure (.char '.') (.char '.' :: rest) = (.symbol .dotDot, 1) := by
  rw [measure, if_neg (by decide), if_neg (by decide), if_neg (by decide), if_neg (by decide),
    if_neg (by decide)]
  rfl

theorem measure_brace (rest : Text) :
    measure (.char '\x7b') rest =
      if rest.contains (.char '\x7d') then
        (.comment, (rest.takeWhile (· ≠ .char '\x7d')).length + 1)
      else (.stray, 0) := by
  rw [measure, if_neg (by decide), if_neg (by decide), if_neg (by decide), if_pos rfl]

/-- A symbol, or a stray character. -/
theorem measure_other {c : CodePoint} (hdigit : ¬Text.isDigit c = true) (hquote : c ≠ .char '\'')
    (halpha : ¬c.isAlpha = true) (hopen : c ≠ .char '\x7b') (hblank : ¬Text.isBlank c = true)
    (rest : Text) :
    measure c rest =
      match rest.head?.bind (Symbol.ofTwo? c) with
      | some s => (.symbol s, 1)
      | none =>
        match Symbol.ofOne? c with
        | some s => (.symbol s, 0)
        | none => (.stray, 0) := by
  rw [measure, if_neg hdigit, if_neg hquote, if_neg halpha, if_neg hopen]
  exact if_neg hblank

end MiniPascal.Piece

import MiniPascal.Proofs.Token.Lexeme
import MiniPascal.Proofs.Token.Piece

/-!
# How tokens are spelled

The text of a token tells its kind and its value. A word is a letter with letters, digits and low
lines behind it, and a number has nothing but digits and points. A string stands between quotes, and
every quote within it is doubled: even where the closing quote is one of a pair, because no other is
left, the quotes in front of it come in pairs.

* `MiniPascal.Piece.literal`: a string between quotes.
* `MiniPascal.Piece.literal_append`: where a string between quotes ends.
* `MiniPascal.Token.Spelled`, `MiniPascal.spelled_of_mem_lexemes`: how the tokens of a text are
  spelled.
-/

namespace MiniPascal

namespace Piece

/-! ### Strings between quotes -/

/-- The text with every quote doubled. -/
def double : Text → Text
  | [] => []
  | c :: s => if c = .char '\'' then c :: c :: double s else c :: double s

/-- The text between quotes, as it is written in a program. -/
def literal (s : Text) : Text := .char '\'' :: double s ++ [.char '\'']

@[simp] theorem double_quote (s : Text) :
    double (.char '\'' :: s) = .char '\'' :: .char '\'' :: double s := if_pos rfl

theorem double_of_ne {c : CodePoint} (hc : c ≠ .char '\'') (s : Text) :
    double (c :: s) = c :: double s := if_neg hc

theorem undouble_of_ne {c : CodePoint} (hc : c ≠ .char '\'') (s : Text) :
    undouble (c :: s) = c :: undouble s := by
  rw [undouble]
  rintro _ rfl
  exact absurd rfl hc

/-- Doubling is undone. -/
theorem undouble_double (s : Text) : undouble (double s) = s := by
  induction s with
  | nil => rfl
  | cons c s ih =>
    by_cases hc : c = .char '\''
    · rw [hc, double_quote, undouble, ih]
    · rw [double_of_ne hc, undouble_of_ne hc, ih]

/-- The closing quote is the first one that is not doubled. -/
theorem closingQuote?_double {closing : Option Nat} {seen : Nat} {r : Text} (s : Text)
    (hr : r.head? ≠ some (.char '\'')) :
    closingQuote? closing seen (double s ++ .char '\'' :: r) =
      some (seen + (double s).length + 1) := by
  induction s generalizing closing seen with
  | nil => exact closingQuote?_quote_of_ne hr
  | cons c s ih =>
    by_cases hc : c = .char '\''
    · rw [hc, double_quote, List.cons_append, List.cons_append, closingQuote?, ih]
      simp only [List.length_cons, Option.some_inj]
      omega
    · rw [double_of_ne hc, List.cons_append, closingQuote?_cons_of_ne hc, ih]
      simp only [List.length_cons, Option.some_inj]
      omega

/-- **Where a string between quotes ends** can be told, if no quote follows it. -/
theorem literal_append {s s' r r' : Text} (hr : r.head? ≠ some (.char '\''))
    (hr' : r'.head? ≠ some (.char '\'')) (h : literal s ++ r = literal s' ++ r') :
    s = s' ∧ r = r' := by
  have heq : double s ++ .char '\'' :: r = double s' ++ .char '\'' :: r' := by
    simpa [literal] using h
  have hlength : (double s).length = (double s').length := by
    have hend : closingQuote? none 0 (double s ++ .char '\'' :: r) = some (0 + (double s).length + 1) :=
      closingQuote?_double s hr
    rw [heq, closingQuote?_double s' hr', Option.some_inj] at hend
    omega
  obtain ⟨hdouble, hrest⟩ := List.append_inj heq hlength
  refine ⟨?_, (List.cons.inj hrest).2⟩
  rw [← undouble_double s, hdouble, undouble_double]

/-- Up to the end of a string every quote is doubled, unless the end was met before. -/
theorem take_of_closingQuote? {closing : Option Nat} {seen length : Nat} {text : Text}
    (h : closingQuote? closing seen text = some length) :
    closing = some length ∨
      ∃ s n, length = seen + n + 1 ∧ text.take (n + 1) = double s ++ [.char '\''] := by
  fun_induction closingQuote? closing seen text with
  | case1 => exact .inl h
  | case2 _ seen rest ih =>
    right
    rcases ih h with hlength | ⟨s, n, rfl, hs⟩
    · -- no other quote is left, and the first one of this pair is the end
      obtain rfl := Option.some.inj hlength
      exact ⟨[], 0, rfl, rfl⟩
    · refine ⟨.char '\'' :: s, n + 2, by omega, ?_⟩
      rw [double_quote, List.take_succ_cons, List.take_succ_cons, hs]
      rfl
  | case3 =>
    obtain rfl := Option.some.inj h
    exact .inr ⟨[], 0, rfl, rfl⟩
  | case4 closing seen c rest hpair hquote ih =>
    refine (ih h).imp id ?_
    rintro ⟨s, n, rfl, hs⟩
    have hc : c ≠ .char '\'' := hquote
    refine ⟨c :: s, n + 1, by omega, ?_⟩
    rw [double_of_ne hc, List.take_succ_cons, hs]
    rfl

/-- What stands between the quotes is the string. -/
theorem undouble_literal (s : Text) : undouble ((literal s).drop 1).dropLast = s := by
  rw [literal, List.cons_append, List.drop_succ_cons, List.drop_zero, List.dropLast_concat,
    undouble_double]

/-! ### Numbers -/

/-- A number: a digit, then digits and points. -/
def IsNumber (text : Text) : Prop :=
  ∃ c cs, text = c :: cs ∧ Text.isDigit c = true ∧ ∀ d ∈ cs, Text.isDigit d = true ∨ d = .char '.'

theorem take_digitsLength (rest : Text) :
    rest.take (digitsLength rest) = rest.takeWhile Text.isDigit :=
  (List.prefix_iff_eq_take.1 (List.takeWhile_prefix _)).symm

theorem mem_take_digits {rest : Text} {k : Nat} {d : CodePoint} (hk : k ≤ digitsLength rest)
    (hd : d ∈ rest.take k) : Text.isDigit d = true := by
  have hmem := (List.take_sublist_take_left hk).subset hd
  rw [take_digitsLength] at hmem
  exact List.mem_takeWhile_imp hmem

/-- Integers and reals are made of digits and points. -/
theorem mem_take_measureNumber {rest : Text} {d : CodePoint}
    (h : (measureNumber rest).1 ≠ .malformedNumber)
    (hd : d ∈ rest.take (measureNumber rest).2) : Text.isDigit d = true ∨ d = .char '.' := by
  by_cases hpoint : ∃ tail, rest.drop (digitsLength rest) = .char '.' :: tail
  · obtain ⟨tail, htail⟩ := hpoint
    -- behind the point there are no more characters than digits
    have hbehind {k : Nat} (hk : k ≤ digitsLength tail)
        (hd : d ∈ rest.take (digitsLength rest + 1 + k)) :
        Text.isDigit d = true ∨ d = .char '.' := by
      rw [Nat.add_assoc, List.take_add, htail, Nat.add_comm 1 k, List.take_succ_cons,
        List.mem_append, List.mem_cons] at hd
      rcases hd with hd | rfl | hd
      · exact .inl (mem_take_digits (Nat.le_refl _) hd)
      · exact .inr rfl
      · exact .inl (mem_take_digits hk hd)
    rw [measureNumber_of_point htail] at h hd
    by_cases hzero : digitsLength tail = 0
    · rw [if_pos hzero] at hd
      split at hd
      · exact .inl (mem_take_digits (Nat.le_refl _) hd)
      · exact hbehind (Nat.zero_le _) hd
    · rw [if_neg hzero] at h hd
      split at hd
      · exact hbehind (Nat.le_refl _) hd
      · rename_i hgroups
        rw [if_neg hgroups] at h
        exact absurd rfl h
  · rw [measureNumber_of_ne fun tail htail => hpoint ⟨tail, htail⟩] at hd
    exact .inl (mem_take_digits (Nat.le_refl _) hd)

/-! ### Pieces -/

/-- **How a piece is spelled** that is a word, a number or a string. -/
structure Formed (p : Piece) : Prop where
  word : p.terminal = .word →
    ∃ c cs, p.text = c :: cs ∧ c.isAlpha = true ∧ ∀ d ∈ cs, isWordChar d = true
  number : p.terminal = .integer ∨ p.terminal = .real → IsNumber p.text
  string : p.terminal = .string → ∃ s, p.text = literal s

theorem measureNumber_fst_ne (rest : Text) :
    (measureNumber rest).1 ≠ .word ∧ (measureNumber rest).1 ≠ .string := by
  unfold measureNumber
  dsimp only
  split
  · split
    · split <;> simp
    · split <;> simp
  · simp

theorem formed_of_measure (c : CodePoint) (rest : Text) :
    Formed ⟨(measure c rest).1, c :: rest.take (measure c rest).2⟩ := by
  by_cases hdigit : Text.isDigit c = true
  · rw [show measure c rest = measureNumber rest from if_pos hdigit]
    obtain ⟨hword, hstring⟩ := measureNumber_fst_ne rest
    refine ⟨fun h => absurd h hword, fun h => ?_, fun h => absurd h hstring⟩
    refine ⟨c, _, rfl, hdigit, fun d => mem_take_measureNumber fun hflaw => ?_⟩
    rcases h with h | h <;> cases hflaw.symm.trans h
  by_cases hquote : c = .char '\''
  · subst hquote
    rw [measure_quote]
    split
    · rename_i length hlength
      refine ⟨by simp, by simp, fun _ => ?_⟩
      rcases take_of_closingQuote? hlength with hnone | ⟨s, n, rfl, hs⟩
      · cases hnone
      · exact ⟨s, by rw [Nat.zero_add, hs]; rfl⟩
    · exact ⟨by simp, by simp, by simp⟩
  by_cases halpha : c.isAlpha = true
  · rw [show measure c rest = (.word, (rest.takeWhile isWordChar).length) by
      rw [measure, if_neg hdigit, if_neg hquote, if_pos halpha]]
    refine ⟨fun _ => ⟨c, _, rfl, halpha, fun d hd => ?_⟩, by simp, by simp⟩
    rw [← List.prefix_iff_eq_take.1 (List.takeWhile_prefix _)] at hd
    exact List.mem_takeWhile_imp hd
  · have hother : (measure c rest).1 ≠ .word ∧ (measure c rest).1 ≠ .integer ∧
        (measure c rest).1 ≠ .real ∧ (measure c rest).1 ≠ .string := by
      rw [measure, if_neg hdigit, if_neg hquote, if_neg halpha]
      split
      · split <;> simp
      · split
        · simp
        · split
          · simp
          · split <;> simp
    obtain ⟨hword, hinteger, hreal, hstring⟩ := hother
    exact ⟨fun h => absurd h hword, fun h => absurd h (not_or.2 ⟨hinteger, hreal⟩),
      fun h => absurd h hstring⟩

theorem formed_of_mem_pieces {text : Text} {p : Piece} (hp : p ∈ pieces text) : p.Formed := by
  induction text using pieces.induct with
  | case1 => simp at hp
  | case2 c rest cut ih =>
    rw [pieces_cons, List.mem_cons] at hp
    rcases hp with rfl | hp
    · exact formed_of_measure c rest
    · exact ih hp

end Piece

/-! ### Tokens -/

open Piece

/-- **How a token is spelled** that has a name or a value, and that its text tells the value. -/
structure Token.Spelled (t : Token) : Prop where
  identifier : t.kind = .identifier →
    ∃ c cs, t.text = c :: cs ∧ c.isAlpha = true ∧ ∀ d ∈ cs, isWordChar d = true
  integer : ∀ n, t.kind = .integer n → IsNumber t.text ∧ n = Text.digitsValue t.text
  real : ∀ x, t.kind = .real x → IsNumber t.text ∧ x = realValue t.text
  character : ∀ c, t.kind = .character c → t.text = literal [c]
  string : ∀ s, t.kind = .string s → t.text = literal s

theorem wordKind_cases (word : Text) :
    wordKind word = .identifier ∨ ∃ keyword, wordKind word = .keyword keyword := by
  unfold wordKind
  split
  · exact .inr ⟨_, rfl⟩
  · exact .inl rfl

theorem Piece.Formed.spelled {p : Piece} (hp : p.Formed) {line : Nat} {t : Token}
    (h : p.lexeme? line = some (.token t)) : t.Spelled := by
  unfold Piece.lexeme? at h
  dsimp only at h
  split at h
  case h_1 | h_2 => cases h
  case h_3 hterminal =>
    cases h
    rcases wordKind_cases p.text with hk | ⟨keyword, hk⟩
    · rw [hk]
      exact ⟨fun _ => hp.word hterminal, nofun, nofun, nofun, nofun⟩
    · rw [hk]
      exact ⟨nofun, nofun, nofun, nofun, nofun⟩
  case h_4 hterminal =>
    split at h <;> cases h
    refine ⟨nofun, ?_, nofun, nofun, nofun⟩
    rintro n ⟨⟩
    exact ⟨hp.number (.inl hterminal), rfl⟩
  case h_5 hterminal =>
    cases h
    refine ⟨nofun, nofun, ?_, nofun, nofun⟩
    rintro x ⟨⟩
    exact ⟨hp.number (.inr hterminal), rfl⟩
  case h_6 hterminal =>
    cases h
    obtain ⟨s, hs⟩ := hp.string hterminal
    rw [hs, stringKind, undouble_literal]
    split
    · refine ⟨nofun, nofun, nofun, ?_, nofun⟩
      rintro c ⟨⟩
      rfl
    · refine ⟨nofun, nofun, nofun, nofun, ?_⟩
      rintro s ⟨⟩
      rfl
  all_goals
    cases h
    exact ⟨nofun, nofun, nofun, nofun, nofun⟩

theorem spelled_of_mem_lexemesFrom {line : Nat} {ps : List Piece} {t : Token}
    (hps : ∀ p ∈ ps, p.Formed) (h : .token t ∈ lexemesFrom line ps) : t.Spelled := by
  induction ps generalizing line with
  | nil => cases h
  | cons p ps ih =>
    obtain ⟨hp, hps⟩ := List.forall_mem_cons.1 hps
    rcases List.mem_append.1 h with h | h
    · exact hp.spelled (Option.mem_toList.1 h)
    · exact ih hps h

/-- **The tokens of a text are spelled as their kinds ask for.** -/
theorem spelled_of_mem_lexemes {source : Text} {t : Token} (h : .token t ∈ lexemes source) :
    t.Spelled :=
  spelled_of_mem_lexemesFrom (fun _ => formed_of_mem_pieces) h

end MiniPascal

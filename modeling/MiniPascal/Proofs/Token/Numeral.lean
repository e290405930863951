import MiniPascal.Proofs.Binary64.Integer
import MiniPascal.Proofs.Grammar.Phrase
import MiniPascal.Proofs.Text.Numeral
import MiniPascal.Proofs.Token.Layout
import MiniPascal.Proofs.Token.Number

/-!
# Numerals in a text

The numeral of an integer in front of a text is one token, or a minus sign and one token if the integer is
negative, and what follows is cut as if it stood alone, unless it goes on with a digit or a point. The
token has the value of the digits, and the digits of an integer have its size as their value. So a
constant is read from the numeral, and it is the integer again.

* `MiniPascal.Text.digitsValue_decimalDigits`: the value of the digits of a number.
* `MiniPascal.lexemes_numeral_append`: the lexemes of a text behind a numeral.
* `MiniPascal.derivesConstant_numeral`: the constant that is read from a numeral.
-/

namespace MiniPascal

open Text

/-! ### The digits of a number -/

namespace Text

theorem digitValue?_char {c : Char} (h : c.isDigit = true) :
    digitValue? (.char c) = some (c.toNat - '0'.toNat) := by
  have hbounds : 48 ≤ c.toNat ∧ c.toNat ≤ 57 := Char.isDigit_iff_toNat.1 h
  have hzeros : zeros = 48 :: zeros.tail := rfl
  have hfirst : zeros.find? (fun z => z ≤ (CodePoint.char c).toNat && (CodePoint.char c).toNat ≤ z + 9) =
      some 48 := by
    rw [hzeros]
    refine List.find?_cons_of_pos ?_
    rw [Bool.and_eq_true, decide_eq_true_iff, decide_eq_true_iff]
    exact hbounds
  rw [digitValue?, hfirst]
  rfl

theorem isDigit_char {c : Char} (h : c.isDigit = true) : isDigit (.char c) = true := by
  rw [isDigit, digitValue?_char h]
  rfl

theorem isDigit_of_mem_decimalDigits {n : Nat} {c : Char} (h : c ∈ Binary64.decimalDigits n) :
    c.isDigit = true := Nat.isDigit_of_mem_toDigits (by decide) (by decide) h

theorem isRun_decimalDigits (n : Nat) : IsRun (ofChars (Binary64.decimalDigits n)) := by
  refine ⟨List.map_eq_nil_iff.not.2 Nat.toDigits_ne_nil, fun d hd => ?_⟩
  obtain ⟨c, hc, rfl⟩ := List.mem_map.1 hd
  exact isDigit_char (isDigit_of_mem_decimalDigits hc)

/-- The digits from zero to nine have their value in any list of digits. -/
theorem digitsValue_ofChars {cs : List Char} (h : ∀ c ∈ cs, c.isDigit = true) :
    digitsValue (ofChars cs) = Nat.ofDigitChars 10 cs 0 := by
  have hfold : ∀ start : Nat, (ofChars cs).foldl (fun n c => 10 * n + (digitValue? c).getD 0) start =
      Nat.ofDigitChars 10 cs start := by
    induction cs with
    | nil => exact fun _ => Nat.ofDigitChars_nil.symm
    | cons c cs ih =>
      rw [List.forall_mem_cons] at h
      intro start
      rw [ofChars, List.map_cons, List.foldl_cons, digitValue?_char h.1, Nat.ofDigitChars_cons]
      exact ih h.2 _
  exact hfold 0

/-- **The digits of a number have it as their value.** -/
theorem digitsValue_decimalDigits (n : Nat) : digitsValue (ofChars (Binary64.decimalDigits n)) = n := by
  rw [digitsValue_ofChars fun _ => isDigit_of_mem_decimalDigits]
  exact Nat.ofDigitChars_ten_toDigits

end Text

/-! ### Cutting -/

variable {d r : Text}

/-- Digits that nothing goes on with are a piece. -/
theorem pieces_digits_append (hd : IsRun d) (hr : NoDigit r) (hpoint : r.head? ≠ some (.char '.')) :
    pieces (d ++ r) = ⟨.integer, d⟩ :: pieces r := by
  obtain ⟨c, w, rfl⟩ := List.exists_cons_of_ne_nil hd.1
  have hfirst : Piece.first c (w ++ r) = ⟨.integer, c :: w⟩ :=
    Piece.first_of_numberAt (.integer hd hr (.inl hpoint))
  have htake : (w ++ r).take (Piece.measure c (w ++ r)).2 = w := by
    have htext := congrArg Piece.text hfirst
    exact (List.cons.inj htext).2
  have hdrop : (w ++ r).drop (Piece.measure c (w ++ r)).2 = r := by
    have hsplit := List.take_append_drop (Piece.measure c (w ++ r)).2 (w ++ r)
    rw [htake] at hsplit
    exact List.append_cancel_left hsplit
  rw [List.cons_append, pieces_cons, hdrop]
  exact congrArg (· :: pieces r) hfirst

/-- A minus sign is a piece, whatever follows it. -/
theorem pieces_minus (t : Text) : pieces (.char '-' :: t) = ⟨.symbol .minus, "-"⟩ :: pieces t := by
  have hmeasure : Piece.measure (.char '-') t = (.symbol .minus, 0) := by
    rw [Piece.measure_other (by decide) (by decide) (by decide) (by decide) (by decide)]
    cases t <;> rfl
  rw [pieces_cons, hmeasure]
  rfl

/-! ### Tokens -/

namespace Numeral

/-- The token of the digits of an integer. -/
def digitsToken (line : Nat) (n : Int) : Token :=
  ⟨.integer n.natAbs, line, ofChars (Binary64.decimalDigits n.natAbs)⟩

/-- The tokens of the numeral of an integer, on the given line. -/
def tokens (line : Nat) (n : Int) : List Token :=
  if n < 0 then [⟨.symbol .minus, line, "-"⟩, digitsToken line n] else [digitsToken line n]

theorem isError_of_mem_tokens {line : Nat} {n : Int} {t : Token} (h : t ∈ tokens line n) :
    t.isError = false := by
  rw [tokens] at h
  split at h
  · simp only [List.mem_cons, List.not_mem_nil, or_false] at h
    rcases h with rfl | rfl <;> rfl
  · obtain rfl := List.mem_singleton.1 h
    rfl

variable {n : Int} {line : Nat}

theorem ofString_write : ofString (write n) =
    if n < 0 then .char '-' :: ofChars (Binary64.decimalDigits n.natAbs)
    else ofChars (Binary64.decimalDigits n.natAbs) := by
  rw [ofString, toList_write, chars]
  by_cases h : n < 0 <;> simp [h, Binary64.signText, ofChars]

/-- A numeral does not start with white space. -/
theorem isBlank_head?_write (n : Int) (r : Text) :
    ∀ c ∈ (ofString (write n) ++ r).head?, isBlank c = false := by
  have hdigits := isRun_decimalDigits n.natAbs
  obtain ⟨d, w, hd⟩ := List.exists_cons_of_ne_nil hdigits.1
  rw [ofString_write]
  split
  · rintro c ⟨⟩
    decide
  · rw [hd]
    rintro c ⟨⟩
    exact isBlank_of_isDigit (hdigits.2 d (hd ▸ List.mem_cons_self))

/-- An integer that is not overlong has so many digits at most. -/
theorem isOverlong_eq_false_iff :
    isOverlong n = false ↔ (Binary64.decimalDigits n.natAbs).length ≤ maxDigits := by
  have hpos : 0 < maxDigits := by decide
  rw [isOverlong, decide_eq_false_iff_not, Nat.not_le]
  generalize maxDigits = k at *
  rw [Binary64.decimalDigits, Nat.length_toDigits_le_iff (by decide) hpos, Binary64.tenTo_natCast]

end Numeral

open Numeral

variable {n : Int}

/-- The token of digits that are not too many. -/
theorem Piece.lexeme?_digits (h : (Binary64.decimalDigits n.natAbs).length ≤ maxDigits) (line : Nat) :
    Piece.lexeme? line ⟨.integer, ofChars (Binary64.decimalDigits n.natAbs)⟩ =
      some (.token (digitsToken line n)) := by
  have hlength : ¬maxDigits < (ofChars (Binary64.decimalDigits n.natAbs)).length := by
    rw [ofChars, List.length_map]
    exact Nat.not_lt.2 h
  rw [Piece.lexeme?]
  dsimp only
  rw [if_neg hlength, digitsValue_decimalDigits]
  rfl

/-- There are no line ends among digits. -/
theorem Piece.lineEnds_digits (k : Nat) :
    Piece.lineEnds ⟨.integer, ofChars (Binary64.decimalDigits k)⟩ = 0 := by
  refine List.count_eq_zero.2 fun hmem => ?_
  have hdigit := (isRun_decimalDigits k).2 _ hmem
  have hline : isDigit (.char '\n') = false := by decide
  rw [hline] at hdigit
  cases hdigit

/-- **The lexemes of a text behind a numeral.** -/
theorem lexemes_numeral_append (h : (Binary64.decimalDigits n.natAbs).length ≤ maxDigits)
    (hr : NoDigit r) (hpoint : r.head? ≠ some (.char '.')) :
    lexemes (ofString (write n) ++ r) = (tokens 1 n).map .token ++ lexemes r := by
  have hdigits : lexemesFrom 1 (pieces (ofChars (Binary64.decimalDigits n.natAbs) ++ r)) =
      .token (digitsToken 1 n) :: lexemes r := by
    rw [pieces_digits_append (isRun_decimalDigits _) hr hpoint, lexemesFrom, Piece.lexeme?_digits h,
      Piece.lineEnds_digits]
    rfl
  rw [ofString_write, tokens]
  by_cases hn : n < 0
  · rw [if_pos hn, if_pos hn, lexemes, List.cons_append, pieces_minus, lexemesFrom]
    exact congrArg (_ :: ·) hdigits
  · rw [if_neg hn, if_neg hn]
    exact hdigits

/-! ### Constants -/

/-- The constant of an integer. -/
def Numeral.node (line : Nat) (n : Int) : Node :=
  { kind := .integerConstant, line := line, text := .text (ofString (write n)), value := .int n }

/-- **The constant that is read from a numeral** is that of the integer: a minus sign is folded into
it. -/
theorem derivesConstant_numeral (line : Nat) (n : Int) :
    DerivesConstant (tokens line n) (Numeral.node line n) := by
  rw [tokens, Numeral.node, ofString_write]
  by_cases hn : n < 0
  · have hvalue : -(n.natAbs : Int) = n := by omega
    rw [if_pos hn, if_pos hn]
    refine .number (.negative rfl ?_)
    rw [Token.numberNode?]
    simp only [digitsToken, Token.integerNode?, if_true, hvalue]
    rfl
  · have hvalue : (n.natAbs : Int) = n := by omega
    rw [if_neg hn, if_neg hn]
    refine .number (.plain ?_)
    rw [Token.numberNode?]
    simp only [digitsToken, Token.integerNode?, Bool.false_eq_true, if_false, hvalue]

end MiniPascal

import Mathlib.Data.List.TakeWhile
import MiniPascal.Token.Feed

/-!
# The lexemes of a text

A piece of a text is a token, or it is **layout**: white space or a comment, which nobody is handed.
A token piece becomes one lexeme, with the text of the piece and the line on which the piece starts,
and what is known of the pieces in front of it is enough to tell that line.

* `MiniPascal.Piece.isToken`, `MiniPascal.Piece.IsOverlong`: the pieces that become lexemes.
* `MiniPascal.isLayout_of_mem_pieces`: what becomes of the other ones.
* `MiniPascal.lexemesFrom_append`: lines go on behind some pieces.
* `MiniPascal.token_of_mem_lexemes`: the tokens of a text.
-/

namespace MiniPascal

/-- Up to the first `x` there are the characters that are no `x`, and then it. -/
theorem Text.take_takeWhile_ne {x : CodePoint} {text : Text} (h : x ∈ text) :
    text.take ((text.takeWhile (· ≠ x)).length + 1) = text.takeWhile (· ≠ x) ++ [x] := by
  induction text with
  | nil => cases h
  | cons c text ih =>
    by_cases hc : c = x
    · simp [hc]
    · have htail := ih (by simpa [Ne.symm hc] using h)
      rw [List.takeWhile_cons_of_pos (by simpa using hc), List.length_cons, List.take_succ_cons,
        htail, List.cons_append]

/-- A run of characters of a class ends where what follows does not go on with it. -/
theorem Text.takeWhile_run {p : CodePoint → Bool} {w t : Text} (hw : ∀ c ∈ w, p c = true)
    (ht : ∀ c ∈ t.head?, p c = false) : (w ++ t).takeWhile p = w := by
  rw [List.takeWhile_append_of_pos hw]
  cases t with
  | nil => simp
  | cons c t => simp [ht c rfl]

namespace Piece

/-! ### Pieces that are tokens -/

/-- Whether the piece is a token, and neither white space nor a comment. -/
def isToken (p : Piece) : Bool := p.terminal ≠ .comment && p.terminal ≠ .blank

/-- An integer of more than 4300 digits. -/
def IsOverlong (p : Piece) : Prop := p.terminal = .integer ∧ 4300 < p.text.length

instance (p : Piece) : Decidable p.IsOverlong := inferInstanceAs (Decidable (_ ∧ _))

theorem isSome_lexeme? (line : Nat) (p : Piece) : (p.lexeme? line).isSome = p.isToken := by
  unfold lexeme? isToken
  split <;> simp_all
  split <;> simp

theorem lexeme?_eq_overlong_iff (line : Nat) (p : Piece) :
    p.lexeme? line = some .overlong ↔ p.IsOverlong := by
  unfold lexeme? IsOverlong
  split <;> simp_all
  exact Iff.rfl

theorem realValue_ne_nan (text : Text) : realValue text ≠ .nan := by
  have ofRatio (negative : Bool) (num den : Nat) : Binary64.ofRatio negative num den ≠ .nan := by
    unfold Binary64.ofRatio
    dsimp only
    split
    · simp [Binary64.zero]
    · split <;> split <;> simp
  unfold realValue Binary64.ofDecimal
  dsimp only
  split
  · simp [Binary64.zero]
  · split
    · simp
    · split
      · simp [Binary64.zero]
      · exact ofRatio _ _ _

/-- A token has the text of its piece and the line on which the piece starts. It is not the end of
the text, and if it is a number it is none that is a NaN. -/
theorem token_of_lexeme? {line : Nat} {p : Piece} {t : Token}
    (h : p.lexeme? line = some (.token t)) :
    t.line = line ∧ t.text = p.text ∧ t.kind ≠ .endOfFile ∧ t.kind ≠ .real .nan := by
  have word (text : Text) : wordKind text ≠ .endOfFile ∧ wordKind text ≠ .real .nan := by
    unfold wordKind
    split <;> simp
  have string (text : Text) : stringKind text ≠ .endOfFile ∧ stringKind text ≠ .real .nan := by
    unfold stringKind
    split <;> simp
  unfold lexeme? at h
  dsimp only at h
  split at h
  case h_3 => cases h; exact ⟨rfl, rfl, word _⟩
  case h_4 => split at h <;> cases h; exact ⟨rfl, rfl, by simp⟩
  case h_5 => cases h; exact ⟨rfl, rfl, by simp [realValue_ne_nan]⟩
  case h_6 => cases h; exact ⟨rfl, rfl, string _⟩
  all_goals cases h
  all_goals exact ⟨rfl, rfl, by simp⟩

/-- **What a token piece becomes.** -/
theorem lexeme?_cases {p : Piece} (line : Nat) (h : p.isToken = true) :
    (p.IsOverlong ∧ p.lexeme? line = some .overlong) ∨
      ¬p.IsOverlong ∧ ∃ kind, kind ≠ .endOfFile ∧
        p.lexeme? line = some (.token ⟨kind, line, p.text⟩) := by
  rw [← isSome_lexeme? line, Option.isSome_iff_exists] at h
  obtain ⟨l, hl⟩ := h
  have hover := lexeme?_eq_overlong_iff line p
  cases l with
  | overlong => exact .inl ⟨hover.1 hl, hl⟩
  | token t =>
    obtain ⟨rfl, htext, hkind, -⟩ := token_of_lexeme? hl
    refine .inr ⟨fun ho => ?_, t.kind, hkind, ?_⟩
    · rw [hl] at hover
      cases hover.2 ho
    · rw [hl, ← htext]

/-! ### Layout -/

/-- White space, or a comment up to its first closing brace. -/
def IsLayout (p : Piece) : Prop :=
  (∀ c ∈ p.text, Text.isBlank c = true) ∨
    ∃ body, p.text = .char '\x7b' :: body ++ [.char '\x7d'] ∧ .char '\x7d' ∉ body

theorem measureNumber_ne (rest : Text) :
    (measureNumber rest).1 ≠ .comment ∧ (measureNumber rest).1 ≠ .blank := by
  unfold measureNumber
  dsimp only
  split
  · split
    · split <;> simp
    · split <;> simp
  · simp

/-- Only a brace starts a comment, and only a blank starts white space. -/
theorem measure_cases (c : CodePoint) (rest : Text) :
    ((measure c rest).1 ≠ .comment ∧ (measure c rest).1 ≠ .blank) ∨
      (c = .char '\x7b' ∧ .char '\x7d' ∈ rest ∧
        (measure c rest).2 = (rest.takeWhile (· ≠ .char '\x7d')).length + 1) ∨
      Text.isBlank c = true ∧ (measure c rest).2 = (rest.takeWhile Text.isBlank).length := by
  unfold measure
  split
  · exact .inl (measureNumber_ne rest)
  split
  · refine .inl ?_
    split <;> simp
  split
  · simp
  split
  · split
    · rename_i hc hclosed
      exact .inr (.inl ⟨hc, by simpa using hclosed, rfl⟩)
    · simp
  split
  · rename_i hblank
    exact .inr (.inr ⟨hblank, rfl⟩)
  · refine .inl ?_
    split
    · simp
    · split <;> simp

theorem isLayout_of_measure {c : CodePoint} {rest : Text}
    (h : isToken ⟨(measure c rest).1, c :: rest.take (measure c rest).2⟩ = false) :
    IsLayout ⟨(measure c rest).1, c :: rest.take (measure c rest).2⟩ := by
  rcases measure_cases c rest with ⟨hcomment, hblank⟩ | ⟨rfl, hclosed, hlength⟩ | ⟨hc, hlength⟩
  · simp [isToken, hcomment, hblank] at h
  · right
    refine ⟨rest.takeWhile (· ≠ .char '\x7d'), ?_, fun hmem => ?_⟩
    · rw [hlength, Text.take_takeWhile_ne hclosed, List.cons_append]
    · simpa using List.mem_takeWhile_imp hmem
  · left
    rw [hlength]
    intro d hd
    rcases List.mem_cons.1 hd with rfl | hd
    · exact hc
    · rw [← List.prefix_iff_eq_take.1 (List.takeWhile_prefix _)] at hd
      exact List.mem_takeWhile_imp hd

end Piece

/-- **What nobody is handed is layout.** -/
theorem isLayout_of_mem_pieces {text : Text} {p : Piece} (hp : p ∈ pieces text)
    (h : p.isToken = false) : p.IsLayout := by
  induction text using pieces.induct with
  | case1 => simp at hp
  | case2 c rest cut ih =>
    rw [pieces_cons, List.mem_cons] at hp
    rcases hp with rfl | hp
    · exact Piece.isLayout_of_measure h
    · exact ih hp

/-! ### Error tokens -/

/-- Whether the token stands for characters that form no token. -/
def Token.isError (t : Token) : Bool :=
  match t.kind with
  | .error _ => true
  | _ => false

theorem Token.isError_eq_false {t : Token} (h : t.reports = []) : t.isError = false := by
  obtain ⟨kind, line, text⟩ := t
  cases kind with
  | error flaw => cases h
  | _ => rfl

theorem Token.reports_eq_nil {t : Token} (h : t.isError = false) : t.reports = [] := by
  obtain ⟨kind, line, text⟩ := t
  cases kind with
  | error flaw => cases h
  | _ => rfl

/-! ### Lines -/

/-- Behind some pieces the lines go on from the line ends in them. -/
theorem lexemesFrom_append (line : Nat) (ps qs : List Piece) :
    lexemesFrom line (ps ++ qs) =
      lexemesFrom line ps ++
        lexemesFrom (line + (ps.flatMap (·.text)).count (.char '\n')) qs := by
  induction ps generalizing line with
  | nil => simp [lexemesFrom]
  | cons p ps ih =>
    simp only [List.cons_append, lexemesFrom, ih, List.append_assoc, List.flatMap_cons,
      List.count_append, Piece.lineEnds, Nat.add_assoc]

/-- Every token piece becomes one lexeme. -/
theorem length_lexemesFrom (line : Nat) (ps : List Piece) :
    (lexemesFrom line ps).length = ps.countP Piece.isToken := by
  induction ps generalizing line with
  | nil => rfl
  | cons p ps ih =>
    rw [lexemesFrom, List.length_append, ih, List.countP_cons, ← p.isSome_lexeme? line]
    cases p.lexeme? line <;> simp [Nat.add_comm]

theorem token_of_mem_lexemesFrom {line : Nat} {ps : List Piece} {t : Token}
    (h : .token t ∈ lexemesFrom line ps) :
    line ≤ t.line ∧ t.kind ≠ .endOfFile ∧ t.kind ≠ .real .nan := by
  induction ps generalizing line with
  | nil => cases h
  | cons p ps ih =>
    rcases List.mem_append.1 h with h | h
    · obtain ⟨rfl, -, hk⟩ := Piece.token_of_lexeme? (Option.mem_toList.1 h)
      exact ⟨Nat.le_refl _, hk⟩
    · obtain ⟨hline, hk⟩ := ih h
      exact ⟨by omega, hk⟩

/-- **The tokens of a text** are on lines that count from one, and none is the end of the text or a
NaN. -/
theorem token_of_mem_lexemes {source : Text} {t : Token} (h : .token t ∈ lexemes source) :
    1 ≤ t.line ∧ t.kind ≠ .endOfFile ∧ t.kind ≠ .real .nan :=
  token_of_mem_lexemesFrom h

end MiniPascal

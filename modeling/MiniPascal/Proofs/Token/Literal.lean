import MiniPascal.Proofs.Token.Layout
import MiniPascal.Proofs.Token.Spelling
import MiniPascal.Proofs.Token.Stream

/-!
# String literals in a text

A string that is written between quotes is one token, and what follows it is cut as if it stood alone,
unless it starts with a quote. What stands in front of a string is another matter: a piece may end
elsewhere when the text behind it changes. Words, white space and symbols do so only at the very end of
a text, and so a text of such pieces may be put in front of any text that does not go on with the last of
them.

* `MiniPascal.pieces_append`, `MiniPascal.lexemes_append`: a text behind words, white space and
  symbols.
* `MiniPascal.pieces_space_append`: a text behind a space.
* `MiniPascal.pieces_literal_append`: the pieces of a text behind a string between quotes.
* `MiniPascal.lexemes_literal_append`: the lexemes of such a text.
* `MiniPascal.Feed.call_literal`, `MiniPascal.Feed.call_behind_literal`: what the calls give.
-/

namespace MiniPascal

/-! ### Behind words, white space and symbols -/

/-- Whether the terminal is a word, white space or a symbol. -/
def Terminal.isPlain : Terminal → Bool
  | word | blank | symbol _ => true
  | _ => false

namespace Piece

theorem isPlain_measureNumber (rest : Text) : (measureNumber rest).1.isPlain = false := by
  unfold measureNumber
  dsimp only
  split
  · split
    · split <;> rfl
    · split <;> rfl
  · rfl

/-- **A word, white space or a symbol ends where it ended before**, if it does not end with the
text. -/
theorem measure_append {c : CodePoint} {x : Text} (h : (measure c x).1.isPlain = true)
    (hlt : (measure c x).2 < x.length) (t : Text) : measure c (x ++ t) = measure c x := by
  by_cases hdigit : Text.isDigit c = true
  · rw [show measure c x = measureNumber x from if_pos hdigit, isPlain_measureNumber] at h
    cases h
  by_cases hquote : c = .char '\''
  · subst hquote
    rw [measure_quote] at h
    split at h <;> cases h
  have run {p : CodePoint → Bool} (hp : (x.takeWhile p).length < x.length) :
      (x ++ t).takeWhile p = x.takeWhile p := by
    rw [List.takeWhile_append, if_neg (by omega)]
  by_cases halpha : c.isAlpha = true
  · have hmeasure (rest : Text) : measure c rest = (.word, (rest.takeWhile isWordChar).length) := by
      rw [measure, if_neg hdigit, if_neg hquote, if_pos halpha]
    rw [hmeasure] at hlt
    rw [hmeasure, hmeasure, run hlt]
  by_cases hopen : c = .char '\x7b'
  · subst hopen
    rw [measure_brace] at h
    split at h <;> cases h
  by_cases hblank : Text.isBlank c = true
  · rw [measure_blank hblank] at hlt
    rw [measure_blank hblank, measure_blank hblank, run hlt]
  · have hother := measure_other hdigit hquote halpha hopen hblank
    cases x with
    | nil => cases hlt
    | cons d x =>
      rw [hother, hother]
      rfl

end Piece

/-- **The pieces of a text behind words, white space and symbols.** The last of them must not go on in
the text behind it. -/
theorem pieces_append {x t : Text} {ps : List Piece} {q : Piece} (h : pieces x = ps ++ [q])
    (hps : ∀ p ∈ ps, p.terminal.isPlain = true) (hq : pieces (q.text ++ t) = q :: pieces t) :
    pieces (x ++ t) = pieces x ++ pieces t := by
  rw [h]
  induction ps generalizing x with
  | nil =>
    have hx : x = q.text := by
      rw [← flatten_pieces x, h]
      simp
    rw [hx, hq]
    rfl
  | cons p ps ih =>
    rw [List.forall_mem_cons] at hps
    cases x with
    | nil => simp at h
    | cons c x =>
      rw [pieces_cons, List.cons_append, List.cons.injEq] at h
      obtain ⟨rfl, h⟩ := h
      have hlt : (Piece.measure c x).2 < x.length := by
        by_contra hle
        rw [List.drop_of_length_le (by omega), pieces_nil] at h
        simp at h
      rw [List.cons_append, pieces_cons, Piece.measure_append hps.1 hlt,
        List.take_append_of_le_length hlt.le, List.drop_append_of_le_length hlt.le, ih h hps.2,
        List.cons_append, List.cons_append]

/-- **The lexemes of a text behind words, white space and symbols**, which are all on one line. -/
theorem lexemes_append {x t : Text} {ps : List Piece} {q : Piece} (h : pieces x = ps ++ [q])
    (hps : ∀ p ∈ ps, p.terminal.isPlain = true) (hq : pieces (q.text ++ t) = q :: pieces t)
    (hline : x.count (.char '\n') = 0) : lexemes (x ++ t) = lexemes x ++ lexemes t := by
  rw [lexemes, pieces_append h hps hq, lexemesFrom_append, flatten_pieces, hline]
  rfl

/-- A space in front of a text that does not start with white space is a piece. -/
theorem pieces_space_append {t : Text} (ht : ∀ c ∈ t.head?, Text.isBlank c = false) :
    pieces (" " ++ t) = ⟨.blank, " "⟩ :: pieces t := by
  have hblank : Text.isBlank (.char ' ') = true := by decide
  have hrun := Text.takeWhile_run (w := []) (by simp) ht
  show pieces (.char ' ' :: t) = _
  rw [pieces_cons, Piece.measure_blank hblank, ← List.nil_append t, hrun]
  rfl

/-! ### A string between quotes -/

/-- The kind of a string token with the given value. -/
def Token.Kind.ofValue : Text → Token.Kind
  | [c] => .character c
  | s => .string s

theorem Token.Kind.ofValue_of_length_ne {s : Text} (h : s.length ≠ 1) : ofValue s = .string s := by
  match s with
  | [] => rfl
  | [_] => exact absurd rfl h
  | _ :: _ :: _ => rfl

open Piece

/-- The token of a string that is written between quotes. -/
def Token.quoted (line : Nat) (s : Text) : Token := ⟨.ofValue s, line, Piece.literal s⟩

theorem Piece.lexeme?_literal (line : Nat) (s : Text) :
    lexeme? line ⟨.string, Piece.literal s⟩ = some (.token (.quoted line s)) := by
  have hkind : stringKind ((Piece.literal s).drop 1).dropLast = .ofValue s := by
    rw [stringKind, undouble_literal]
    rfl
  rw [lexeme?]
  simp only [hkind]
  rfl

/-- Doubling makes no line ends. -/
theorem Piece.count_literal (s : Text) :
    (Piece.literal s).count (.char '\n') = s.count (.char '\n') := by
  have hdouble : (double s).count (.char '\n') = s.count (.char '\n') := by
    induction s with
    | nil => rfl
    | cons c s ih =>
      by_cases hc : c = .char '\''
      · simp [hc, ih]
      · rw [double_of_ne hc, List.count_cons, List.count_cons, ih]
  simp [Piece.literal, hdouble]

section Literals

variable {r : Text} (s : Text) (hr : r.head? ≠ some (.char '\''))

include hr in
/-- **A string between quotes is a piece**, and the pieces behind it are those of the text that
follows. -/
theorem pieces_literal_append :
    pieces (Piece.literal s ++ r) = ⟨.string, Piece.literal s⟩ :: pieces r := by
  have htext : Piece.literal s ++ r = .char '\'' :: ((double s ++ [.char '\'']) ++ r) := by
    simp [Piece.literal]
  have hclosing : closingQuote? none 0 ((double s ++ [.char '\'']) ++ r) =
      some (double s ++ [CodePoint.char '\'']).length := by
    rw [List.append_assoc, List.singleton_append, closingQuote?_double s hr]
    simp
  rw [htext, pieces_cons, measure_quote, hclosing, List.take_left, List.drop_left]
  rfl

include hr in
/-- **The lexemes of a text behind a string between quotes** are those of the text, further down by the
line ends of the string. -/
theorem lexemes_literal_append :
    lexemes (Piece.literal s ++ r) =
      .token (.quoted 1 s) :: (lexemes r).map (Lexeme.shift (s.count (.char '\n'))) := by
  rw [lexemes, pieces_literal_append s hr, lexemesFrom, lexeme?_literal, lineEnds, count_literal,
    lexemesFrom_add]
  rfl

/-! ### Calls -/

variable (reports reports' : Array Report)

include hr in
/-- The first call gives the string. -/
theorem Feed.call_literal :
    (Feed.ofSource (Piece.literal s ++ r) reports).call 0 = some (.quoted 1 s) := by
  refine Feed.call_of_getElem? (l := .token (.quoted 1 s)) ?_
  rw [ofSource, lexemes_literal_append s hr]
  rfl

include hr in
/-- **The calls behind the first one give the tokens of the text that follows**, further down. -/
theorem Feed.call_behind_literal {k : Nat} (hk : k < (lexemes r).length) :
    (Feed.ofSource (Piece.literal s ++ r) reports).call (k + 1) =
      ((Feed.ofSource r reports').call k).map fun t =>
        { t with line := t.line + s.count (.char '\n') } := by
  have hold : (Feed.ofSource r reports').rest[k]? = some (lexemes r)[k] :=
    List.getElem?_eq_getElem hk
  have hnew : (Feed.ofSource (Piece.literal s ++ r) reports).rest[k + 1]? =
      some ((lexemes r)[k].shift (s.count (.char '\n'))) := by
    rw [ofSource, lexemes_literal_append s hr, List.getElem?_cons_succ, List.getElem?_map,
      List.getElem?_eq_getElem hk]
    rfl
  rw [call_of_getElem? hold, call_of_getElem? hnew]
  cases (lexemes r)[k] <;> rfl

end Literals

/-- **A token with the value of a string is spelled as that string between quotes**, in any text. -/
theorem text_of_call {source s : Text} {reports : Array Report} {k : Nat} {t : Token}
    (h : (Feed.ofSource source reports).call k = some t)
    (hkind : t.kind = .string s ∨ ∃ c, s = [c] ∧ t.kind = .character c) :
    t.text = Piece.literal s := by
  by_cases hk : k < (lexemes source).length
  · have hget : (Feed.ofSource source reports).rest[k]? = some (lexemes source)[k] :=
      List.getElem?_eq_getElem hk
    rw [Feed.call_of_getElem? hget] at h
    have hmem : (lexemes source)[k] ∈ lexemes source := List.getElem_mem hk
    cases hl : (lexemes source)[k] with
    | overlong =>
      rw [hl] at h
      cases h
    | token u =>
      rw [hl] at h hmem
      obtain rfl : u = t := Option.some.inj h
      have hspelled := spelled_of_mem_lexemes hmem
      rcases hkind with hstring | ⟨c, rfl, hcharacter⟩
      · exact hspelled.string s hstring
      · exact hspelled.character c hcharacter
  · rw [Feed.call_of_length_le (by simpa [Feed.ofSource] using hk)] at h
    cases h
    rcases hkind with hstring | ⟨c, -, hcharacter⟩
    · cases hstring
    · cases hcharacter

end MiniPascal

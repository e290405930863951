import MiniPascal.Proofs.Alike
import MiniPascal.Proofs.Text.LetterCase
import MiniPascal.Proofs.Token.Lexeme
import MiniPascal.Proofs.Token.Piece

/-!
# Words in other letters

A folded text is cut where the text is cut, since all that is asked of a character on the way is asked of
its folded form with the same answer. So if a text is **respelled**, that is if letters of its words are
written in the other case, then its pieces are the same but for the spelling of the words; and what a word
is, a reserved word or an identifier, is settled by its capital form, which does not depend on case.

Letters in strings are not respelled, for they are values, nor are those in comments. They are no
different when a text is cut, and so it is the cut of the one text that says where they are.

* `MiniPascal.pieces_fold`: the pieces of a folded text.
* `MiniPascal.Respelled`: a text in which words are respelled.
* `MiniPascal.lexemes_respelled`: the lexemes of such a text.
-/

namespace MiniPascal

open Text

namespace Piece

/-! ### Where a piece ends -/

theorem digitsLength_fold (text : Text) : digitsLength (fold text) = digitsLength text := by
  rw [digitsLength, digitsLength, takeWhile_fold isDigit_fold, length_fold]

theorem dottedLength_fold (best seen : Nat) (afterDigit : Bool) (text : Text) :
    dottedLength best seen afterDigit (fold text) = dottedLength best seen afterDigit text := by
  have hpoint : (CodePoint.char '.').isAlpha = false := by decide
  induction text generalizing best seen afterDigit with
  | nil => rfl
  | cons c text ih =>
    simp only [fold_cons, dottedLength, isDigit_fold, c.fold_eq_iff hpoint, ih]

theorem measureNumber_fold (rest : Text) : measureNumber (fold rest) = measureNumber rest := by
  have hpoint : (CodePoint.char '.').isAlpha = false := by decide
  have hdrop : (fold rest).drop (digitsLength (fold rest)) =
      fold (rest.drop (digitsLength rest)) := by
    rw [digitsLength_fold, drop_fold]
  cases htail : rest.drop (digitsLength rest) with
  | nil =>
    rw [htail] at hdrop
    rw [measureNumber_of_ne (by simp [hdrop]), measureNumber_of_ne (by simp [htail]),
      digitsLength_fold]
  | cons c tail =>
    rw [htail, fold_cons] at hdrop
    by_cases hc : c = .char '.'
    · subst hc
      rw [(CodePoint.char '.').fold_eq_iff hpoint |>.2 rfl] at hdrop
      rw [measureNumber_of_point hdrop, measureNumber_of_point htail]
      simp only [digitsLength_fold, drop_fold, dottedLength_fold, head?_fold hpoint]
    · rw [measureNumber_of_ne (by simp [hdrop, c.fold_eq_iff hpoint, hc]),
        measureNumber_of_ne (by simp [htail, hc]), digitsLength_fold]

theorem closingQuote?_fold (closing : Option Nat) (seen : Nat) (text : Text) :
    closingQuote? closing seen (fold text) = closingQuote? closing seen text := by
  have hletter : (CodePoint.char '\'').isAlpha = false := by decide
  have hquote : (CodePoint.char '\'').fold = .char '\'' := by decide
  fun_induction closingQuote? closing seen text with
  | case1 => rfl
  | case2 _ _ _ ih => rw [fold_cons, fold_cons, hquote, closingQuote?, ih]
  | case3 _ _ rest hnext =>
    rw [fold_cons, hquote]
    refine closingQuote?_quote_of_ne fun hhead => ?_
    obtain ⟨rest', rfl⟩ := List.head?_eq_some_iff.1 ((head?_fold hletter rest).1 hhead)
    exact hnext rest' rfl
  | case4 _ _ c _ _ hc ih =>
    rw [fold_cons, closingQuote?_cons_of_ne ((c.fold_eq_iff hletter).not.2 hc), ih]

theorem ofOne?_fold (c : CodePoint) : Symbol.ofOne? c.fold = Symbol.ofOne? c :=
  CodePoint.apply_fold Symbol.ofOne? (by decide) c

/-- No letter is part of a symbol. -/
theorem ofTwo?_eq_none {c d : CodePoint} (h : c.isAlpha = true ∨ d.isAlpha = true) :
    Symbol.ofTwo? c d = none := by
  unfold Symbol.ofTwo?
  split <;> first | rfl | (revert h; decide)

theorem ofTwo?_fold (c d : CodePoint) : Symbol.ofTwo? c.fold d.fold = Symbol.ofTwo? c d := by
  rcases c.fold_eq_or with hc | ⟨hc, hc'⟩
  · rcases d.fold_eq_or with hd | ⟨hd, hd'⟩
    · rw [hc, hd]
    · rw [ofTwo?_eq_none (.inr hd), ofTwo?_eq_none (.inr hd')]
  · rw [ofTwo?_eq_none (.inl hc), ofTwo?_eq_none (.inl hc')]

theorem isWordChar_fold (c : CodePoint) : isWordChar c.fold = isWordChar c :=
  CodePoint.apply_fold isWordChar (by decide) c

/-- **Pieces end where they do in the folded text**, and are the same. -/
theorem measure_fold (c : CodePoint) (rest : Text) :
    measure c.fold (fold rest) = measure c rest := by
  have hquote := c.fold_eq_iff (show (CodePoint.char '\'').isAlpha = false by decide)
  have hopen := c.fold_eq_iff (show (CodePoint.char '\x7b').isAlpha = false by decide)
  have hclose : (CodePoint.char '\x7d').isAlpha = false := by decide
  have hcontains : (fold rest).contains (.char '\x7d') = rest.contains (.char '\x7d') := by
    rw [Bool.eq_iff_iff, List.contains_iff_mem, List.contains_iff_mem, mem_fold hclose]
  have hbody : (fold rest).takeWhile (· ≠ .char '\x7d') =
      fold (rest.takeWhile (· ≠ .char '\x7d')) :=
    takeWhile_fold (fun d => by rw [decide_eq_decide, Ne, d.fold_eq_iff hclose]) rest
  have htwo : (fold rest).head?.bind (Symbol.ofTwo? c.fold) =
      rest.head?.bind (Symbol.ofTwo? c) := by
    cases rest with
    | nil => rfl
    | cons d rest => exact ofTwo?_fold c d
  simp only [measure, isDigit_fold, measureNumber_fold, hquote, closingQuote?_fold, length_fold,
    c.isAlpha_fold, takeWhile_fold isWordChar_fold, hopen, hcontains, hbody,
    isBlank_fold, takeWhile_fold isBlank_fold, htwo, ofOne?_fold]

/-! ### The pieces of a folded text -/

/-- The piece with its text folded. -/
def fold (p : Piece) : Piece := { p with text := Text.fold p.text }

end Piece

/-- **A folded text has the folded pieces.** -/
theorem pieces_fold (text : Text) : pieces (fold text) = (pieces text).map Piece.fold := by
  induction text using pieces.induct with
  | case1 => simp
  | case2 c rest cut ih =>
    rw [fold_cons, pieces_cons, pieces_cons, Piece.measure_fold, drop_fold, ih, take_fold]
    rfl

/-! ### Respelled words -/

/-- **A text in which words of the given pieces are respelled**: it is made of the same pieces, but the
letters of a word may be in the other case. -/
def Respelled : List Piece → Text → Prop
  | [], text => text = []
  | p :: ps, text =>
    fold (text.take p.text.length) = fold p.text ∧
      (p.terminal = .word ∨ text.take p.text.length = p.text) ∧
      Respelled ps (text.drop p.text.length)

/-- Decided piece by piece. -/
instance decidableRespelled : ∀ ps text, Decidable (Respelled ps text)
  | [], text => inferInstanceAs (Decidable (text = []))
  | p :: ps, text =>
    have := decidableRespelled ps (text.drop p.text.length)
    inferInstanceAs (Decidable (_ ∧ _ ∧ _))

/-- A respelled text has the same folded form. -/
theorem fold_of_respelled {ps : List Piece} {text : Text} (h : Respelled ps text) :
    fold text = fold (ps.flatMap (·.text)) := by
  induction ps generalizing text with
  | nil => rw [show text = [] from h, List.flatMap_nil]
  | cons p ps ih =>
    obtain ⟨hfold, -, hrest⟩ := h
    rw [List.flatMap_cons, fold_append, ← hfold, ← ih hrest, ← fold_append, List.take_append_drop]

/-- The same piece, or a word in other letters. -/
structure Piece.Respells (p p' : Piece) : Prop where
  terminal : p'.terminal = p.terminal
  fold : Text.fold p'.text = Text.fold p.text
  text : p.terminal = .word ∨ p'.text = p.text

theorem respells_of_respelled {ps ps' : List Piece} (h : Respelled ps (ps'.flatMap (·.text)))
    (hfold : ps'.map Piece.fold = ps.map Piece.fold) : List.Forall₂ Piece.Respells ps ps' := by
  induction ps generalizing ps' with
  | nil =>
    obtain rfl := List.map_eq_nil_iff.1 hfold
    exact .nil
  | cons p ps ih =>
    obtain ⟨p', ps', rfl, hp, hps⟩ := List.map_eq_cons_iff.1 hfold
    obtain ⟨hterminal, htext⟩ := Piece.mk.inj hp
    have hlength : p'.text.length = p.text.length := by
      rw [← length_fold, htext, length_fold]
    obtain ⟨-, hword, hrest⟩ := h
    rw [List.flatMap_cons, List.take_left' hlength] at hword
    rw [List.flatMap_cons, List.drop_left' hlength] at hrest
    exact .cons ⟨hterminal, htext, hword⟩ (ih hrest hps)

/-- **The pieces of a respelled text** are those of the text, but for the spelling of words. -/
theorem pieces_respelled {source source' : Text} (h : Respelled (pieces source) source') :
    List.Forall₂ Piece.Respells (pieces source) (pieces source') := by
  refine respells_of_respelled (by rwa [flatten_pieces]) ?_
  rw [← pieces_fold, ← pieces_fold, fold_of_respelled h, flatten_pieces]

/-! ### The lexemes of a respelled text -/

/-- **Spellings that differ in the case of letters only**, on the same lines. -/
def Likeness.caseless : Likeness where
  line := Eq
  text s t := fold s = fold t
  line_refl _ := rfl
  text_refl _ := rfl
  text_minus h := by rw [fold_append, fold_append, h]
  key_eq {s t} h := by rw [SymbolTable.key, ← lowercase_fold, h, lowercase_fold, SymbolTable.key]

theorem wordKind_fold (word : Text) : wordKind (fold word) = wordKind word := by
  rw [wordKind, capitals_fold, wordKind]

theorem Piece.Respells.lexeme? {p p' : Piece} (h : p.Respells p') (line : Nat) :
    Option.Rel (Lexeme.Alike .caseless) (p.lexeme? line) (p'.lexeme? line) := by
  rcases h.text with hword | htext
  · have hkind : wordKind p.text = wordKind p'.text := by
      rw [← wordKind_fold, ← h.fold, wordKind_fold]
    unfold Piece.lexeme?
    rw [h.terminal, hword]
    exact .some (.token ⟨hkind, rfl, h.fold.symm⟩)
  · have hsame : p' = p := by
      have hterminal := h.terminal
      cases p
      cases p'
      simp_all
    rw [hsame]
    cases p.lexeme? line with
    | none => exact .none
    | some l => exact .some l.alike_self

theorem lexemesFrom_respelled {ps ps' : List Piece} (h : List.Forall₂ Piece.Respells ps ps')
    (line : Nat) :
    List.Forall₂ (Lexeme.Alike .caseless) (lexemesFrom line ps) (lexemesFrom line ps') := by
  induction h generalizing line with
  | nil => exact .nil
  | @cons p p' _ _ hp _ ih =>
    have hlines : p.lineEnds = p'.lineEnds := by
      have hletter : (CodePoint.char '\n').isAlpha = false := by decide
      rw [Piece.lineEnds, Piece.lineEnds, ← count_fold hletter, ← hp.fold, count_fold hletter]
    rw [lexemesFrom, lexemesFrom, hlines]
    exact List.rel_append (forall₂_toList (hp.lexeme? line)) (ih _)

/-- **The lexemes of a respelled text** are of the same kinds and on the same lines. -/
theorem lexemes_respelled {source source' : Text} (h : Respelled (pieces source) source') :
    List.Forall₂ (Lexeme.Alike .caseless) (lexemes source) (lexemes source') :=
  lexemesFrom_respelled (pieces_respelled h) 1

end MiniPascal

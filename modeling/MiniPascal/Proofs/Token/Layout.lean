import MiniPascal.Proofs.Token.Lexeme
import MiniPascal.Proofs.Token.Piece

/-!
# Layout between tokens

White space and comments may be put in front of any token, and the tokens stay what they are. It is not
obvious that they do, because what a piece is depends on how the text goes on behind it: a point makes
a number a real unless another point follows, a quote ends a string unless another quote follows, and
symbols of two characters go before those of one. What makes it true is that **layout starts with a
character that continues nothing**, a blank or an opening brace. So every piece in front of it ends
where it ended before (`MiniPascal.Piece.measure_insert`), but for white space, which goes on.

There are two traps. A string may end in front of a quote, if the quotes up to the end of the text make
it so; but what comes next then takes the rest of the text, and no other token starts in it. And an
opening brace without a closing one is a stray character, which the closing brace of an inserted comment
would turn into the start of a comment: so comments are inserted only if no character is stray.

* `MiniPascal.IsGap`: the layout that is inserted.
* `MiniPascal.Cut.insert`: the pieces of a text with an insertion.
* `MiniPascal.lexemes_insert`: the lexemes of a text with an insertion.
-/

namespace MiniPascal

/-! ### Characters that start layout -/

namespace Text

theorem isBlank_eq_false {c : CodePoint} (h : ∀ r ∈ blanks, c.toNat < r.1 ∨ r.2 < c.toNat) :
    isBlank c = false := by
  simp only [isBlank, Ranges.holds, List.any_eq_false, Bool.and_eq_true, decide_eq_true_eq]
  intro r hr
  have := h r hr
  omega

/-- No digit of any script is a blank. -/
theorem isBlank_of_isDigit {c : CodePoint} (h : isDigit c = true) : isBlank c = false := by
  have hapart : ∀ z ∈ zeros, ∀ r ∈ blanks, z + 9 < r.1 ∨ r.2 < z := by decide
  simp only [isDigit, digitValue?, Option.isSome_map, List.find?_isSome, Bool.and_eq_true,
    decide_eq_true_eq] at h
  obtain ⟨z, hz, hle⟩ := h
  refine isBlank_eq_false fun r hr => ?_
  have := hapart z hz r hr
  omega

/-- No letter or digit of ASCII is a blank. -/
theorem isBlank_of_isAlphanum {c : CodePoint} (h : c.isAlphanum = true) : isBlank c = false := by
  have hapart : ∀ r ∈ blanks, r.2 < 48 ∨ 122 < r.1 := by decide
  cases c with
  | surrogate => cases h
  | char c =>
    have hc : 48 ≤ c.toNat ∧ c.toNat ≤ 122 := by
      have hcases : (decide (c.val ≥ 'A'.val ∧ c.val ≤ 'Z'.val) ||
          (decide (c.val ≥ 'a'.val) && decide (c.val ≤ 'z'.val)) ||
          (decide (c.val ≥ '0'.val) && decide (c.val ≤ '9'.val))) = true := h
      have hval : c.val.toNat = c.toNat := rfl
      simp [UInt32.le_iff_toNat_le] at hcases
      omega
    refine isBlank_eq_false fun r hr => ?_
    have := hapart r hr
    simp only [CodePoint.toNat]
    omega

theorem isBlank_of_isAlpha {c : CodePoint} (h : c.isAlpha = true) : isBlank c = false := by
  refine isBlank_of_isAlphanum ?_
  cases c with
  | surrogate => cases h
  | char c =>
    simp only [CodePoint.isAlpha, CodePoint.isAlphanum, Char.isAlphanum] at h ⊢
    simp [h]

/-- **The characters that start layout**: a blank or an opening brace. -/
def startsLayout (c : CodePoint) : Bool := isBlank c || c = .char '\x7b'

/-- What starts layout continues nothing. -/
theorem of_startsLayout {c : CodePoint} (h : startsLayout c = true) :
    isDigit c = false ∧ Piece.isWordChar c = false ∧ c ≠ .char '.' ∧ c ≠ .char '\'' ∧
      ∀ d, Symbol.ofTwo? d c = none := by
  simp only [startsLayout, Bool.or_eq_true, decide_eq_true_eq] at h
  rcases h with h | rfl
  · refine ⟨?_, ?_, ?_, ?_, ?_⟩
    · rw [← Bool.not_eq_true]
      intro hd
      rw [isBlank_of_isDigit hd] at h
      cases h
    · rw [← Bool.not_eq_true]
      intro hd
      simp only [Piece.isWordChar, Bool.or_eq_true, decide_eq_true_eq] at hd
      rcases hd with hd | rfl
      · rw [isBlank_of_isAlphanum hd] at h
        cases h
      · revert h
        decide
    · rintro rfl
      revert h
      decide
    · rintro rfl
      revert h
      decide
    · intro d
      unfold Symbol.ofTwo?
      split <;> first | rfl | (revert h; decide)
  · refine ⟨by decide, by decide, by decide, by decide, fun d => ?_⟩
    unfold Symbol.ofTwo?
    split <;> simp_all

end Text

namespace Piece

variable {x t u : Text} {w : CodePoint} (hw : Text.startsLayout w = true)

/-! ### Runs -/

/-- A run that ends within `x` ends there whatever follows, and so does one that ends with `x` if what
follows does not go on with it. -/
theorem takeWhile_insert {p : CodePoint → Bool}
    (hp : ((x ++ t).takeWhile p).length = x.length → p w = false)
    (hle : ((x ++ t).takeWhile p).length ≤ x.length) :
    (x ++ w :: u).takeWhile p = (x ++ t).takeWhile p := by
  induction x with
  | nil =>
    have hnil : t.takeWhile p = [] := List.eq_nil_of_length_eq_zero (by simpa using hle)
    simp [hp (by simp [hnil]), hnil]
  | cons c x ih =>
    by_cases hc : p c = true
    · simp only [List.cons_append, List.takeWhile_cons_of_pos hc, List.length_cons] at hp hle ⊢
      rw [ih (fun h => hp (by omega)) (by omega)]
    · simp [hc]

/-! ### Numbers -/

theorem dottedLength_eq_or (best seen : Nat) (afterDigit : Bool) (text : Text) :
    dottedLength best seen afterDigit text = best ∨
      seen < dottedLength best seen afterDigit text := by
  fun_induction dottedLength best seen afterDigit text with
  | case1 => exact .inl rfl
  | case2 _ _ _ _ _ _ ih => omega
  | case3 _ _ _ _ _ _ _ ih => omega
  | case4 => exact .inl rfl

include hw in
theorem dottedLength_insert {best seen : Nat} {afterDigit : Bool} (hbest : best ≤ seen)
    (hle : dottedLength best seen afterDigit (x ++ t) ≤ seen + x.length) :
    dottedLength best seen afterDigit (x ++ w :: u) =
      dottedLength best seen afterDigit (x ++ t) := by
  obtain ⟨hdigit, -, hpoint, -⟩ := Text.of_startsLayout hw
  induction x generalizing best seen afterDigit with
  | nil =>
    have hstop : dottedLength best seen afterDigit (w :: u) = best := by
      simp [dottedLength, hdigit, hpoint]
    rcases dottedLength_eq_or best seen afterDigit t with h | h
    · rw [List.nil_append, List.nil_append, hstop, h]
    · simp at hle
      omega
  | cons c x ih =>
    simp only [List.cons_append, dottedLength, List.length_cons] at hle ⊢
    split
    · rename_i hc
      rw [if_pos hc] at hle
      exact ih (by omega) (by omega)
    · rename_i hc
      rw [if_neg hc] at hle
      split
      · rename_i hc'
        rw [if_pos hc'] at hle
        exact ih (by omega) (by omega)
      · rfl

include hw in
theorem digitsLength_insert (hle : digitsLength (x ++ t) ≤ x.length) :
    digitsLength (x ++ w :: u) = digitsLength (x ++ t) :=
  congrArg List.length (takeWhile_insert (fun _ => (Text.of_startsLayout hw).1) hle)

include hw in
/-- What is behind a point ends where it ended before. -/
theorem fraction_insert
    (hle : digitsLength (x ++ t) +
      dottedLength 0 0 true ((x ++ t).drop (digitsLength (x ++ t))) ≤ x.length) :
    digitsLength (x ++ w :: u) = digitsLength (x ++ t) ∧
      dottedLength 0 0 true ((x ++ w :: u).drop (digitsLength (x ++ t))) =
        dottedLength 0 0 true ((x ++ t).drop (digitsLength (x ++ t))) := by
  have hdigits : digitsLength (x ++ t) ≤ x.length := by omega
  refine ⟨digitsLength_insert hw hdigits, ?_⟩
  rw [List.drop_append_of_le_length hdigits] at hle
  rw [List.drop_append_of_le_length hdigits, List.drop_append_of_le_length hdigits]
  refine dottedLength_insert hw (Nat.le_refl 0) ?_
  rw [List.length_drop]
  omega

include hw in
/-- **A number ends where it ended before**, unless the point behind it is parted from another one. -/
theorem measureNumber_insert (hle : (measureNumber (x ++ t)).2 ≤ x.length)
    (hpoints : x.drop (measureNumber (x ++ t)).2 = [.char '.'] → t.head? ≠ some (.char '.')) :
    measureNumber (x ++ w :: u) = measureNumber (x ++ t) := by
  obtain ⟨hdigit, -, hpoint, -⟩ := Text.of_startsLayout hw
  have hwhole := Nat.le_trans (digitsLength_le_measureNumber _) hle
  have hdigits := digitsLength_insert (u := u) hw hwhole
  have hold : (x ++ t).drop (digitsLength (x ++ t)) = x.drop (digitsLength (x ++ t)) ++ t :=
    List.drop_append_of_le_length hwhole
  have hnew : (x ++ w :: u).drop (digitsLength (x ++ w :: u)) =
      x.drop (digitsLength (x ++ t)) ++ w :: u := by
    rw [hdigits]
    exact List.drop_append_of_le_length hwhole
  have hlength := List.length_drop (l := x) (i := digitsLength (x ++ t))
  cases hy : x.drop (digitsLength (x ++ t)) with
  | nil =>
    -- the digits go up to the insertion, and so does the number
    rw [hy] at hnew hlength
    rw [measureNumber_of_ne (by simp [hnew, hpoint]), hdigits,
      measureNumber_of_le (by rw [List.length_nil] at hlength; omega)]
  | cons d y =>
    rw [hy, List.cons_append] at hold hnew
    rw [hy, List.length_cons] at hlength
    by_cases hd : d = .char '.'
    · subst hd
      rw [measureNumber_of_point hold] at hle hpoints ⊢
      rw [measureNumber_of_point hnew, hdigits]
      by_cases hzero : digitsLength (y ++ t) = 0
      · have hzero' : digitsLength (y ++ w :: u) = 0 := by
          rw [digitsLength_insert (t := t) hw (by omega), hzero]
        rw [if_pos hzero] at hpoints ⊢
        rw [if_pos hzero']
        cases y with
        | cons d y => rfl
        | nil =>
          -- only a second point is of any interest, and the two are not parted
          have ht : t.head? ≠ some (.char '.') := fun ht => by
            rw [List.nil_append, if_pos ht] at hpoints
            exact hpoints hy ht
          simp [ht, hpoint]
      · rw [if_neg hzero] at hle ⊢
        obtain ⟨hfraction, hgroups⟩ := fraction_insert (x := y) (t := t) (u := u) hw (by
          split at hle <;> simp only at hle <;> omega)
        rw [hfraction, if_neg hzero, hgroups]
    · rw [measureNumber_of_ne (by simp [hnew, hd]), measureNumber_of_ne (by simp [hold, hd]), hdigits]

/-! ### Strings -/

include hw in
/-- **A string ends where it ended before**, or its end was found behind a quote that no other quote
follows: then that quote is the second one of a pair, and what it starts is not closed. -/
theorem closingQuote?_insert : ∀ (x : Text) {closing : Option Nat} {seen length : Nat},
    closingQuote? closing seen (x ++ t) = some length → length ≤ seen + x.length →
    closingQuote? closing seen (x ++ w :: u) = some length ∨
      closing = some length ∧ .char '\'' ∉ x ++ t ∨
      ∃ y z, x = y ++ .char '\'' :: z ∧ length = seen + y.length ∧ .char '\'' ∉ z ++ t
  | [], _, _, _, h, hle => .inr (.inl (not_mem_of_closingQuote? h (by simpa using hle)))
  | c :: x, closing, seen, length, h, hle => by
    have hquote := (Text.of_startsLayout hw).2.2.2.1
    by_cases hc : c = .char '\''
    · subst hc
      match x with
      | [] =>
        -- what is inserted parts the quote from another one, or from anything else
        have hnew : closingQuote? closing seen (.char '\'' :: w :: u) = some (seen + 1) :=
          closingQuote?_quote_of_ne (by simp [hquote])
        have hlength : length = seen + 1 := by
          by_cases ht : t.head? = some (.char '\'')
          · obtain ⟨t, rfl⟩ : ∃ t', t = .char '\'' :: t' := List.head?_eq_some_iff.1 ht
            obtain ⟨hclosing, -⟩ := not_mem_of_closingQuote?
              (show closingQuote? (some (seen + 1)) (seen + 2) t = some length from h)
              (by simp at hle; omega)
            exact (Option.some.inj hclosing).symm
          · rw [List.cons_append, List.nil_append, closingQuote?_quote_of_ne ht] at h
            exact (Option.some.inj h).symm
        exact .inl (by rw [hlength]; exact hnew)
      | d :: x =>
        by_cases hd : d = .char '\''
        · subst hd
          rcases closingQuote?_insert x
            (show closingQuote? (some (seen + 1)) (seen + 2) (x ++ t) = some length from h)
            (by simp at hle; omega) with hsame | ⟨hclosing, hmem⟩ | ⟨y, z, rfl, hlength, hmem⟩
          · exact .inl hsame
          · exact .inr (.inr ⟨[.char '\''], x, rfl, (Option.some.inj hclosing).symm, hmem⟩)
          · exact .inr (.inr ⟨.char '\'' :: .char '\'' :: y, z, rfl, by simp; omega, hmem⟩)
        · left
          rw [List.cons_append, closingQuote?_quote_of_ne (by simp [hd])] at h ⊢
          exact h
    · rw [List.cons_append, closingQuote?_cons_of_ne hc] at h
      rw [List.cons_append, closingQuote?_cons_of_ne hc]
      rcases closingQuote?_insert x h (by simp at hle; omega) with
        hsame | ⟨hclosing, hmem⟩ | ⟨y, z, rfl, hlength, hmem⟩
      · exact .inl hsame
      · exact .inr (.inl ⟨hclosing, by simpa [Ne.symm hc] using hmem⟩)
      · exact .inr (.inr ⟨c :: y, z, rfl, by simp; omega, hmem⟩)

/-! ### Any piece -/

/-- A blank starts white space. -/
theorem measure_blank {c : CodePoint} (hc : Text.isBlank c = true) (rest : Text) :
    measure c rest = (.blank, (rest.takeWhile Text.isBlank).length) := by
  have hdigit : ¬Text.isDigit c = true := fun h => by simp [Text.isBlank_of_isDigit h] at hc
  have halpha : ¬c.isAlpha = true := fun h => by simp [Text.isBlank_of_isAlpha h] at hc
  have hquote : c ≠ .char '\'' := by
    rintro rfl
    revert hc
    decide
  have hbrace : c ≠ .char '\x7b' := by
    rintro rfl
    revert hc
    decide
  rw [measure, if_neg hdigit, if_neg hquote, if_neg halpha, if_neg hbrace, if_pos hc]

include hw in
/-- A string ends where it ended before, if the piece behind it does not take the rest of the text. -/
theorem measure_quote_insert (ht : t ≠ []) (hle : (measure (.char '\'') (x ++ t)).2 ≤ x.length)
    (hnext : ∀ d y, x.drop (measure (.char '\'') (x ++ t)).2 = d :: y →
      (measure d (y ++ t)).2 ≤ y.length) :
    measure (.char '\'') (x ++ w :: u) = measure (.char '\'') (x ++ t) := by
  have hpos := List.length_pos_iff.2 ht
  rw [measure_quote] at hle hnext
  rw [measure_quote, measure_quote]
  cases hclosing : closingQuote? none 0 (x ++ t) with
  | none =>
    rw [hclosing] at hle
    simp only [List.length_append] at hle
    omega
  | some length =>
    rw [hclosing] at hle hnext
    rcases closingQuote?_insert (u := u) hw x hclosing (by simpa using hle) with
      hsame | ⟨hnone, -⟩ | ⟨y, z, rfl, hlength, hmem⟩
    · rw [hsame]
    · cases hnone
    · -- the piece behind the string takes the rest of the text
      have hrest := hnext (.char '\'') z (by simp [hlength])
      rw [measure_quote, closingQuote?_of_not_mem hmem] at hrest
      simp only [List.length_append] at hrest
      omega

/-- A comment ends where it ended before, and a stray brace remains one. -/
theorem measure_brace_insert (hle : (measure (.char '\x7b') (x ++ t)).2 ≤ x.length)
    (hbrace : .char '\x7d' ∉ x ++ t → .char '\x7d' ∉ x ++ w :: u) :
    measure (.char '\x7b') (x ++ w :: u) = measure (.char '\x7b') (x ++ t) := by
  rw [measure_brace] at hle
  rw [measure_brace, measure_brace]
  by_cases hclosed : .char '\x7d' ∈ x ++ t
  · have hold : (x ++ t).contains (.char '\x7d') = true := by simpa using hclosed
    rw [if_pos hold] at hle
    have hlt : ((x ++ t).takeWhile (· ≠ .char '\x7d')).length + 1 ≤ x.length := hle
    have hx : .char '\x7d' ∈ x := by
      by_contra hx
      have hall : x.takeWhile (· ≠ .char '\x7d') = x :=
        List.takeWhile_eq_self_iff.2 fun d hd => by
          simpa using fun h : d = .char '\x7d' => hx (h ▸ hd)
      rw [List.takeWhile_append, if_pos (by rw [hall]), List.length_append] at hlt
      omega
    have hnew : (x ++ w :: u).contains (.char '\x7d') = true := by simp [hx]
    rw [if_pos hnew, if_pos hold, takeWhile_insert (t := t) (fun h => by omega) (by omega)]
  · rw [if_neg (by simpa using hbrace hclosed), if_neg (by simpa using hclosed)]

include hw in
/-- **A piece ends where it ended before**, if it ends in front of the insertion and so does the piece
behind it, if there is one. White space is left out here, and a brace must not find a new partner. -/
theorem measure_insert {c : CodePoint} (ht : t ≠ [])
    (hle : (measure c (x ++ t)).2 ≤ x.length)
    (hnext : ∀ d y, x.drop (measure c (x ++ t)).2 = d :: y → (measure d (y ++ t)).2 ≤ y.length)
    (hblank : Text.isBlank c = false)
    (hbrace : c = .char '\x7b' → .char '\x7d' ∉ x ++ t → .char '\x7d' ∉ x ++ w :: u) :
    measure c (x ++ w :: u) = measure c (x ++ t) := by
  obtain ⟨-, hword, -, -, htwo⟩ := Text.of_startsLayout hw
  by_cases hdigit : Text.isDigit c = true
  · rw [measure, if_pos hdigit] at hle hnext
    rw [measure, measure, if_pos hdigit, if_pos hdigit]
    refine measureNumber_insert hw hle fun hpoint hpoint' => ?_
    have hdots := hnext _ _ hpoint
    obtain ⟨t, rfl⟩ := List.head?_eq_some_iff.1 hpoint'
    rw [List.nil_append, measure_points] at hdots
    cases hdots
  by_cases hquote : c = .char '\''
  · subst hquote
    exact measure_quote_insert hw ht hle hnext
  by_cases halpha : c.isAlpha = true
  · rw [measure, if_neg hdigit, if_neg hquote, if_pos halpha] at hle
    rw [measure, measure, if_neg hdigit, if_neg hquote, if_pos halpha, if_neg hdigit,
      if_neg hquote, if_pos halpha, takeWhile_insert (fun _ => hword) hle]
  by_cases hopen : c = .char '\x7b'
  · subst hopen
    exact measure_brace_insert hle (hbrace rfl)
  · have hother := measure_other hdigit hquote halpha hopen (by simp [hblank])
    rw [hother] at hle
    rw [hother, hother]
    cases x with
    | cons d x => rfl
    | nil =>
      have hnone : t.head?.bind (Symbol.ofTwo? c) = none := by
        cases htwo : t.head?.bind (Symbol.ofTwo? c) with
        | none => rfl
        | some s =>
          rw [List.nil_append, htwo] at hle
          cases hle
      rw [List.nil_append, List.nil_append, hnone, List.head?_cons, Option.bind_some, htwo]

end Piece

/-! ### The text in front of a token -/

/-- **The text `x` is cut into whole pieces in front of `t`.** -/
inductive Cut (t : Text) : Text → Prop
  | nil : Cut t []
  | cons {c : CodePoint} {x : Text} : (Piece.measure c (x ++ t)).2 ≤ x.length →
    Cut t (x.drop (Piece.measure c (x ++ t)).2) → Cut t (c :: x)

/-- Behind the first piece of a text that is cut there is nothing, or a piece that ends in it. -/
theorem Cut.next {t x : Text} (h : Cut t x) :
    ∀ d y, x = d :: y → (Piece.measure d (y ++ t)).2 ≤ y.length := by
  rintro d y rfl
  cases h with
  | cons hle _ => exact hle

theorem pieces_flatten {text : Text} {before after : List Piece}
    (h : pieces text = before ++ after) :
    text = before.flatMap (·.text) ++ after.flatMap (·.text) := by
  rw [← flatten_pieces text, h, List.flatMap_append]

/-- **Some pieces of a text are cut in front of the others**, which are what the rest is cut into. -/
theorem cut_of_pieces {before after : List Piece} {text : Text}
    (h : pieces text = before ++ after) (hne : after ≠ []) :
    Cut (after.flatMap (·.text)) (before.flatMap (·.text)) ∧
      pieces (after.flatMap (·.text)) = after := by
  induction before generalizing text with
  | nil =>
    rw [List.nil_append] at h
    exact ⟨.nil, by rw [← h, flatten_pieces]⟩
  | cons b before ih =>
    cases text with
    | nil => simp at h
    | cons c rest =>
      rw [pieces_cons, List.cons_append, List.cons.injEq] at h
      obtain ⟨rfl, h⟩ := h
      obtain ⟨hcut, hafter⟩ := ih h
      have hle : (Piece.measure c rest).2 ≤ rest.length := by
        by_contra hlt
        rw [List.drop_of_length_le (by omega), pieces_nil, eq_comm, List.append_eq_nil_iff] at h
        exact hne h.2
      have hrest : rest = (rest.take (Piece.measure c rest).2 ++ before.flatMap (·.text)) ++
          after.flatMap (·.text) := by
        rw [List.append_assoc, ← pieces_flatten h, List.take_append_drop]
      have htake : (rest.take (Piece.measure c rest).2).length = (Piece.measure c rest).2 :=
        List.length_take_of_le hle
      refine ⟨?_, hafter⟩
      rw [List.flatMap_cons, List.cons_append]
      refine .cons ?_ ?_ <;> rw [← hrest]
      · rw [List.length_append, htake]
        exact Nat.le_add_right _ _
      · rwa [List.drop_left' htake]

/-! ### Layout that is inserted -/

/-- **Layout**: white space, or a comment. -/
inductive IsGap : Text → Prop
  | blank {w : Text} : w ≠ [] → (∀ c ∈ w, Text.isBlank c = true) → IsGap w
  | comment {body : Text} : .char '\x7d' ∉ body →
    IsGap (.char '\x7b' :: (body ++ [.char '\x7d']))

theorem IsGap.exists_cons {w : Text} (h : IsGap w) :
    ∃ d w', w = d :: w' ∧ Text.startsLayout d = true := by
  cases h with
  | blank hne hblank =>
    obtain ⟨d, w, rfl⟩ := List.exists_cons_of_ne_nil hne
    exact ⟨d, w, rfl, by simp [Text.startsLayout, hblank d List.mem_cons_self]⟩
  | comment => exact ⟨_, _, rfl, by decide⟩

/-- Layout in front of what is no blank is a piece of its own. -/
theorem IsGap.pieces_append {w t : Text} (h : IsGap w)
    (ht : ∀ c ∈ t.head?, Text.isBlank c = false) :
    ∃ terminal, Piece.isToken ⟨terminal, w⟩ = false ∧ pieces (w ++ t) = ⟨terminal, w⟩ :: pieces t := by
  cases h with
  | blank hne hblank =>
    obtain ⟨d, w, rfl⟩ := List.exists_cons_of_ne_nil hne
    rw [List.forall_mem_cons] at hblank
    refine ⟨.blank, rfl, ?_⟩
    rw [List.cons_append, pieces_cons, Piece.measure_blank hblank.1, Text.takeWhile_run hblank.2 ht]
    simp
  | @comment body hbody =>
    refine ⟨.comment, rfl, ?_⟩
    have hrun : (body ++ .char '\x7d' :: t).takeWhile (· ≠ .char '\x7d') = body := by
      have hall : ∀ c ∈ body, decide (c ≠ .char '\x7d') = true := by
        intro c hc
        rw [decide_eq_true_iff]
        rintro rfl
        exact hbody hc
      rw [List.takeWhile_append_of_pos hall]
      simp
    have hlength : (body ++ [CodePoint.char '\x7d']).length = body.length + 1 := by simp
    have hsplit : body ++ .char '\x7d' :: t = (body ++ [.char '\x7d']) ++ t := by simp
    rw [List.cons_append, ← hsplit, pieces_cons, Piece.measure_brace, if_pos (by simp), hrun, hsplit,
      List.take_left' hlength, List.drop_left' hlength]

theorem lexemesFrom_of_not_isToken {p : Piece} (h : p.isToken = false) (line : Nat) :
    lexemesFrom line [p] = [] := by
  rw [← p.isSome_lexeme? line, Option.isSome_eq_false_iff, Option.isNone_iff_eq_none] at h
  simp [lexemesFrom, h]

/-- What becomes of a text `x` that is cut in front of `t` when `w` is inserted between them: the same
lexemes, and `t` is cut as before. -/
structure Inserted (x w t : Text) (before before' : List Piece) : Prop where
  old : pieces (x ++ t) = before ++ pieces t
  new : pieces (x ++ (w ++ t)) = before' ++ pieces t
  text : before.flatMap (·.text) = x
  text' : before'.flatMap (·.text) = x ++ w
  lexemes : ∀ line, lexemesFrom line before' = lexemesFrom line before

/-- A piece that ends where it ended before. -/
theorem Inserted.cons {c : CodePoint} {x w t : Text} {before before' : List Piece}
    (hle : (Piece.measure c (x ++ t)).2 ≤ x.length)
    (hsame : Piece.measure c (x ++ (w ++ t)) = Piece.measure c (x ++ t))
    (h : Inserted (x.drop (Piece.measure c (x ++ t)).2) w t before before') :
    Inserted (c :: x) w t
      (⟨(Piece.measure c (x ++ t)).1, c :: x.take (Piece.measure c (x ++ t)).2⟩ :: before)
      (⟨(Piece.measure c (x ++ t)).1, c :: x.take (Piece.measure c (x ++ t)).2⟩ :: before') := by
  refine ⟨?_, ?_, ?_, ?_, fun line => ?_⟩
  · rw [List.cons_append, pieces_cons, List.take_append_of_le_length hle,
      List.drop_append_of_le_length hle, h.old, List.cons_append]
  · rw [List.cons_append, pieces_cons, hsame, List.take_append_of_le_length hle,
      List.drop_append_of_le_length hle, h.new, List.cons_append]
  · rw [List.flatMap_cons, h.text, List.cons_append, List.take_append_drop]
  · rw [List.flatMap_cons, h.text', List.cons_append, ← List.append_assoc, List.take_append_drop,
      List.cons_append]
  · rw [lexemesFrom, lexemesFrom, h.lexemes]

/-- White space that goes on into the white space that is inserted. -/
theorem inserted_blank {c : CodePoint} {x w t : Text} (hc : Text.isBlank c = true)
    (hx : ∀ d ∈ x, Text.isBlank d = true) (hw : ∀ d ∈ w, Text.isBlank d = true)
    (ht : ∀ d ∈ t.head?, Text.isBlank d = false) :
    Inserted (c :: x) w t [⟨.blank, c :: x⟩] [⟨.blank, c :: (x ++ w)⟩] := by
  have hpieces {y : Text} (hy : ∀ d ∈ y, Text.isBlank d = true) :
      pieces (c :: (y ++ t)) = ⟨.blank, c :: y⟩ :: pieces t := by
    rw [pieces_cons, Piece.measure_blank hc, Text.takeWhile_run hy ht]
    simp
  refine ⟨hpieces hx, ?_, by simp, by simp, fun line => ?_⟩
  · rw [List.cons_append, ← List.append_assoc]
    exact hpieces (by simpa [or_imp, forall_and] using ⟨hx, hw⟩)
  · rw [lexemesFrom_of_not_isToken rfl, lexemesFrom_of_not_isToken rfl]

/-- **Layout may be inserted where a text is cut.** A comment may be inserted only if nothing in front of
it is stray. -/
theorem Cut.insert {x w t : Text} (h : Cut t x) (hne : t ≠ [])
    (ht : ∀ c ∈ t.head?, Text.isBlank c = false) (hw : IsGap w)
    (hstray : .char '\x7d' ∈ w → ∀ p ∈ pieces (x ++ t), p.terminal ≠ .stray) :
    ∃ before before', Inserted x w t before before' := by
  induction h with
  | nil =>
    obtain ⟨terminal, htoken, hpieces⟩ := hw.pieces_append ht
    refine ⟨[], [⟨terminal, w⟩], ⟨rfl, hpieces, rfl, by simp, fun line => ?_⟩⟩
    rw [lexemesFrom_of_not_isToken htoken]
    rfl
  | @cons c x hle hcut ih =>
    have hdrop : pieces (x.drop (Piece.measure c (x ++ t)).2 ++ t) =
        pieces ((x ++ t).drop (Piece.measure c (x ++ t)).2) := by
      rw [List.drop_append_of_le_length hle]
    obtain ⟨before, before', hinserted⟩ := ih fun hclose p hp =>
      hstray hclose p (by rw [List.cons_append, pieces_cons, ← hdrop]; exact List.mem_cons_of_mem _ hp)
    have same (hsame : Piece.measure c (x ++ (w ++ t)) = Piece.measure c (x ++ t)) :
        ∃ before before', Inserted (c :: x) w t before before' := ⟨_, _, hinserted.cons hle hsame⟩
    obtain ⟨d, w', rfl, hd⟩ := hw.exists_cons
    by_cases hc : Text.isBlank c = true
    · have hrun (s : Text) := Piece.measure_blank hc s
      rw [hrun] at hle
      by_cases hend : ((x ++ t).takeWhile Text.isBlank).length = x.length ∧ Text.isBlank d = true
      · -- the white space goes up to the insertion, and on
        obtain ⟨hlength, hblank⟩ := hend
        have hx : ∀ e ∈ x, Text.isBlank e = true := by
          have htake : (x ++ t).takeWhile Text.isBlank = x :=
            (List.prefix_of_prefix_length_le (List.takeWhile_prefix _) (List.prefix_append x t)
              hlength.le).eq_of_length hlength
          exact fun e he => List.mem_takeWhile_imp (htake.symm ▸ he)
        cases hw with
        | blank _ hw => exact ⟨_, _, inserted_blank hc hx hw ht⟩
        | comment => exact absurd hblank (by decide)
      · refine same ?_
        rw [hrun, hrun]
        have htake := Piece.takeWhile_insert (u := w' ++ t) (w := d)
          (fun h => by simpa [h] using hend) hle
        rw [List.cons_append, htake]
    · refine same (Piece.measure_insert hd hne hle hcut.next (by simpa using hc) ?_)
      rintro rfl hopen hmem
      have hclose : .char '\x7d' ∈ d :: w' := by
        have hmem' : .char '\x7d' ∈ x ++ (d :: w' ++ t) := hmem
        simp only [List.mem_append] at hmem' hopen
        rcases hmem' with hx | hw | ht
        · exact absurd (.inl hx) hopen
        · exact hw
        · exact absurd (.inr ht) hopen
      -- without a partner the brace is stray, which is excluded
      have hstart : Piece.measure (.char '\x7b') (x ++ t) = (.stray, 0) := by
        rw [Piece.measure_brace, if_neg (by simpa using hopen)]
      exact hstray hclose ⟨.stray, [.char '\x7b']⟩
        (by rw [List.cons_append, pieces_cons, hstart]; exact List.mem_cons_self) rfl

/-! ### The lexemes behind an insertion -/

/-- The lexeme with its line moved down. -/
def Lexeme.shift (n : Nat) : Lexeme → Lexeme
  | token t => token { t with line := t.line + n }
  | overlong => overlong

theorem Piece.lexeme?_add (line n : Nat) (p : Piece) :
    p.lexeme? (line + n) = (p.lexeme? line).map (Lexeme.shift n) := by
  unfold lexeme?
  dsimp only
  split
  case h_4 => split <;> rfl
  all_goals rfl

theorem lexemesFrom_add (line n : Nat) (ps : List Piece) :
    lexemesFrom (line + n) ps = (lexemesFrom line ps).map (Lexeme.shift n) := by
  induction ps generalizing line with
  | nil => rfl
  | cons p ps ih =>
    rw [lexemesFrom, lexemesFrom, List.map_append, Nat.add_right_comm, ih, p.lexeme?_add]
    cases p.lexeme? line <;> rfl

/-- Every piece has its lexeme among those of the text. -/
theorem exists_lexeme?_of_mem (line : Nat) {p : Piece} {ps : List Piece} (h : p ∈ ps) :
    ∃ line', ∀ l ∈ p.lexeme? line', l ∈ lexemesFrom line ps := by
  obtain ⟨before, after, rfl⟩ := List.append_of_mem h
  refine ⟨line + (before.flatMap (·.text)).count (.char '\n'), fun l hl => ?_⟩
  rw [lexemesFrom_append, lexemesFrom]
  simp [Option.mem_def.1 hl]

/-- **What may be inserted** into a text: white space and, if it has no error tokens, comments. -/
inductive Insertable (source : Text) : Text → Prop
  | blank {w : Text} : w ≠ [] → (∀ c ∈ w, Text.isBlank c = true) → Insertable source w
  | comment {body : Text} : .char '\x7d' ∉ body →
    (∀ t, .token t ∈ lexemes source → t.isError = false) →
    Insertable source (.char '\x7b' :: (body ++ [.char '\x7d']))

theorem Insertable.isGap {source w : Text} (h : Insertable source w) : IsGap w := by
  cases h with
  | blank hne hw => exact .blank hne hw
  | comment hbody _ => exact .comment hbody

/-- A comment is only inserted where no character is stray. -/
theorem Insertable.terminal_ne {source w : Text} (h : Insertable source w)
    (hclose : .char '\x7d' ∈ w) : ∀ p ∈ pieces source, p.terminal ≠ .stray := by
  cases h with
  | blank _ hw => exact absurd (hw _ hclose) (by decide)
  | comment _ hclean =>
    intro p hp hstray
    obtain ⟨line, hline⟩ := exists_lexeme?_of_mem 1 hp
    have hlexeme : p.lexeme? line = some (.token ⟨.error .strayCharacter, line, p.text⟩) := by
      unfold Piece.lexeme?
      rw [hstray]
    have := hclean _ (hline _ hlexeme)
    cases this

/-- A token does not start with a blank. -/
theorem isBlank_head?_of_isToken {text : Text} {p : Piece} {after : List Piece}
    (h : pieces text = p :: after) (hp : p.isToken = true) :
    ∀ c ∈ text.head?, Text.isBlank c = false := by
  cases text with
  | nil => simp
  | cons c rest =>
    intro d hd
    obtain rfl : c = d := by simpa using hd
    rw [← Bool.not_eq_true]
    intro hc
    rw [pieces_cons, Piece.measure_blank hc, List.cons.injEq] at h
    obtain ⟨rfl, -⟩ := h
    cases hp

/-- **Layout in front of a token moves the lexemes from there on down**, by as many lines as it has line
ends, and changes nothing else. -/
theorem lexemes_insert {source w : Text} {before after : List Piece} {p : Piece}
    (hsplit : pieces source = before ++ p :: after) (hp : p.isToken = true)
    (hw : Insertable source w) :
    lexemes (before.flatMap (·.text) ++ w ++ (p :: after).flatMap (·.text)) =
      (lexemes source).take (before.countP Piece.isToken) ++
        ((lexemes source).drop (before.countP Piece.isToken)).map
          (Lexeme.shift (w.count (.char '\n'))) := by
  obtain ⟨hcut, hafter⟩ := cut_of_pieces hsplit (by simp)
  have hsource := pieces_flatten hsplit
  have hne : (p :: after).flatMap (·.text) ≠ [] := by
    intro hnil
    rw [hnil, pieces_nil] at hafter
    cases hafter
  obtain ⟨before', new, h⟩ := hcut.insert hne (isBlank_head?_of_isToken hafter hp) hw.isGap
    (by rw [← hsource]; exact hw.terminal_ne)
  obtain rfl : before' = before := by
    have hold := h.old
    rw [← hsource, hsplit, hafter, List.append_cancel_right_eq] at hold
    exact hold.symm
  have hlength := length_lexemesFrom 1 before'
  rw [lexemes, lexemes, List.append_assoc, h.new, hafter, hsplit, lexemesFrom_append,
    lexemesFrom_append, h.lexemes, h.text', List.take_left' hlength, List.drop_left' hlength,
    List.count_append, ← Nat.add_assoc, lexemesFrom_add]

end MiniPascal

import MiniPascal.Proofs.Token.Number

/-!
# Pieces follow the table

A text is not cut by trying patterns: it is cut by its first character, and by what stands behind a run
of digits or between quotes. That this is what the table of terminals asks for has two reasons.
Terminals of different **families** start with different characters, so that only those of one family
compete, and a stray character if there are none. And where numbers or strings compete among themselves,
a run of digits cannot be left halfway, and neither can a pair of quotes: what comes behind it in the
pattern is no part of it, and so the run is the longest one that the text has.

* `MiniPascal.Terminal.Reads.family_eq`: where a terminal can match anything.
* `MiniPascal.Piece.fits_first`: the first piece of a text is the one that the table asks for.
* `MiniPascal.pieces_follow_table`: every piece is the one that the table asks for.
-/

namespace MiniPascal

open Text

/-! ### Families of terminals -/

/-- Terminals that start with the same characters. -/
inductive Family
  | number
  | string
  | word
  | comment
  | blank
  | symbol
deriving DecidableEq

/-- The family of the terminals that start with a character. -/
def Family.of (c : CodePoint) : Family :=
  if isDigit c then .number
  else if c = .char '\'' then .string
  else if c.isAlpha then .word
  else if c = .char '\x7b' then .comment
  else if isBlank c then .blank
  else .symbol

/-- The family of a terminal; a stray character is left to the symbols. -/
def Terminal.family : Terminal → Family
  | malformedNumber | real | integer => .number
  | string | unclosedString => .string
  | word => .word
  | comment => .comment
  | blank => .blank
  | symbol _ | stray => .symbol

namespace Text

/-- No letter is a digit. -/
theorem isDigit_of_isAlpha {c : CodePoint} (h : c.isAlpha = true) : isDigit c = false := by
  have hapart : ∀ z ∈ zeros, z + 9 < 65 ∨ 122 < z := by decide
  have hc : 65 ≤ c.toNat ∧ c.toNat ≤ 122 := by
    cases c with
    | surrogate => cases h
    | char c =>
      have hcases : (decide (c.val ≥ 'A'.val ∧ c.val ≤ 'Z'.val) ||
          (decide (c.val ≥ 'a'.val) && decide (c.val ≤ 'z'.val))) = true := h
      have hval : c.val.toNat = c.toNat := rfl
      simp [UInt32.le_iff_toNat_le] at hcases
      simp only [CodePoint.toNat]
      omega
  rw [← Bool.not_eq_true]
  intro hdigit
  simp only [isDigit, digitValue?, Option.isSome_map, List.find?_isSome, Bool.and_eq_true,
    decide_eq_true_eq] at hdigit
  obtain ⟨z, hz, hle⟩ := hdigit
  have := hapart z hz
  omega

theorem IsRun.isDigit_head {c : CodePoint} {d r rest : Text} (hd : IsRun d) (h : c :: rest = d ++ r) :
    isDigit c = true := by
  obtain ⟨x, d, rfl⟩ := List.exists_cons_of_ne_nil hd.1
  rw [(List.cons.inj h).1]
  exact hd.2 x List.mem_cons_self

end Text

/-- The characters that a symbol starts with start nothing else. -/
theorem Symbol.family_of_spelling {s : Symbol} {c : CodePoint} {cs : Text}
    (h : s.spelling = c :: cs) : Family.of c = .symbol := by
  cases s
  all_goals
    obtain ⟨rfl, -⟩ := List.cons.inj h
    decide

/-- **A terminal is read only where its family starts.** -/
theorem Terminal.Reads.family_eq {t : Terminal} {c : CodePoint} {rest w : Text}
    (h : t.Reads (c :: rest) w) (hne : t ≠ .stray) : t.family = Family.of c := by
  have number (hc : isDigit c = true) : Family.of c = .number := if_pos hc
  obtain ⟨f, hf, hw⟩ := h
  cases t with
  | malformedNumber =>
    obtain ⟨d, e, gs, rfl, hd, -⟩ := matches_malformedNumber_iff.1 hw
    rw [List.append_assoc] at hf
    exact (number (hd.isDigit_head hf)).symm
  | real =>
    obtain ⟨d, v, rfl, hd, -⟩ := matches_real_iff.1 hw
    rw [List.append_assoc] at hf
    exact (number (hd.isDigit_head hf)).symm
  | integer => exact (number ((matches_digits_iff.1 hw).isDigit_head hf)).symm
  | string =>
    obtain ⟨s, rfl⟩ := matches_string_iff.1 hw
    rw [(List.cons.inj hf).1]
    decide
  | unclosedString =>
    obtain ⟨s, rfl⟩ := matches_opened_iff.1 hw
    rw [(List.cons.inj hf).1]
    decide
  | word =>
    obtain ⟨x, cs, rfl, hx, -⟩ := matches_word_iff.1 hw
    obtain rfl : c = x := (List.cons.inj hf).1
    have hquote : c ≠ .char '\'' := by
      rintro rfl
      cases hx
    rw [Family.of, if_neg (by simp [isDigit_of_isAlpha hx]), if_neg hquote, if_pos hx]
    rfl
  | comment =>
    obtain ⟨body, rfl, -⟩ := matches_comment_iff.1 hw
    rw [(List.cons.inj hf).1]
    decide
  | blank =>
    obtain ⟨hne, hall⟩ := Pattern.matches_plus_one_iff.1 hw
    obtain ⟨x, cs, rfl⟩ := List.exists_cons_of_ne_nil hne
    obtain rfl : c = x := (List.cons.inj hf).1
    have hc := hall c List.mem_cons_self
    have hdigit : ¬isDigit c = true := fun h => by simp [isBlank_of_isDigit h] at hc
    have halpha : ¬c.isAlpha = true := fun h => by simp [isBlank_of_isAlpha h] at hc
    have hquote : c ≠ .char '\'' := by
      rintro rfl
      revert hc
      decide
    have hbrace : c ≠ .char '\x7b' := by
      rintro rfl
      revert hc
      decide
    rw [Family.of, if_neg hdigit, if_neg hquote, if_neg halpha, if_neg hbrace, if_pos hc]
    rfl
  | symbol s =>
    obtain rfl := Pattern.matches_exactly_iff.1 hw
    rcases s.spelling_cases with ⟨x, hx, -⟩ | ⟨x, y, hx, -⟩
    · rw [hx] at hf
      rw [(List.cons.inj hf).1, Symbol.family_of_spelling hx]
      rfl
    · rw [hx] at hf
      rw [(List.cons.inj hf).1, Symbol.family_of_spelling hx]
      rfl
  | stray => exact absurd rfl hne

/-! ### Which terminal goes first -/

namespace Terminal

variable {t : Terminal} {c : CodePoint} {rest d r w : Text}

/-- Any other terminal goes before a stray character. -/
theorem goesBefore_stray (h : t ≠ .stray) : t.GoesBefore .stray := by
  left
  cases t with
  | stray => exact absurd rfl h
  | _ => simp [priority]

/-- **Only terminals of one family compete**, and a stray character. -/
theorem goesBefore_of_family {u : Terminal} (hne : u ≠ .stray) (hu : u.family = Family.of c)
    (hfamily : ∀ t w, t.Reads (c :: rest) w → t.family = u.family → t ≠ u → u.GoesBefore t) :
    ∀ t w, t.Reads (c :: rest) w → t ≠ u → u.GoesBefore t := by
  intro t w ht htu
  by_cases hstray : t = .stray
  · rw [hstray]
    exact goesBefore_stray hne
  · exact hfamily t w ht (by rw [ht.family_eq hstray, hu]) htu

/-! ### Numbers -/

/-- The digits of a real are the run at the start of the text. -/
theorem reads_real (h : real.Reads (d ++ r) w) (hd : IsRun d) (hr : NoDigit r) :
    ∃ v f, w = d ++ .char '.' :: v ∧ r = .char '.' :: (v ++ f) ∧
      (IsRun v ∨ v = [] ∧ f.head? ≠ some (.char '.')) := by
  obtain ⟨f, hf, hw⟩ := h
  obtain ⟨d', v, rfl, hd', hv⟩ := matches_real_iff.1 hw
  rw [List.append_assoc, List.cons_append] at hf
  obtain ⟨rfl, rfl⟩ := run_inj hd hd' hr (noDigit_point _) hf
  exact ⟨v, f, rfl, rfl, hv⟩

/-- The digits of a malformed number are the run at the start of the text. -/
theorem reads_malformedNumber (h : malformedNumber.Reads (d ++ r) w) (hd : IsRun d)
    (hr : NoDigit r) :
    ∃ e gs f, w = d ++ .char '.' :: (e ++ groups gs) ∧ r = .char '.' :: (e ++ (groups gs ++ f)) ∧
      IsRun e ∧ gs ≠ [] ∧ ∀ g ∈ gs, IsRun g := by
  obtain ⟨f, hf, hw⟩ := h
  obtain ⟨d', e, gs, rfl, hd', he, hne, hgs⟩ := matches_malformedNumber_iff.1 hw
  rw [List.append_assoc, List.cons_append, List.append_assoc] at hf
  obtain ⟨rfl, rfl⟩ := run_inj hd hd' hr (noDigit_point _) hf
  exact ⟨e, gs, f, rfl, rfl, he, hne, hgs⟩

/-- **Where a run of digits starts, only numbers compete**: a malformed number goes before all others,
and a real before an integer. -/
theorem goesBefore_of_run {u : Terminal} (hd : IsRun d) (hu : u.family = .number)
    (hmalformed : ∀ w, malformedNumber.Reads (d ++ r) w → u = .malformedNumber)
    (hreal : u = .integer → ∀ w, ¬real.Reads (d ++ r) w) :
    ∀ t w, t.Reads (d ++ r) w → t ≠ u → u.GoesBefore t := by
  obtain ⟨c, d, rfl⟩ := List.exists_cons_of_ne_nil hd.1
  have hc : Family.of c = .number := if_pos (hd.2 c List.mem_cons_self)
  refine goesBefore_of_family (by rintro rfl; cases hu) (hu.trans hc.symm)
    fun t w ht hfamily hne => ?_
  rw [hu] at hfamily
  left
  cases t
  case malformedNumber => exact absurd (hmalformed w ht).symm hne
  case real =>
    cases u
    case malformedNumber => decide
    case integer => exact absurd ht (hreal rfl w)
    case real => exact absurd rfl hne
    all_goals cases hu
  case integer =>
    cases u
    case malformedNumber | real => decide
    case integer => exact absurd rfl hne
    all_goals cases hu
  all_goals cases hfamily

end Terminal

namespace Piece

open Terminal

variable {c : CodePoint} {rest d e r t : Text} {gs : List Text}

/-- **The number at the start of a text is the piece that the table asks for.** -/
theorem fits_of_numberAt {text : Text} {p : Piece} (h : NumberAt text p) : p.Fits text := by
  cases h with
  | @integer d r hd hr hbehind =>
    -- behind a point there would have to be a digit, or no second point
    have hnone {v f : Text} (hv : r = .char '.' :: (v ++ f))
        (hv' : IsRun v ∨ v = [] ∧ f.head? ≠ some (.char '.')) : False := by
      rcases hbehind with hpoint | ⟨r', rfl⟩
      · simp [hv] at hpoint
      · have htail : .char '.' :: r' = v ++ f := (List.cons.inj hv).2
        rcases hv' with hv' | ⟨rfl, hf⟩
        · exact hv'.not_noDigit (htail ▸ noDigit_point r')
        · simp [← show .char '.' :: r' = f from htail] at hf
    refine ⟨⟨r, rfl, matches_digits_iff.2 hd⟩, ?_, goesBefore_of_run hd rfl ?_ ?_⟩
    · rintro w ⟨f, hf, hw⟩
      exact length_le_run hd.2 hr (matches_digits_iff.1 hw).2 hf
    · intro w hw
      obtain ⟨e, gs, f, -, hr', he, -⟩ := reads_malformedNumber hw hd hr
      exact (hnone hr' (.inl he)).elim
    · intro _ w hw
      obtain ⟨v, f, -, hr', hv⟩ := reads_real hw hd hr
      exact hnone hr' hv
  | @real d e r hd he hr hr' =>
    refine ⟨⟨r, by simp, matches_real_iff.2 ⟨d, e, rfl, hd, .inl he⟩⟩, ?_,
      goesBefore_of_run hd rfl ?_ (by simp)⟩
    · intro w hw
      obtain ⟨v, f, rfl, htail, hv⟩ := reads_real hw hd (noDigit_point _)
      have hle : v.length ≤ e.length := by
        rcases hv with hv | ⟨rfl, -⟩
        · exact length_le_run he.2 hr hv.2 (List.cons.inj htail).2
        · exact Nat.zero_le _
      simpa using hle
    · intro w hw
      obtain ⟨e', gs, f, -, htail, he', hne, hgs⟩ := reads_malformedNumber hw hd (noDigit_point _)
      have hsame := run_inj he he' hr (noDigit_groups hne f) (List.cons.inj htail).2
      exact absurd (hsame.2 ▸ hr') (not_noGroup hne hgs f)
  | @pointed d r hd hr hpoint =>
    refine ⟨⟨r, by simp, matches_real_iff.2 ⟨d, [], rfl, hd, .inr ⟨rfl, hpoint⟩⟩⟩, ?_,
      goesBefore_of_run hd rfl ?_ (by simp)⟩
    · intro w hw
      obtain ⟨v, f, rfl, htail, hv⟩ := reads_real hw hd (noDigit_point _)
      have htail : r = v ++ f := (List.cons.inj htail).2
      rcases hv with hv | ⟨rfl, -⟩
      · exact absurd (htail ▸ hr) hv.not_noDigit
      · exact Nat.le_refl _
    · intro w hw
      obtain ⟨e, gs, f, -, htail, he, -⟩ := reads_malformedNumber hw hd (noDigit_point _)
      have htail : r = e ++ (groups gs ++ f) := (List.cons.inj htail).2
      exact absurd (htail ▸ hr) he.not_noDigit
  | @malformed d e r gs hd he hne hgs hr hr' =>
    refine ⟨⟨r, by simp, matches_malformedNumber_iff.2 ⟨d, e, gs, rfl, hd, he, hne, hgs⟩⟩, ?_,
      goesBefore_of_run hd rfl (fun _ _ => rfl) (by simp)⟩
    intro w hw
    obtain ⟨e', gs', f, rfl, htail, he', hne', hgs'⟩ :=
      reads_malformedNumber hw hd (noDigit_point _)
    obtain ⟨rfl, hsame⟩ := run_inj he he' (noDigit_groups hne r) (noDigit_groups hne' f)
      (List.cons.inj htail).2
    have hle := length_le_groups hgs hr hr' hgs' hsame
    simpa using hle

/-! ### Strings -/

/-- The end of a string is never in front of the one that was found before. -/
theorem le_closingQuote? {closing : Option Nat} {seen k : Nat} {text : Text} (hk : k ∈ closing)
    (hle : k ≤ seen) : ∃ length ∈ closingQuote? closing seen text, k ≤ length := by
  fun_induction closingQuote? closing seen text generalizing k with
  | case1 => exact ⟨k, hk, Nat.le_refl k⟩
  | case2 _ seen _ ih =>
    obtain ⟨length, hlength, hle'⟩ := ih rfl (Nat.le_succ (seen + 1))
    exact ⟨length, hlength, by omega⟩
  | case3 _ seen => exact ⟨seen + 1, rfl, by omega⟩
  | case4 _ _ _ _ _ _ ih => exact ih hk (by omega)

theorem closingQuote?_le {closing : Option Nat} {seen length : Nat} {text : Text}
    (h : closingQuote? closing seen text = some length) :
    closing = some length ∨ length ≤ seen + text.length := by
  fun_induction closingQuote? closing seen text with
  | case1 => exact .inl h
  | case2 _ seen rest ih =>
    right
    rcases ih h with heq | hle
    · obtain rfl := Option.some.inj heq
      simp only [List.length_cons]
      omega
    · simp only [List.length_cons]
      omega
  | case3 =>
    obtain rfl := Option.some.inj h
    simp only [List.length_cons]
    omega
  | case4 _ _ _ _ _ _ ih =>
    refine (ih h).imp id fun hle => ?_
    simp only [List.length_cons]
    omega

/-- A quote behind pairs of quotes is one that may end a string. -/
theorem le_closingQuote?_double (closing : Option Nat) (seen : Nat) (s r : Text) :
    ∃ length ∈ closingQuote? closing seen (double s ++ .char '\'' :: r),
      seen + (double s).length + 1 ≤ length := by
  induction s generalizing closing seen with
  | nil =>
    by_cases hr : r.head? = some (.char '\'')
    · obtain ⟨r, rfl⟩ := List.head?_eq_some_iff.1 hr
      obtain ⟨length, hlength, hle⟩ :
          ∃ length ∈ closingQuote? (some (seen + 1)) (seen + 2) r, seen + 1 ≤ length :=
        le_closingQuote? rfl (Nat.le_succ (seen + 1))
      exact ⟨length, hlength, hle⟩
    · exact ⟨seen + 1, closingQuote?_quote_of_ne hr, Nat.le_refl _⟩
  | cons c s ih =>
    by_cases hc : c = .char '\''
    · obtain ⟨length, hlength, hle⟩ := ih (some (seen + 1)) (seen + 2)
      rw [hc, double_quote]
      exact ⟨length, hlength, by simp only [List.length_cons]; omega⟩
    · obtain ⟨length, hlength, hle⟩ := ih closing (seen + 1)
      rw [double_of_ne hc, List.cons_append, closingQuote?_cons_of_ne hc]
      exact ⟨length, hlength, by simp only [List.length_cons]; omega⟩

theorem double_of_not_mem {s : Text} (h : .char '\'' ∉ s) : double s = s := by
  induction s with
  | nil => rfl
  | cons c s ih =>
    simp only [List.mem_cons, not_or] at h
    rw [double_of_ne (Ne.symm h.1), ih h.2]

/-- A string has an end exactly if there is another quote. -/
theorem closingQuote?_eq_none_iff {text : Text} :
    closingQuote? none 0 text = none ↔ .char '\'' ∉ text := by
  refine ⟨fun h hmem => ?_, closingQuote?_of_not_mem⟩
  obtain ⟨s, r, rfl, hs⟩ := List.eq_append_cons_of_mem hmem
  obtain ⟨length, hlength, -⟩ := le_closingQuote?_double none 0 s r
  rw [double_of_not_mem hs, h] at hlength
  cases hlength

/-- Where a quote starts, only strings compete. -/
theorem goesBefore_of_quote {u : Terminal} (hu : u.family = .string)
    (hstring : ∀ w, Reads .string (.char '\'' :: rest) w → u = .string) :
    ∀ t w, t.Reads (.char '\'' :: rest) w → t ≠ u → u.GoesBefore t := by
  refine goesBefore_of_family (by rintro rfl; cases hu) (hu.trans (by decide))
    fun t w ht hfamily hne => ?_
  rw [hu] at hfamily
  left
  cases t
  case string => exact absurd (hstring w ht).symm hne
  case unclosedString =>
    cases u
    case string => decide
    case unclosedString => exact absurd rfl hne
    all_goals cases hu
  all_goals cases hfamily

/-- **A string that ends at a closing quote.** -/
theorem fits_string {length : Nat} (h : closingQuote? none 0 rest = some length) :
    Fits ⟨.string, .char '\'' :: rest.take length⟩ (.char '\'' :: rest) := by
  have hle : length ≤ rest.length := by
    rcases closingQuote?_le h with hnone | hle
    · cases hnone
    · omega
  have hlength : (rest.take length).length = length := List.length_take_of_le hle
  refine ⟨⟨rest.drop length, by simp, ?_⟩, ?_, goesBefore_of_quote rfl fun _ _ => rfl⟩
  · rcases take_of_closingQuote? h with hnone | ⟨s, n, rfl, hs⟩
    · cases hnone
    · refine matches_string_iff.2 ⟨s, ?_⟩
      rw [Nat.zero_add, hs]
      rfl
  · rintro w ⟨f, hf, hw⟩
    obtain ⟨s, rfl⟩ := matches_string_iff.1 hw
    have hrest : rest = double s ++ .char '\'' :: f := by simpa [literal] using hf
    obtain ⟨length', hlength', hle'⟩ := le_closingQuote?_double none 0 s f
    rw [← hrest, h] at hlength'
    obtain rfl := Option.some.inj hlength'
    rw [List.length_cons, hlength, literal]
    simp only [List.length_append, List.length_cons, List.length_nil]
    omega

/-- **A string without an end.** -/
theorem fits_unclosedString (h : .char '\'' ∉ rest) :
    Fits ⟨.unclosedString, .char '\'' :: rest⟩ (.char '\'' :: rest) := by
  refine ⟨⟨[], by simp, matches_opened_iff.2 ⟨rest, by rw [double_of_not_mem h]⟩⟩, ?_,
    goesBefore_of_quote rfl ?_⟩
  · rintro w ⟨f, hf, -⟩
    rw [hf, List.length_append]
    exact Nat.le_add_right _ _
  · rintro w ⟨f, hf, hw⟩
    obtain ⟨s, rfl⟩ := matches_string_iff.1 hw
    have hrest : rest = double s ++ .char '\'' :: f := by simpa [literal] using hf
    exact absurd (by simp [hrest]) h

/-! ### Words, white space and comments -/

/-- Words, comments and white space have no competitors. -/
theorem goesBefore_of_alone {u : Terminal} (hu : u = .word ∨ u = .comment ∨ u = .blank)
    (hfamily : u.family = Family.of c) :
    ∀ t w, t.Reads (c :: rest) w → t ≠ u → u.GoesBefore t := by
  refine goesBefore_of_family (by rcases hu with rfl | rfl | rfl <;> simp) hfamily
    fun t _ _ ht hne => absurd ?_ hne
  rcases hu with rfl | rfl | rfl <;> cases t <;> first | rfl | cases ht

theorem length_le_takeWhile {p : CodePoint → Bool} {w f : Text} (hw : ∀ c ∈ w, p c = true)
    (h : rest = w ++ f) : w.length ≤ (rest.takeWhile p).length := by
  rw [h, List.takeWhile_append_of_pos hw, List.length_append]
  exact Nat.le_add_right _ _

theorem fits_word (hc : c.isAlpha = true) (hfamily : Family.of c = .word) :
    Fits ⟨.word, c :: rest.takeWhile isWordChar⟩ (c :: rest) := by
  refine ⟨⟨rest.dropWhile isWordChar, by simp, matches_word_iff.2 ⟨c, _, rfl, hc,
    fun d => List.mem_takeWhile_imp⟩⟩, ?_, goesBefore_of_alone (by simp) hfamily.symm⟩
  · rintro w ⟨f, hf, hw⟩
    obtain ⟨x, cs, rfl, -, hcs⟩ := matches_word_iff.1 hw
    exact Nat.succ_le_succ (length_le_takeWhile hcs (List.cons.inj hf).2)

theorem fits_blank (hc : isBlank c = true) (hfamily : Family.of c = .blank) :
    Fits ⟨.blank, c :: rest.takeWhile isBlank⟩ (c :: rest) := by
  have hall : ∀ d ∈ c :: rest.takeWhile isBlank, isBlank d = true :=
    List.forall_mem_cons.2 ⟨hc, fun d => List.mem_takeWhile_imp⟩
  refine ⟨⟨rest.dropWhile isBlank, by simp, Pattern.matches_plus_one_iff.2 ⟨by simp, hall⟩⟩, ?_,
    goesBefore_of_alone (by simp) hfamily.symm⟩
  · rintro w ⟨f, hf, hw⟩
    have hle := length_le_takeWhile (Pattern.matches_plus_one_iff.1 hw).2 hf
    rwa [List.takeWhile_cons_of_pos hc] at hle

theorem fits_comment (h : .char '\x7d' ∈ rest) :
    Fits ⟨.comment, .char '\x7b' :: rest.take ((rest.takeWhile (· ≠ .char '\x7d')).length + 1)⟩
      (.char '\x7b' :: rest) := by
  refine ⟨⟨rest.drop ((rest.takeWhile (· ≠ .char '\x7d')).length + 1), by simp, ?_⟩, ?_,
    goesBefore_of_alone (by simp) rfl⟩
  · refine matches_comment_iff.2 ⟨rest.takeWhile (· ≠ .char '\x7d'), ?_, fun hmem => ?_⟩
    · rw [Text.take_takeWhile_ne h]
    · simpa using List.mem_takeWhile_imp hmem
  · rintro w ⟨f, hf, hw⟩
    obtain ⟨body, rfl, hbody⟩ := matches_comment_iff.1 hw
    have hrest : rest = body ++ .char '\x7d' :: f := by simpa using hf
    have hrun : rest.takeWhile (· ≠ .char '\x7d') = body := by
      rw [hrest]
      refine takeWhile_run (fun d hd => ?_) (by simp)
      simpa using fun heq : d = .char '\x7d' => hbody (heq ▸ hd)
    rw [Text.take_takeWhile_ne h, hrun]

/-! ### Symbols and stray characters -/

variable {s : Symbol}

/-- A symbol of one character, or of that and the next one. -/
theorem reads_symbol {w : Text} (h : Reads (.symbol s) (c :: rest) w) :
    w = s.spelling ∧ (s.spelling = [c] ∧ Symbol.ofOne? c = some s ∨
      ∃ d ∈ rest.head?, s.spelling = [c, d] ∧ Symbol.ofTwo? c d = some s) := by
  obtain ⟨f, hf, hw⟩ := h
  obtain rfl := Pattern.matches_exactly_iff.1 hw
  refine ⟨rfl, ?_⟩
  rcases s.spelling_cases with ⟨x, hx, hone⟩ | ⟨x, y, hx, htwo⟩
  · rw [hx] at hf
    obtain rfl : c = x := (List.cons.inj hf).1
    exact .inl ⟨hx, hone⟩
  · rw [hx] at hf
    obtain rfl : c = x := (List.cons.inj hf).1
    obtain rfl : rest = y :: f := (List.cons.inj hf).2
    exact .inr ⟨y, rfl, hx, htwo⟩

/-- A symbol competes with shorter ones only, if no other is as long or longer. -/
theorem fits_symbol {w : Text} (hread : Reads (.symbol s) (c :: rest) w) (hc : Family.of c = .symbol)
    (hlonger : ∀ s' w', Reads (.symbol s') (c :: rest) w' → s' ≠ s → w'.length < w.length) :
    Fits ⟨.symbol s, w⟩ (c :: rest) := by
  have hw := (reads_symbol hread).1
  refine ⟨hread, fun w' hw' => ?_, goesBefore_of_family (by simp) hc.symm ?_⟩
  · rw [(reads_symbol hw').1, hw]
  · intro t w' ht hfamily hne
    cases t
    case symbol s' =>
      have hlt := hlonger s' w' ht fun heq => hne (heq ▸ rfl)
      rw [hw, (reads_symbol ht).1] at hlt
      exact .inr ⟨s, s', rfl, rfl, hlt⟩
    case stray => exact goesBefore_stray (by simp)
    all_goals cases hfamily

theorem fits_stray (hc : c ≠ .char '\n')
    (hnone : ∀ (t : Terminal) w, t.Reads (c :: rest) w → t = .stray) :
    Fits ⟨.stray, [c]⟩ (c :: rest) := by
  refine ⟨⟨rest, rfl, Pattern.matches_one_iff.2 ⟨c, rfl, by simpa using hc⟩⟩, ?_,
    fun t w ht hne => absurd (hnone t w ht) hne⟩
  rintro w ⟨f, -, hw⟩
  obtain ⟨d, rfl, -⟩ := Pattern.matches_one_iff.1 hw
  exact Nat.le_refl _

/-- A brace without a closing one. -/
theorem fits_brace (h : .char '\x7d' ∉ rest) :
    Fits ⟨.stray, [.char '\x7b']⟩ (.char '\x7b' :: rest) := by
  refine fits_stray (by decide) fun t w ht => ?_
  by_contra hne
  have hfamily : t.family = .comment := ht.family_eq hne
  cases t
  case comment =>
    obtain ⟨f, hf, hw⟩ := ht
    obtain ⟨body, rfl, -⟩ := matches_comment_iff.1 hw
    have hrest : rest = body ++ .char '\x7d' :: f := by simpa using hf
    exact h (by simp [hrest])
  all_goals cases hfamily

/-- The longer symbol, or the shorter one, or a stray character. -/
theorem fits_other (hdigit : ¬isDigit c = true) (hquote : c ≠ .char '\'')
    (halpha : ¬c.isAlpha = true) (hopen : c ≠ .char '\x7b') (hblank : ¬isBlank c = true) :
    (first c rest).Fits (c :: rest) := by
  have hc : Family.of c = .symbol := by
    rw [Family.of, if_neg hdigit, if_neg hquote, if_neg halpha, if_neg hopen, if_neg hblank]
  rw [first, measure_other hdigit hquote halpha hopen hblank]
  cases htwo : rest.head?.bind (Symbol.ofTwo? c) with
  | some s =>
    obtain ⟨d, hd, hs⟩ := Option.bind_eq_some_iff.1 htwo
    obtain ⟨rest, rfl⟩ := List.head?_eq_some_iff.1 hd
    have hspelling := Symbol.spelling_of_ofTwo? hs
    refine fits_symbol ⟨rest, rfl, Pattern.matches_exactly_iff.2 hspelling.symm⟩ hc ?_
    intro s' w hw hne
    obtain ⟨rfl, ⟨hone, -⟩ | ⟨d', hd', -, hs'⟩⟩ := reads_symbol hw
    · simp [hone]
    · obtain rfl : d = d' := by simpa using hd'
      exact absurd (Option.some.inj (hs'.symm.trans hs)) hne
  | none =>
    have hshort {s : Symbol} {w : Text} (hw : Reads (.symbol s) (c :: rest) w) :
        Symbol.ofOne? c = some s := by
      obtain ⟨-, ⟨-, hone⟩ | ⟨d, hd, -, hs⟩⟩ := reads_symbol hw
      · exact hone
      · rw [Option.mem_def.1 hd, Option.bind_some, hs] at htwo
        cases htwo
    cases hone : Symbol.ofOne? c with
    | some s =>
      refine fits_symbol
        ⟨rest, rfl, Pattern.matches_exactly_iff.2 (Symbol.spelling_of_ofOne? hone).symm⟩ hc ?_
      intro s' w hw hne
      exact absurd (Option.some.inj ((hshort hw).symm.trans hone)) hne
    | none =>
      refine fits_stray ?_ fun t w ht => ?_
      · rintro rfl
        exact hblank (by decide)
      · by_contra hne
        have hfamily := (ht.family_eq hne).trans hc
        cases t
        case symbol s =>
          rw [hshort ht] at hone
          cases hone
        case stray => exact hne rfl
        all_goals cases hfamily

/-! ### All pieces -/

/-- **The first piece of a text is the one that the table asks for.** -/
theorem fits_first (c : CodePoint) (rest : Text) : (first c rest).Fits (c :: rest) := by
  by_cases hdigit : isDigit c = true
  · obtain ⟨p, hp⟩ := exists_numberAt rest hdigit
    rw [first_of_numberAt hp]
    exact fits_of_numberAt hp
  by_cases hquote : c = .char '\''
  · subst hquote
    rw [first, measure_quote]
    cases hclosing : closingQuote? none 0 rest with
    | some length => exact fits_string hclosing
    | none =>
      rw [List.take_length]
      exact fits_unclosedString (closingQuote?_eq_none_iff.1 hclosing)
  by_cases halpha : c.isAlpha = true
  · have hfamily : Family.of c = .word := by
      rw [Family.of, if_neg hdigit, if_neg hquote, if_pos halpha]
    rw [first, measure, if_neg hdigit, if_neg hquote, if_pos halpha,
      ← List.prefix_iff_eq_take.1 (List.takeWhile_prefix _)]
    exact fits_word halpha hfamily
  by_cases hopen : c = .char '\x7b'
  · subst hopen
    rw [first, measure_brace]
    by_cases hclose : .char '\x7d' ∈ rest
    · rw [if_pos (by simpa using hclose)]
      exact fits_comment hclose
    · rw [if_neg (by simpa using hclose)]
      exact fits_brace hclose
  by_cases hblank : isBlank c = true
  · have hfamily : Family.of c = .blank := by
      rw [Family.of, if_neg hdigit, if_neg hquote, if_neg halpha, if_neg hopen, if_pos hblank]
    rw [first, measure_blank hblank, ← List.prefix_iff_eq_take.1 (List.takeWhile_prefix _)]
    exact fits_blank hblank hfamily
  · exact fits_other hdigit hquote halpha hopen hblank

/-- **Which numbers and strings there are**: what the piece at the start of a text is, if the text
starts with a digit or a quote. -/
structure NumbersAndStrings (p : Piece) (text : Text) : Prop where
  /-- Digits that no point follows, or two points. -/
  integer : ∀ d r, text = d ++ r → IsRun d → NoDigit r →
    (r.head? ≠ some (.char '.') ∨ ∃ r', r = .char '.' :: .char '.' :: r') → p = ⟨.integer, d⟩
  /-- Digits, a point and digits that no other point and digit follow. -/
  real : ∀ d e r, text = d ++ .char '.' :: (e ++ r) → IsRun d → IsRun e → NoDigit r → NoGroup r →
    p = ⟨.real, d ++ .char '.' :: e⟩
  /-- Digits and a point that neither a digit nor a point follows. -/
  pointed : ∀ d r, text = d ++ .char '.' :: r → IsRun d → NoDigit r →
    r.head? ≠ some (.char '.') → p = ⟨.real, d ++ [.char '.']⟩
  /-- Digits, a point and digits that a point and a digit follow: all groups that follow are part of
  the piece. -/
  malformed : ∀ d e c r, text = d ++ .char '.' :: (e ++ .char '.' :: c :: r) → IsRun d → IsRun e →
    isDigit c = true → ∃ gs r', .char '.' :: c :: r = groups gs ++ r' ∧ (∀ g ∈ gs, IsRun g) ∧
      NoDigit r' ∧ NoGroup r' ∧ p = ⟨.malformedNumber, d ++ .char '.' :: (e ++ groups gs)⟩
  /-- A quote that no other quote follows, however far behind. -/
  unclosed : ∀ r, text = .char '\'' :: r → (p.terminal = .unclosedString ↔ .char '\'' ∉ r)

theorem numbersAndStrings_first (c : CodePoint) (rest : Text) :
    (first c rest).NumbersAndStrings (c :: rest) := by
  have number {text : Text} {p : Piece} (htext : c :: rest = text) (h : NumberAt text p) :
      first c rest = p := first_of_numberAt (htext ▸ h)
  refine ⟨fun d r htext hd hr hbehind => number htext (.integer hd hr hbehind),
    fun d e r htext hd he hr hr' => number htext (.real hd he hr hr'),
    fun d r htext hd hr hpoint => number htext (.pointed hd hr hpoint), ?_, ?_⟩
  · intro d e x r htext hd he hx
    obtain ⟨gs, r', hr, hgs, hstop, hstop'⟩ := exists_groups _ (noDigit_point (x :: r))
    refine ⟨gs, r', hr, hgs, hstop, hstop', number (htext.trans (by rw [hr])) ?_⟩
    refine .malformed hd he ?_ hgs hstop hstop'
    rintro rfl
    have := hstop' x r hr.symm
    rw [hx] at this
    cases this
  · intro r htext
    obtain ⟨rfl, rfl⟩ := List.cons.inj htext
    rw [← closingQuote?_eq_none_iff, first, measure_quote]
    cases closingQuote? none 0 rest <;> simp

end Piece

/-- **Every piece is the one that the table asks for** at its place, and there is no other one that is
asked for. What this means for numbers and strings is said apart. -/
theorem pieces_follow_table {source : Text} {before after : List Piece} {p : Piece}
    (h : pieces source = before ++ p :: after) :
    ∃ text, source = before.flatMap (·.text) ++ text ∧ (∀ q : Piece, q.Fits text ↔ q = p) ∧
      p.NumbersAndStrings text := by
  have hpieces := (cut_of_pieces h (by simp)).2
  refine ⟨(p :: after).flatMap (·.text), pieces_flatten h, ?_⟩
  cases htext : (p :: after).flatMap (·.text) with
  | nil =>
    rw [htext, pieces_nil] at hpieces
    cases hpieces
  | cons c rest =>
    rw [htext, pieces_cons] at hpieces
    obtain rfl : Piece.first c rest = p := (List.cons.inj hpieces).1
    have hfits := Piece.fits_first c rest
    refine ⟨fun q => ⟨fun hq => hq.unique hfits, ?_⟩, Piece.numbersAndStrings_first c rest⟩
    rintro rfl
    exact hfits

/-- A malformed number ends in front of two points. -/
theorem pieces_follow_table_points :
    pieces "1.2.3..4" =
        [] ++ ⟨.malformedNumber, "1.2.3"⟩ :: [⟨.symbol .dotDot, ".."⟩, ⟨.integer, "4"⟩] ∧
      ∃ text : Text, ("1.2.3..4" : Text) = ([] : List Piece).flatMap (·.text) ++ text ∧
        (∀ q : Piece, q.Fits text ↔ q = ⟨.malformedNumber, "1.2.3"⟩) ∧
        Piece.NumbersAndStrings ⟨.malformedNumber, "1.2.3"⟩ text := by
  have hpieces : pieces "1.2.3..4" =
      [] ++ ⟨.malformedNumber, "1.2.3"⟩ :: [⟨.symbol .dotDot, ".."⟩, ⟨.integer, "4"⟩] := by
    decide +kernel
  exact ⟨hpieces, pieces_follow_table hpieces⟩

end MiniPascal

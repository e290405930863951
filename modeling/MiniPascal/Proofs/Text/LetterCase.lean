import Mathlib.Logic.Basic
import MiniPascal.Text.Blank
import MiniPascal.Text.Capitals
import MiniPascal.Text.Digit
import MiniPascal.Text.Lowercase

/-!
# Texts up to the case of their letters

A text is **folded** by making its ASCII capitals small. What is asked of the characters of a program is
the same for a letter and its folded form, and to see that it is enough to look at 26 letters
(`MiniPascal.CodePoint.apply_fold`). In particular folding changes neither the capital form of a word
nor its lower case. For the latter this takes a look at the letters around: whether a sigma is written
in its final form depends on where words begin and end, and that they do where they did.

* `MiniPascal.CodePoint.fold`, `MiniPascal.Text.fold`: the folded form.
* `MiniPascal.Text.capitals_fold`, `MiniPascal.Text.lowercase_fold`: what folding does not change.
-/

namespace MiniPascal

/-! ### Folded characters -/

namespace CodePoint

/-- **The folded form of a character**: a capital of ASCII becomes small. -/
def fold : CodePoint → CodePoint
  | char c => char c.toLower
  | surrogate offset => surrogate offset

/-- The 26 capitals of ASCII. -/
def capitalLetters : List CodePoint := (List.range 26).map fun n => char (Char.ofNat (65 + n))

/-- Only capitals change when they are folded. -/
theorem mem_capitalLetters_of_fold_ne {c : CodePoint} (h : c.fold ≠ c) : c ∈ capitalLetters := by
  cases c with
  | surrogate => exact absurd rfl h
  | char c =>
    by_cases hrange : 65 ≤ c.toNat ∧ c.toNat ≤ 90
    · refine List.mem_map.2 ⟨c.toNat - 65, List.mem_range.2 (by omega), ?_⟩
      rw [Nat.add_sub_cancel' hrange.1, Char.ofNat_toNat]
    · refine absurd (congrArg char (dif_neg fun hc => hrange ?_)) h
      exact ⟨UInt32.le_iff_toNat_le.1 hc.1, UInt32.le_iff_toNat_le.1 hc.2⟩

/-- **A function that does not tell 26 capitals from their small letters** does not tell any character
from its folded form. -/
theorem apply_fold {β : Type} (f : CodePoint → β) (h : ∀ c ∈ capitalLetters, f c.fold = f c)
    (c : CodePoint) : f c.fold = f c := by
  by_cases hc : c.fold = c
  · rw [hc]
  · exact h c (mem_capitalLetters_of_fold_ne hc)

/-- What is changed is a letter, and remains one. -/
theorem fold_eq_or (c : CodePoint) : c.fold = c ∨ c.isAlpha = true ∧ c.fold.isAlpha = true := by
  have hletters : ∀ c ∈ capitalLetters, c.isAlpha = true ∧ c.fold.isAlpha = true := by decide
  by_cases hc : c.fold = c
  · exact .inl hc
  · exact .inr (hletters c (mem_capitalLetters_of_fold_ne hc))

theorem isAlpha_fold (c : CodePoint) : c.fold.isAlpha = c.isAlpha :=
  apply_fold isAlpha (by decide) c

/-- What is no letter is the folded form of nothing else. -/
theorem fold_eq_iff (c : CodePoint) {d : CodePoint} (hd : d.isAlpha = false) :
    c.fold = d ↔ c = d := by
  rcases c.fold_eq_or with hc | ⟨hc, hc'⟩
  · rw [hc]
  · exact iff_of_false (by rintro rfl; simp [hd] at hc') (by rintro rfl; simp [hd] at hc)

end CodePoint

/-! ### Folded texts -/

namespace Text

/-- **The folded form of a text.** -/
def fold (text : Text) : Text := text.map CodePoint.fold

@[simp] theorem fold_nil : fold [] = [] := rfl

@[simp] theorem fold_cons (c : CodePoint) (text : Text) : fold (c :: text) = c.fold :: fold text := rfl

@[simp] theorem fold_append (s t : Text) : fold (s ++ t) = fold s ++ fold t := List.map_append

@[simp] theorem length_fold (text : Text) : (fold text).length = text.length := List.length_map _

theorem take_fold (n : Nat) (text : Text) : (fold text).take n = fold (text.take n) :=
  List.map_take.symm

theorem drop_fold (n : Nat) (text : Text) : (fold text).drop n = fold (text.drop n) :=
  List.map_drop.symm

theorem isDigit_fold (c : CodePoint) : isDigit c.fold = isDigit c :=
  CodePoint.apply_fold isDigit (by decide +kernel) c

theorem isBlank_fold (c : CodePoint) : isBlank c.fold = isBlank c :=
  CodePoint.apply_fold isBlank (by decide) c

/-- The longest run of characters is as long as before if the condition tells no cases apart. -/
theorem takeWhile_fold {p : CodePoint → Bool} (hp : ∀ c, p c.fold = p c) (text : Text) :
    (fold text).takeWhile p = fold (text.takeWhile p) := by
  rw [fold, fold, List.takeWhile_map, show p ∘ CodePoint.fold = p from funext hp]

theorem dropWhile_fold {p : CodePoint → Bool} (hp : ∀ c, p c.fold = p c) (text : Text) :
    (fold text).dropWhile p = fold (text.dropWhile p) := by
  rw [fold, fold, List.dropWhile_map, show p ∘ CodePoint.fold = p from funext hp]

theorem count_fold {d : CodePoint} (hd : d.isAlpha = false) (text : Text) :
    (fold text).count d = text.count d := by
  induction text with
  | nil => rfl
  | cons c text ih => simp only [fold_cons, List.count_cons, ih, beq_iff_eq, c.fold_eq_iff hd]

theorem head?_fold {d : CodePoint} (hd : d.isAlpha = false) (text : Text) :
    (fold text).head? = some d ↔ text.head? = some d := by
  cases text with
  | nil => simp
  | cons c text => simp [c.fold_eq_iff hd]

theorem mem_fold {d : CodePoint} (hd : d.isAlpha = false) (text : Text) :
    d ∈ fold text ↔ d ∈ text := by
  rw [← List.count_pos_iff, count_fold hd, List.count_pos_iff]

/-! ### Capitals and lower case -/

/-- **The capital form is that of the folded text.** -/
theorem capitals_fold (text : Text) : capitals (fold text) = capitals text := by
  have hform (c : CodePoint) : capitals [c.fold] = capitals [c] :=
    CodePoint.apply_fold (fun c => capitals [c]) (by decide +kernel) c
  induction text with
  | nil => rfl
  | cons c text ih =>
    have hcons (c : CodePoint) (text : Text) : capitals (c :: text) = capitals [c] ++ capitals text := by
      simp [capitals]
    rw [fold_cons, hcons, hcons c, hform, ih]

theorem smallLetter_fold (c : CodePoint) : smallLetter c.fold = smallLetter c :=
  CodePoint.apply_fold smallLetter (by decide +kernel) c

theorem meetsLetter_fold (text : Text) : meetsLetter (fold text) = meetsLetter text := by
  have hmarks (c : CodePoint) : wordMarks.holds c.fold.toNat = wordMarks.holds c.toNat :=
    CodePoint.apply_fold (fun c => wordMarks.holds c.toNat) (by decide +kernel) c
  have hcased (c : CodePoint) : casedLetters.holds c.fold.toNat = casedLetters.holds c.toNat :=
    CodePoint.apply_fold (fun c => casedLetters.holds c.toNat) (by decide +kernel) c
  unfold meetsLetter
  rw [dropWhile_fold hmarks]
  cases text.dropWhile fun c => wordMarks.holds c.toNat with
  | nil => rfl
  | cons c rest => exact hcased c

theorem lowercaseAt_fold (before : Text) (c : CodePoint) (after : Text) :
    lowercaseAt (fold before) c.fold (fold after) = lowercaseAt before c after := by
  simp only [lowercaseAt, meetsLetter_fold, smallLetter_fold,
    c.fold_eq_iff (show (CodePoint.char 'Σ').isAlpha = false by decide),
    c.fold_eq_iff (show (CodePoint.char 'İ').isAlpha = false by decide)]

theorem lowercaseFrom_fold (before text : Text) :
    lowercaseFrom (fold before) (fold text) = lowercaseFrom before text := by
  induction text generalizing before with
  | nil => rfl
  | cons c text ih =>
    rw [fold_cons, lowercaseFrom, lowercaseFrom, lowercaseAt_fold, ← fold_cons, ih]

/-- **The lower case is that of the folded text.** -/
theorem lowercase_fold (text : Text) : lowercase (fold text) = lowercase text :=
  lowercaseFrom_fold [] text

end Text

end MiniPascal

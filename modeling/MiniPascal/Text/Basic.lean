/-!
# Texts

A **text** is a sequence of code points. A code point is a character or a **surrogate**, one of
the 2048 code points that are set aside for halves of pairs. No program text holds a surrogate,
but an escape in a tree document can bring one in that stands alone. It is then a code point like
the others: no other one is equal to it, and it has its place in their order.

* `MiniPascal.CodePoint`: a character or a surrogate, ordered by its number.
* `MiniPascal.Text`: a sequence of code points.
* `MiniPascal.Text.ofString`: fixed words are strings, and become texts where a text is wanted.
-/

namespace MiniPascal

/-! ### Code points -/

/-- An element of a text. -/
inductive CodePoint
  | char (c : Char)
  /-- The surrogate with the given distance from the first one. -/
  | surrogate (offset : Fin 2048)
deriving DecidableEq, Inhabited

namespace CodePoint

/-- The number of the first surrogate. -/
def firstSurrogate : Nat := 0xD800

/-- The number of a code point. -/
def toNat : CodePoint → Nat
  | char c => c.toNat
  | surrogate offset => firstSurrogate + offset.val

/-- The code point of a number. -/
def ofNat (n : Nat) : CodePoint :=
  if h : n - firstSurrogate < 2048 ∧ firstSurrogate ≤ n then surrogate ⟨n - firstSurrogate, h.1⟩
  else char (Char.ofNat n)

/-- The character, or the mark that stands for something that is none. -/
def toChar : CodePoint → Char
  | char c => c
  | surrogate _ => '\uFFFD'

/-- Whether the code point is an ASCII letter. -/
def isAlpha : CodePoint → Bool
  | char c => c.isAlpha
  | surrogate _ => false

/-- Whether the code point is an ASCII letter or digit. -/
def isAlphanum : CodePoint → Bool
  | char c => c.isAlphanum
  | surrogate _ => false

/-- The number of a character is that of no surrogate. -/
theorem toNat_char_ne (c : Char) (offset : Fin 2048) :
    (char c).toNat ≠ (surrogate offset).toNat := by
  have hc := c.valid
  have ho := offset.isLt
  simp only [toNat, firstSurrogate, Char.toNat, UInt32.isValidChar, Nat.isValidChar] at *
  omega

/-- Code points of one number are the same. -/
theorem toNat_inj {a b : CodePoint} (h : a.toNat = b.toNat) : a = b := by
  cases a with
  | char c =>
    cases b with
    | char d => exact congrArg char (Char.toNat_inj.1 h)
    | surrogate k => exact absurd h (toNat_char_ne c k)
  | surrogate j =>
    cases b with
    | char d => exact absurd h.symm (toNat_char_ne d j)
    | surrogate k => exact congrArg surrogate (Fin.ext (Nat.add_left_cancel h))

end CodePoint

/-! ### Sequences of code points -/

/-- A sequence of code points. -/
abbrev Text := List CodePoint

namespace Text

/-- The text of some characters. -/
def ofChars (chars : List Char) : Text := chars.map .char

/-- The text of a string. -/
def ofString (s : String) : Text := ofChars s.toList

instance : Coe String Text := ⟨ofString⟩

/-- The text as a string, with a mark for every surrogate. -/
def toString (text : Text) : String := String.ofList (text.map CodePoint.toChar)

/-- The given number of spaces. -/
def spaces (n : Nat) : Text := List.replicate n (.char ' ')

/-- The lexicographic order of texts, by the numbers of their code points. -/
def compare : Text → Text → Ordering
  | [], [] => .eq
  | [], _ :: _ => .lt
  | _ :: _, [] => .gt
  | a :: s, b :: t =>
    if a.toNat < b.toNat then .lt else if b.toNat < a.toNat then .gt else compare s t

/-- Texts that are equal in the order are the same. -/
theorem compare_eq_iff (s t : Text) : compare s t = .eq ↔ s = t := by
  induction s generalizing t with
  | nil => cases t <;> simp [compare]
  | cons a s ih =>
    cases t with
    | nil => simp [compare]
    | cons b t =>
      rw [compare]
      split
      · rename_i h
        have hne : a ≠ b := fun e => absurd h (by simp [e])
        simp [hne]
      · split
        · rename_i h
          have hne : a ≠ b := fun e => absurd h (by simp [e])
          simp [hne]
        · rename_i h h'
          have e : a = b :=
            CodePoint.toNat_inj (Nat.le_antisymm (Nat.le_of_not_lt h') (Nat.le_of_not_lt h))
          simp [e, ih]

end Text

end MiniPascal

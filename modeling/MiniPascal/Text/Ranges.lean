import MiniPascal.Text.Basic

/-!
# Sets of characters

A class of characters that goes beyond ASCII is given as **ranges of code points**: closed,
in ascending order and apart from each other. The modules beside this one hold one class each
(white space, decimal digits, printable characters, letter case), as defined by version 14 of
the Unicode standard.
-/

namespace MiniPascal.Text

/-- A set of characters as closed ranges of code points, ascending and apart. -/
abbrev Ranges := List (Nat × Nat)

/-- Whether one of the ranges holds the code point. -/
def Ranges.holds (ranges : Ranges) (point : Nat) : Bool :=
  ranges.any fun range => range.1 ≤ point && point ≤ range.2

@[simp] theorem Ranges.holds_nil (point : Nat) : Ranges.holds [] point = false := rfl

@[simp] theorem Ranges.holds_cons (lo hi : Nat) (ranges : Ranges) (point : Nat) :
    Ranges.holds ((lo, hi) :: ranges) point =
      ((decide (lo ≤ point) && decide (point ≤ hi)) || ranges.holds point) := rfl

end MiniPascal.Text

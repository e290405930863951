import MiniPascal.Proofs.Token.Terminal

/-!
# The number at the start of a text

What a number is depends on what stands behind its digits: a point, or two points, or a point and more
digits, and then perhaps more groups of a point and digits. Every text that starts with a digit starts
with just one of these, and that is its first piece.

* `MiniPascal.Text.exists_groups`: the groups of a point and digits at the start of a text.
* `MiniPascal.Piece.NumberAt`: the number at the start of a text, by what stands behind its digits.
* `MiniPascal.Piece.first_of_numberAt`: it is the first piece of the text.
-/

namespace MiniPascal

open Text

/-! ### Runs of digits and groups -/

namespace Text

/-- A text that starts with a digit starts with a run that nothing goes on with. -/
theorem exists_run {c : CodePoint} (rest : Text) (hc : isDigit c = true) :
    ∃ d r, c :: rest = d ++ r ∧ IsRun d ∧ NoDigit r := by
  refine ⟨(c :: rest).takeWhile isDigit, (c :: rest).dropWhile isDigit,
    List.takeWhile_append_dropWhile.symm, ⟨by simp [hc], fun d => List.mem_takeWhile_imp⟩, ?_⟩
  intro d hd
  have hstop := List.head?_dropWhile_not isDigit (c :: rest)
  rw [Option.mem_def.1 hd] at hstop
  exact hstop

theorem noDigit_groups {gs : List Text} (hne : gs ≠ []) (text : Text) :
    NoDigit (groups gs ++ text) := by
  obtain ⟨g, gs, rfl⟩ := List.exists_cons_of_ne_nil hne
  exact noDigit_point _

theorem not_noGroup {gs : List Text} (hne : gs ≠ []) (hgs : ∀ g ∈ gs, IsRun g) (text : Text) :
    ¬NoGroup (groups gs ++ text) := by
  intro h
  obtain ⟨g, gs, rfl⟩ := List.exists_cons_of_ne_nil hne
  have hg := hgs g List.mem_cons_self
  obtain ⟨c, g, rfl⟩ := List.exists_cons_of_ne_nil hg.1
  have hc := hg.2 c List.mem_cons_self
  rw [h c _ rfl] at hc
  cases hc

/-- **The groups at the start of a text** go on as far as there are any. -/
theorem exists_groups (text : Text) (h : NoDigit text) :
    ∃ gs r, text = groups gs ++ r ∧ (∀ g ∈ gs, IsRun g) ∧ NoDigit r ∧ NoGroup r := by
  by_cases hgroup : NoGroup text
  · exact ⟨[], text, rfl, by simp, h, hgroup⟩
  · simp only [NoGroup, not_forall, Bool.not_eq_false] at hgroup
    obtain ⟨c, rest, rfl, hc⟩ := hgroup
    obtain ⟨d, r, hrest, hd, hr⟩ := exists_run rest hc
    have hlength : r.length < (CodePoint.char '.' :: c :: rest).length := by
      rw [hrest, List.length_cons, List.length_append]
      omega
    obtain ⟨gs, r, rfl, hgs, hr⟩ := exists_groups r hr
    exact ⟨d :: gs, r, by simp [hrest], List.forall_mem_cons.2 ⟨hd, hgs⟩, hr⟩
termination_by text.length

end Text

namespace Piece

open Text

variable {c : CodePoint} {rest d e r t : Text} {gs gs' : List Text}

theorem dottedLength_run (seen : Nat) (hd : ∀ c ∈ d, isDigit c = true) :
    dottedLength seen seen true (d ++ t) =
      dottedLength (seen + d.length) (seen + d.length) true t := by
  induction d generalizing seen with
  | nil => rfl
  | cons c d ih =>
    rw [List.forall_mem_cons] at hd
    rw [List.cons_append, dottedLength, if_pos hd.1, ih _ hd.2, List.length_cons, Nat.add_right_comm,
      Nat.add_assoc]

theorem dottedLength_groups (seen : Nat) (hgs : ∀ g ∈ gs, IsRun g) :
    dottedLength seen seen true (groups gs ++ t) =
      dottedLength (seen + (groups gs).length) (seen + (groups gs).length) true t := by
  induction gs generalizing seen with
  | nil => rfl
  | cons g gs ih =>
    rw [List.forall_mem_cons] at hgs
    obtain ⟨c, g, rfl⟩ := List.exists_cons_of_ne_nil hgs.1.1
    obtain ⟨hc, hg⟩ := List.forall_mem_cons.1 hgs.1.2
    have hpoint : ¬isDigit (.char '.') = true := by decide
    rw [groups_cons, List.cons_append, dottedLength, if_neg hpoint, if_pos (by simp),
      List.cons_append, List.cons_append, dottedLength, if_pos hc, List.append_assoc,
      dottedLength_run _ hg, ih _ hgs.2]
    simp only [List.length_cons, List.length_append]
    congr 1 <;> omega

theorem dottedLength_stop (seen : Nat) (hr : NoDigit r) (hr' : NoGroup r) :
    dottedLength seen seen true r = seen := by
  cases r with
  | nil => rfl
  | cons c r =>
    rw [dottedLength, if_neg (by simp [hr c rfl])]
    split
    · rename_i hc
      obtain rfl : c = .char '.' := by simpa using hc
      cases r with
      | nil => rfl
      | cons d r =>
        rw [dottedLength, if_neg (by simp [hr' d r rfl]), if_neg (by simp)]
    · rfl

/-- No groups at the start of a text are longer than those that nothing goes on with. -/
theorem length_le_groups (hgs : ∀ g ∈ gs, IsRun g) (hr : NoDigit r) (hr' : NoGroup r)
    (hgs' : ∀ g ∈ gs', IsRun g) (h : groups gs ++ r = groups gs' ++ t) :
    (groups gs').length ≤ (groups gs).length := by
  have hlength : dottedLength 0 0 true (groups gs ++ r) = (groups gs).length := by
    rw [dottedLength_groups 0 hgs, Nat.zero_add, dottedLength_stop _ hr hr']
  rw [h, dottedLength_groups 0 hgs', Nat.zero_add] at hlength
  rcases dottedLength_eq_or (groups gs').length (groups gs').length true t with heq | hlt <;> omega

/-! ### The number at the start of a text -/

/-- **The number at the start of a text**, by what stands behind its digits. -/
inductive NumberAt : Text → Piece → Prop
  /-- No point comes behind the digits, or two do. -/
  | integer {d r : Text} : IsRun d → NoDigit r →
    (r.head? ≠ some (.char '.') ∨ ∃ r', r = .char '.' :: .char '.' :: r') →
    NumberAt (d ++ r) ⟨.integer, d⟩
  /-- A point and digits come behind the digits, and no other group. -/
  | real {d e r : Text} : IsRun d → IsRun e → NoDigit r → NoGroup r →
    NumberAt (d ++ .char '.' :: (e ++ r)) ⟨.real, d ++ .char '.' :: e⟩
  /-- A point comes behind the digits, and neither a digit nor a point behind it. -/
  | pointed {d r : Text} : IsRun d → NoDigit r → r.head? ≠ some (.char '.') →
    NumberAt (d ++ .char '.' :: r) ⟨.real, d ++ [.char '.']⟩
  /-- Several groups come behind the digits. -/
  | malformed {d e r : Text} {gs : List Text} : IsRun d → IsRun e → gs ≠ [] → (∀ g ∈ gs, IsRun g) →
    NoDigit r → NoGroup r →
    NumberAt (d ++ .char '.' :: (e ++ (groups gs ++ r)))
      ⟨.malformedNumber, d ++ .char '.' :: (e ++ groups gs)⟩

/-- A digit starts a number. -/
theorem exists_numberAt (rest : Text) (hc : isDigit c = true) : ∃ p, NumberAt (c :: rest) p := by
  obtain ⟨d, r, h, hd, hr⟩ := exists_run rest hc
  rw [h]
  by_cases hpoint : r.head? = some (.char '.')
  · obtain ⟨r, rfl⟩ := List.head?_eq_some_iff.1 hpoint
    cases r with
    | nil => exact ⟨_, .pointed hd (by simp [NoDigit]) (by simp)⟩
    | cons x r =>
      by_cases hx : isDigit x = true
      · obtain ⟨e, r', hrest, he, hr'⟩ := exists_run r hx
        obtain ⟨gs, r, rfl, hgs, hstop, hstop'⟩ := exists_groups r' hr'
        rw [hrest]
        by_cases hnone : gs = []
        · subst hnone
          exact ⟨_, .real hd he hstop hstop'⟩
        · exact ⟨_, .malformed hd he hnone hgs hstop hstop'⟩
      · by_cases hdot : x = .char '.'
        · subst hdot
          exact ⟨_, .integer hd hr (.inr ⟨r, rfl⟩)⟩
        · exact ⟨_, .pointed hd (by simpa [NoDigit] using hx) (by simpa using hdot)⟩
  · exact ⟨_, .integer hd hr (.inl hpoint)⟩

/-- The piece at the start of a text of the given first character and rest. -/
def first (c : CodePoint) (rest : Text) : Piece :=
  ⟨(measure c rest).1, c :: rest.take (measure c rest).2⟩

theorem first_eq {w text : Text} {terminal : Terminal} (hrest : rest = w ++ r)
    (htext : c :: w = text) (h : measure c rest = (terminal, w.length)) :
    first c rest = ⟨terminal, text⟩ := by
  rw [first, h, hrest, List.take_left, htext]

theorem digitsLength_append (hd : ∀ c ∈ d, isDigit c = true) (hr : NoDigit r) :
    digitsLength (d ++ r) = d.length := congrArg List.length (takeWhile_run hd hr)

/-- **The number at the start of a text is its first piece.** -/
theorem first_of_numberAt {p : Piece} (h : NumberAt (c :: rest) p) : first c rest = p := by
  generalize htext : c :: rest = text at h
  -- every number starts with a digit, behind which one looks
  have behind {d r : Text} (hd : IsRun d) (hr : NoDigit r) (h : c :: rest = d ++ r) :
      ∃ d', d = c :: d' ∧ rest = d' ++ r ∧ measure c rest = measureNumber rest ∧
        digitsLength rest = d'.length ∧ rest.drop (digitsLength rest) = r := by
    obtain ⟨x, d, rfl⟩ := List.exists_cons_of_ne_nil hd.1
    obtain ⟨hc, hdigits⟩ := List.forall_mem_cons.1 hd.2
    obtain rfl : c = x := (List.cons.inj h).1
    have hrest : rest = d ++ r := (List.cons.inj h).2
    have hlength : digitsLength rest = d.length := by
      rw [hrest, digitsLength_append hdigits hr]
    exact ⟨d, rfl, hrest, if_pos hc, hlength, by rw [hlength, hrest, List.drop_left]⟩
  cases h with
  | integer hd hr hbehind =>
    obtain ⟨d, rfl, hrest, hmeasure, hlength, hdrop⟩ := behind hd hr htext
    refine first_eq hrest rfl ?_
    rw [hmeasure]
    rcases hbehind with hpoint | ⟨r, rfl⟩
    · rw [measureNumber_of_ne (by rintro t ht; rw [hdrop] at ht; simp [ht] at hpoint), hlength]
    · rw [measureNumber_of_point hdrop, if_pos (by rfl), List.head?_cons, if_pos rfl, hlength]
  | @real d e r hd he hr hr' =>
    obtain ⟨d, rfl, hrest, hmeasure, hlength, hdrop⟩ := behind hd (noDigit_point _) htext
    have hsplit : rest = (d ++ .char '.' :: e) ++ r := by simp [hrest]
    refine first_eq hsplit rfl ?_
    rw [hmeasure, measureNumber_of_point hdrop, digitsLength_append he.2 hr,
      if_neg (by simpa using he.1), List.drop_left, dottedLength_stop 0 hr hr', if_pos rfl, hlength,
      List.length_append, List.length_cons, Nat.add_right_comm, Nat.add_assoc]
  | @pointed d r hd hr hpoint =>
    obtain ⟨d, rfl, hrest, hmeasure, hlength, hdrop⟩ := behind hd (noDigit_point _) htext
    have hsplit : rest = (d ++ [.char '.']) ++ r := by simp [hrest]
    refine first_eq hsplit rfl ?_
    have hnone : digitsLength r = 0 := digitsLength_append (d := []) (by simp) hr
    rw [hmeasure, measureNumber_of_point hdrop, if_pos hnone, if_neg hpoint, hlength,
      List.length_append, List.length_singleton]
  | @malformed d e r gs hd he hne hgs hr hr' =>
    obtain ⟨d, rfl, hrest, hmeasure, hlength, hdrop⟩ := behind hd (noDigit_point _) htext
    have hsplit : rest = (d ++ .char '.' :: (e ++ groups gs)) ++ r := by simp [hrest]
    refine first_eq hsplit rfl ?_
    have hpos : (groups gs).length ≠ 0 := by
      obtain ⟨g, gs, rfl⟩ := List.exists_cons_of_ne_nil hne
      simp
    rw [hmeasure, measureNumber_of_point hdrop, digitsLength_append he.2 (noDigit_groups hne r),
      if_neg (by simpa using he.1), List.drop_left, dottedLength_groups 0 hgs, Nat.zero_add,
      dottedLength_stop _ hr hr', if_neg hpos, hlength, List.length_append, List.length_cons,
      List.length_append]
    congr 1
    omega

end Piece

end MiniPascal

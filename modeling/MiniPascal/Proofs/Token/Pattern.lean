import MiniPascal.Text.Basic

/-!
# Patterns

A **pattern** says which words it matches, as a regular expression does. It may also ask what follows a
word, so it matches a word in front of a text. That is the only way in which what follows has a say: how
far a match goes, and which of several ways to match is tried first, is no matter of a pattern.

* `MiniPascal.Pattern`, `MiniPascal.Pattern.Matches`: patterns, and what they match.
* `MiniPascal.Pattern.matches_star_iff`: repetition of what does not depend on what follows.
-/

namespace MiniPascal

/-- A regular expression in which one may ask what character comes next. -/
inductive Pattern
  /-- The empty word. -/
  | empty
  /-- One character of a class. -/
  | one (p : CodePoint → Bool)
  | append (a b : Pattern)
  | either (a b : Pattern)
  /-- Any number of words. -/
  | star (a : Pattern)
  /-- The empty word, if what follows does not start with a character of the class. -/
  | notBefore (p : CodePoint → Bool)

namespace Pattern

/-- At least one word. -/
def plus (a : Pattern) : Pattern := append a (star a)

/-- A fixed word. -/
def exactly : Text → Pattern
  | [] => empty
  | c :: cs => append (one (· = c)) (exactly cs)

/-- **The pattern matches a word in front of a text.** -/
inductive Matches : Pattern → Text → Text → Prop
  | empty {follow} : Matches empty [] follow
  | one {p c follow} : p c = true → Matches (one p) [c] follow
  | append {a b v w follow} : Matches a v (w ++ follow) → Matches b w follow →
    Matches (append a b) (v ++ w) follow
  | left {a b w follow} : Matches a w follow → Matches (either a b) w follow
  | right {a b w follow} : Matches b w follow → Matches (either a b) w follow
  | done {a follow} : Matches (star a) [] follow
  | more {a v w follow} : Matches a v (w ++ follow) → Matches (star a) w follow →
    Matches (star a) (v ++ w) follow
  | notBefore {p follow} : (∀ c ∈ follow.head?, p c = false) → Matches (notBefore p) [] follow

/-! ### What the patterns match -/

variable {a b : Pattern} {p : CodePoint → Bool} {w follow : Text}

@[simp] theorem matches_empty_iff : Matches empty w follow ↔ w = [] := by
  constructor
  · rintro ⟨⟩
    rfl
  · rintro rfl
    exact .empty

@[simp] theorem matches_one_iff : Matches (one p) w follow ↔ ∃ c, w = [c] ∧ p c = true := by
  constructor
  · rintro ⟨⟩
    exact ⟨_, rfl, by assumption⟩
  · rintro ⟨c, rfl, hc⟩
    exact .one hc

@[simp] theorem matches_append_iff :
    Matches (append a b) w follow ↔
      ∃ u v, w = u ++ v ∧ Matches a u (v ++ follow) ∧ Matches b v follow := by
  constructor
  · rintro ⟨⟩
    exact ⟨_, _, rfl, by assumption, by assumption⟩
  · rintro ⟨u, v, rfl, hu, hv⟩
    exact .append hu hv

@[simp] theorem matches_either_iff :
    Matches (either a b) w follow ↔ Matches a w follow ∨ Matches b w follow := by
  constructor
  · rintro (_ | _)
    · exact .inl (by assumption)
    · exact .inr (by assumption)
  · exact fun h => h.elim .left .right

@[simp] theorem matches_notBefore_iff :
    Matches (notBefore p) w follow ↔ w = [] ∧ ∀ c ∈ follow.head?, p c = false := by
  constructor
  · rintro ⟨⟩
    exact ⟨rfl, by assumption⟩
  · rintro ⟨rfl, h⟩
    exact .notBefore h

@[simp] theorem matches_exactly_iff {word : Text} : Matches (exactly word) w follow ↔ w = word := by
  induction word generalizing w with
  | nil => simp [exactly]
  | cons c word ih => simp [exactly, ih]

/-- **Words one behind the other**, if what follows has no say in what they are. -/
theorem matches_star_iff {L : Text → Prop} (h : ∀ {w follow}, Matches a w follow ↔ L w) :
    Matches (star a) w follow ↔ ∃ ws : List Text, (∀ v ∈ ws, L v) ∧ w = ws.flatten := by
  constructor
  · intro hw
    generalize hb : star a = b at hw
    induction hw with
    | done => exact ⟨[], by simp, rfl⟩
    | more hv _ _ ih =>
      cases hb
      obtain ⟨ws, hws, rfl⟩ := ih rfl
      exact ⟨_ :: ws, List.forall_mem_cons.2 ⟨h.1 hv, hws⟩, rfl⟩
    | _ => cases hb
  · rintro ⟨ws, hws, rfl⟩
    induction ws with
    | nil => exact .done
    | cons v ws ih =>
      rw [List.forall_mem_cons] at hws
      exact .more (h.2 hws.1) (ih hws.2)

/-- A run of characters of a class. -/
@[simp] theorem matches_star_one_iff :
    Matches (star (one p)) w follow ↔ ∀ c ∈ w, p c = true := by
  rw [matches_star_iff matches_one_iff]
  constructor
  · rintro ⟨ws, hws, rfl⟩ c hc
    obtain ⟨v, hv, hc⟩ := List.mem_flatten.1 hc
    obtain ⟨d, rfl, hd⟩ := hws v hv
    rwa [List.mem_singleton.1 hc]
  · intro hw
    refine ⟨w.map ([·]), ?_, by rw [← List.flatMap_def, List.flatMap_singleton']⟩
    simpa using hw

/-- A run of at least one character of a class. -/
@[simp] theorem matches_plus_one_iff :
    Matches (plus (one p)) w follow ↔ w ≠ [] ∧ ∀ c ∈ w, p c = true := by
  cases w with
  | nil => simp [plus]
  | cons c w =>
    simp only [plus, matches_append_iff, matches_one_iff, matches_star_one_iff, ne_eq,
      reduceCtorEq, not_false_eq_true, true_and, List.forall_mem_cons]
    constructor
    · rintro ⟨u, v, h, ⟨d, rfl, hd⟩, hv⟩
      obtain ⟨rfl, rfl⟩ := List.cons.inj h
      exact ⟨hd, hv⟩
    · rintro ⟨hc, hw⟩
      exact ⟨[c], w, rfl, ⟨c, rfl, hc⟩, hw⟩

end Pattern

end MiniPascal

import MiniPascal.Proofs.Token.Layout
import MiniPascal.Proofs.Token.Pattern
import MiniPascal.Proofs.Token.Spelling

/-!
# The table of terminals

What the pieces of a text are is said by a **table**: every terminal has a pattern and a priority. Of
the terminals that match some prefix of what is left of the text, the piece is of the one that goes
first, and it is the longest prefix that this terminal matches.

The table says nothing about how matches are found. Here it is given, with the words that the patterns
match; that a text is cut as the table asks for is another matter.

* `MiniPascal.Terminal.pattern`, `MiniPascal.Terminal.priority`: the table.
* `MiniPascal.Piece.Fits`: the piece that the table asks for.
* `MiniPascal.Piece.Fits.unique`: there is no other one.
-/

namespace MiniPascal

/-! ### The table -/

namespace Symbol

/-- The characters of a symbol. -/
def spelling : Symbol → Text
  | period => [.char '.']
  | comma => [.char ',']
  | colon => [.char ':']
  | becomes => [.char ':', .char '=']
  | semicolon => [.char ';']
  | plus => [.char '+']
  | minus => [.char '-']
  | star => [.char '*']
  | slash => [.char '/']
  | leftParen => [.char '(']
  | rightParen => [.char ')']
  | equals => [.char '=']
  | notEquals => [.char '<', .char '>']
  | lessThan => [.char '<']
  | lessEquals => [.char '<', .char '=']
  | greaterThan => [.char '>']
  | greaterEquals => [.char '>', .char '=']
  | dotDot => [.char '.', .char '.']
  | leftBracket => [.char '[']
  | rightBracket => [.char ']']
  | caret => [.char '^']

theorem spelling_of_ofOne? {c : CodePoint} {s : Symbol} (h : ofOne? c = some s) :
    s.spelling = [c] := by
  unfold ofOne? at h
  split at h <;> cases h <;> rfl

theorem spelling_of_ofTwo? {c d : CodePoint} {s : Symbol} (h : ofTwo? c d = some s) :
    s.spelling = [c, d] := by
  unfold ofTwo? at h
  split at h <;> cases h <;> rfl

/-- A symbol is one character, or two. -/
theorem spelling_cases (s : Symbol) :
    (∃ c, s.spelling = [c] ∧ ofOne? c = some s) ∨
      ∃ c d, s.spelling = [c, d] ∧ ofTwo? c d = some s := by
  cases s
  all_goals first
    | exact .inl ⟨_, rfl, rfl⟩
    | exact .inr ⟨_, _, rfl, rfl⟩

end Symbol

namespace Terminal

/-- A run of digits. -/
def digits : Pattern := .plus (.one Text.isDigit)

/-- A decimal point. -/
def point : Pattern := .one (· = .char '.')

/-- A quote, and characters in which quotes come in pairs. -/
def opened : Pattern :=
  .append (.one (· = .char '\''))
    (.star (.either (.one (· ≠ .char '\'')) (.exactly [.char '\'', .char '\''])))

/-- What the pieces of a terminal look like. -/
def pattern : Terminal → Pattern
  | malformedNumber =>
    .append digits (.append point (.append digits (.plus (.append point digits))))
  | real => .append digits (.append point (.either digits (.notBefore (· = .char '.'))))
  | integer => digits
  | string => .append opened (.one (· = .char '\''))
  | unclosedString => opened
  | word => .append (.one CodePoint.isAlpha) (.star (.one Piece.isWordChar))
  | comment =>
    .append (.one (· = .char '\x7b'))
      (.append (.star (.one (· ≠ .char '\x7d'))) (.one (· = .char '\x7d')))
  | blank => .plus (.one Text.isBlank)
  | symbol s => .exactly s.spelling
  | stray => .one (· ≠ .char '\n')

/-- Terminals of higher priority go first. -/
def priority : Terminal → Nat
  | malformedNumber => 4
  | real => 3
  | integer | string => 2
  | unclosedString | word | comment | blank | symbol _ => 1
  | stray => 0

/-- **The terminal matches the word at the start of the text.** -/
def Reads (t : Terminal) (text word : Text) : Prop :=
  ∃ follow, text = word ++ follow ∧ t.pattern.Matches word follow

/-- The terminal goes before another one: its priority is higher, or the two are symbols and it is
the longer one. -/
def GoesBefore (t u : Terminal) : Prop :=
  u.priority < t.priority ∨
    ∃ s s', t = .symbol s ∧ u = .symbol s' ∧ s'.spelling.length < s.spelling.length

end Terminal

/-- **The piece that the table asks for** at the start of a text. -/
structure Piece.Fits (p : Piece) (text : Text) : Prop where
  reads : p.terminal.Reads text p.text
  /-- It is the longest prefix that its terminal matches. -/
  longest : ∀ word, p.terminal.Reads text word → word.length ≤ p.text.length
  /-- Its terminal goes before all others that match a prefix. -/
  first : ∀ t word, t.Reads text word → t ≠ p.terminal → p.terminal.GoesBefore t

theorem Terminal.GoesBefore.asymm {t u : Terminal} (h : t.GoesBefore u) : ¬u.GoesBefore t := by
  rcases h with h | ⟨s, s', rfl, rfl, h⟩
  · rintro (h' | ⟨s, s', rfl, rfl, -⟩)
    · omega
    · exact Nat.lt_irrefl _ h
  · rintro (h' | ⟨r, r', hr, hr', h'⟩)
    · exact Nat.lt_irrefl _ h'
    · cases hr
      cases hr'
      omega

/-- **The table asks for one piece only.** -/
theorem Piece.Fits.unique {p q : Piece} {text : Text} (hp : p.Fits text) (hq : q.Fits text) :
    p = q := by
  have hterminal : p.terminal = q.terminal := by
    by_contra hne
    exact (hp.first _ _ hq.reads (Ne.symm hne)).asymm (hq.first _ _ hp.reads hne)
  have hlength : p.text.length = q.text.length :=
    Nat.le_antisymm (hq.longest _ (hterminal ▸ hp.reads)) (hp.longest _ (hterminal ▸ hq.reads))
  obtain ⟨f, hf, -⟩ := hp.reads
  obtain ⟨g, hg, -⟩ := hq.reads
  have htext : p.text = q.text := (List.append_inj (hf.symm.trans hg) hlength).1
  cases p
  cases q
  simp_all

/-! ### What the terminals match -/

namespace Text

/-- A run of digits. -/
def IsRun (d : Text) : Prop := d ≠ [] ∧ ∀ c ∈ d, isDigit c = true

/-- Runs of digits with a point in front of each. -/
def groups (gs : List Text) : Text := gs.flatMap (.char '.' :: ·)

/-- No digit comes first. -/
def NoDigit (text : Text) : Prop := ∀ c ∈ text.head?, isDigit c = false

/-- No point with a digit behind it comes first. -/
def NoGroup (text : Text) : Prop := ∀ c rest, text = .char '.' :: c :: rest → isDigit c = false

@[simp] theorem groups_nil : groups [] = [] := rfl

@[simp] theorem groups_cons (g : Text) (gs : List Text) :
    groups (g :: gs) = .char '.' :: (g ++ groups gs) := rfl

theorem noDigit_point (text : Text) : NoDigit (.char '.' :: text) := by
  intro c hc
  obtain rfl : CodePoint.char '.' = c := by simpa using hc
  decide

/-- Runs that nothing goes on with are the same if they start the same text. -/
theorem run_inj {d d' r r' : Text} (hd : IsRun d) (hd' : IsRun d') (hr : NoDigit r) (hr' : NoDigit r')
    (h : d ++ r = d' ++ r') : d = d' ∧ r = r' := by
  have heq : d = d' := by
    rw [← takeWhile_run hd.2 hr, h, takeWhile_run hd'.2 hr']
  exact ⟨heq, by rwa [heq, List.append_cancel_left_eq] at h⟩

/-- No run at the start of a text is longer than the one that nothing goes on with. -/
theorem length_le_run {p : CodePoint → Bool} {d r w f : Text} (hd : ∀ c ∈ d, p c = true)
    (hr : ∀ c ∈ r.head?, p c = false) (hw : ∀ c ∈ w, p c = true) (h : d ++ r = w ++ f) :
    w.length ≤ d.length := by
  rw [← takeWhile_run hd hr, h, List.takeWhile_append_of_pos hw, List.length_append]
  exact Nat.le_add_right _ _

theorem IsRun.not_noDigit {d r : Text} (hd : IsRun d) : ¬NoDigit (d ++ r) := by
  intro h
  obtain ⟨c, d, rfl⟩ := List.exists_cons_of_ne_nil hd.1
  have hc := hd.2 c List.mem_cons_self
  rw [h c rfl] at hc
  cases hc

end Text

namespace Terminal

open Text Piece

variable {w follow : Text}

theorem matches_digits_iff : digits.Matches w follow ↔ IsRun w := Pattern.matches_plus_one_iff

theorem matches_this_iff {x : CodePoint} :
    (Pattern.one (· = x)).Matches w follow ↔ w = [x] := by
  simp

theorem matches_group_iff :
    (Pattern.append point digits).Matches w follow ↔ ∃ g, w = .char '.' :: g ∧ IsRun g := by
  rw [point]
  simp only [Pattern.matches_append_iff, matches_this_iff, matches_digits_iff]
  constructor
  · rintro ⟨u, g, rfl, rfl, hg⟩
    exact ⟨g, rfl, hg⟩
  · rintro ⟨g, rfl, hg⟩
    exact ⟨[.char '.'], g, rfl, rfl, hg⟩

theorem matches_groups_iff :
    (Pattern.plus (.append point digits)).Matches w follow ↔
      ∃ gs, gs ≠ [] ∧ (∀ g ∈ gs, IsRun g) ∧ w = groups gs := by
  rw [Pattern.plus, Pattern.matches_append_iff]
  simp only [Pattern.matches_star_iff matches_group_iff, matches_group_iff]
  constructor
  · rintro ⟨u, v, rfl, ⟨g, rfl, hg⟩, ws, hws, rfl⟩
    have hgroups : ∃ gs, (∀ g ∈ gs, IsRun g) ∧ ws.flatten = groups gs := by
      clear hg
      induction ws with
      | nil => exact ⟨[], by simp, rfl⟩
      | cons v ws ih =>
        rw [List.forall_mem_cons] at hws
        obtain ⟨g, rfl, hg⟩ := hws.1
        obtain ⟨gs, hgs, hflatten⟩ := ih hws.2
        exact ⟨g :: gs, List.forall_mem_cons.2 ⟨hg, hgs⟩, by simp [hflatten]⟩
    obtain ⟨gs, hgs, hflatten⟩ := hgroups
    exact ⟨g :: gs, by simp, List.forall_mem_cons.2 ⟨hg, hgs⟩, by simp [hflatten]⟩
  · rintro ⟨gs, hne, hgs, rfl⟩
    obtain ⟨g, gs, rfl⟩ := List.exists_cons_of_ne_nil hne
    rw [List.forall_mem_cons] at hgs
    refine ⟨_, groups gs, groups_cons g gs, ⟨g, rfl, hgs.1⟩, gs.map (.char '.' :: ·), ?_, rfl⟩
    intro v hv
    obtain ⟨g, hg, rfl⟩ := List.mem_map.1 hv
    exact ⟨g, rfl, hgs.2 g hg⟩

theorem matches_real_iff :
    real.pattern.Matches w follow ↔ ∃ d v, w = d ++ .char '.' :: v ∧ IsRun d ∧
      (IsRun v ∨ v = [] ∧ follow.head? ≠ some (.char '.')) := by
  have hpoint : (∀ c ∈ follow.head?, decide (c = CodePoint.char '.') = false) ↔
      follow.head? ≠ some (.char '.') := by
    cases follow <;> simp
  simp only [pattern, point, Pattern.matches_append_iff, matches_this_iff, matches_digits_iff,
    Pattern.matches_either_iff, Pattern.matches_notBefore_iff, hpoint]
  constructor
  · rintro ⟨d, v, rfl, hd, u, v, rfl, rfl, hv⟩
    exact ⟨d, v, rfl, hd, hv⟩
  · rintro ⟨d, v, rfl, hd, hv⟩
    exact ⟨d, _, rfl, hd, [.char '.'], v, rfl, rfl, hv⟩

theorem matches_malformedNumber_iff :
    malformedNumber.pattern.Matches w follow ↔ ∃ d e gs, w = d ++ .char '.' :: (e ++ groups gs) ∧
      IsRun d ∧ IsRun e ∧ gs ≠ [] ∧ ∀ g ∈ gs, IsRun g := by
  have hpoint {v f : Text} : point.Matches v f ↔ v = [.char '.'] := matches_this_iff
  simp only [pattern, Pattern.matches_append_iff, matches_groups_iff, matches_digits_iff, hpoint]
  constructor
  · rintro ⟨d, v, rfl, hd, u, v, rfl, rfl, e, v, rfl, he, gs, hne, hgs, rfl⟩
    exact ⟨d, e, gs, rfl, hd, he, hne, hgs⟩
  · rintro ⟨d, e, gs, rfl, hd, he, hne, hgs⟩
    exact ⟨d, _, rfl, hd, [.char '.'], _, rfl, rfl, e, _, rfl, he, gs, hne, hgs, rfl⟩

theorem matches_opened_iff : opened.Matches w follow ↔ ∃ s, w = .char '\'' :: double s := by
  have hbody {v : Text} :
      (Pattern.star (.either (.one (· ≠ .char '\'')) (.exactly [.char '\'', .char '\'']))).Matches
        v follow ↔ ∃ s, v = double s := by
    constructor
    · rw [Pattern.matches_star_iff
        (L := fun v => (∃ c, v = [c] ∧ c ≠ .char '\'') ∨ v = [.char '\'', .char '\'']) (by simp)]
      rintro ⟨ws, hws, rfl⟩
      induction ws with
      | nil => exact ⟨[], rfl⟩
      | cons u ws ih =>
        rw [List.forall_mem_cons] at hws
        obtain ⟨s, hs⟩ := ih hws.2
        rw [List.flatten_cons, hs]
        rcases hws.1 with ⟨c, rfl, hc⟩ | rfl
        · exact ⟨c :: s, (double_of_ne hc s).symm⟩
        · exact ⟨.char '\'' :: s, (double_quote s).symm⟩
    · rintro ⟨s, rfl⟩
      induction s with
      | nil => exact .done
      | cons c s ih =>
        by_cases hc : c = .char '\''
        · rw [hc, double_quote]
          exact .more (v := [.char '\'', .char '\'']) (.right (by simp)) ih
        · rw [double_of_ne hc]
          exact .more (v := [c]) (.left (by simpa using hc)) ih
  simp only [opened, Pattern.matches_append_iff, matches_this_iff, hbody]
  constructor
  · rintro ⟨u, v, rfl, rfl, s, rfl⟩
    exact ⟨s, rfl⟩
  · rintro ⟨s, rfl⟩
    exact ⟨[.char '\''], _, rfl, rfl, s, rfl⟩

theorem matches_string_iff : string.pattern.Matches w follow ↔ ∃ s, w = literal s := by
  simp only [pattern, Pattern.matches_append_iff, matches_opened_iff, matches_this_iff]
  constructor
  · rintro ⟨u, v, rfl, ⟨s, rfl⟩, rfl⟩
    exact ⟨s, rfl⟩
  · rintro ⟨s, rfl⟩
    exact ⟨_, _, rfl, ⟨s, rfl⟩, rfl⟩

theorem matches_comment_iff :
    comment.pattern.Matches w follow ↔
      ∃ body, w = .char '\x7b' :: (body ++ [.char '\x7d']) ∧ .char '\x7d' ∉ body := by
  have hbody {body : Text} :
      (∀ c ∈ body, decide (c ≠ .char '\x7d') = true) ↔ .char '\x7d' ∉ body := by
    simp only [decide_eq_true_eq]
    exact ⟨fun h hmem => h _ hmem rfl, fun h c hc heq => h (heq ▸ hc)⟩
  simp only [pattern, Pattern.matches_append_iff, matches_this_iff, Pattern.matches_star_one_iff,
    hbody]
  constructor
  · rintro ⟨u, v, rfl, rfl, body, v, rfl, hbody, rfl⟩
    exact ⟨body, rfl, hbody⟩
  · rintro ⟨body, rfl, hbody⟩
    exact ⟨[.char '\x7b'], _, rfl, rfl, body, _, rfl, hbody, rfl⟩

theorem matches_word_iff :
    word.pattern.Matches w follow ↔
      ∃ c cs, w = c :: cs ∧ c.isAlpha = true ∧ ∀ d ∈ cs, isWordChar d = true := by
  simp only [pattern, Pattern.matches_append_iff, Pattern.matches_one_iff,
    Pattern.matches_star_one_iff]
  constructor
  · rintro ⟨u, v, rfl, ⟨c, rfl, hc⟩, hv⟩
    exact ⟨c, v, rfl, hc, hv⟩
  · rintro ⟨c, cs, rfl, hc, hcs⟩
    exact ⟨[c], cs, rfl, ⟨c, rfl, hc⟩, hcs⟩

end Terminal

end MiniPascal

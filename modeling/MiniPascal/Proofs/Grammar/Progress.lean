import MiniPascal.Grammar.Program

/-!
# Readers move on

Every reader of the grammar is made of a few actions: moving on to the next token, complaining
about the current one, and entering a name. Whatever a reader does in between, it only ever moves
forward in the feed, and it only adds reports. This is `MiniPascal.Cursor.Follows`, a preorder on
cursors, so that a reader keeps it as soon as its parts do.

A reader is **steady** (`MiniPascal.Reading.Steady`) if it moves forward in this sense and stops
for no other reason than an overlong integer, provided that there are fewer tokens left than its
fuel allows. The fuel is what makes this more than a matter of routine: a loop that takes its fuel
from the number of tokens in front of it is steady only if every round consumes a token, and a
reader of nested phrases only if it consumes one before it calls itself.

* `MiniPascal.Cursor.left`: the number of tokens left, which measures progress.
* `MiniPascal.Reading.Steady.bind`: steadiness is kept by sequencing.
* `MiniPascal.Reading.Consuming`: a reader of statements consumes a token, or there was none that
  starts a statement.
-/

namespace MiniPascal

/-! ### The order of cursors -/

namespace Cursor

/-- The number of tokens left, the current one included. The end of the text does not count. -/
def left (c : Cursor) : Nat := c.rest.length + if c.current.kind = .endOfFile then 0 else 1

/-- The end of the text stands nowhere but at the end. -/
structure Tidy (c : Cursor) : Prop where
  inner : ∀ t, .token t ∈ c.rest → t.kind ≠ .endOfFile
  last : c.current.kind = .endOfFile → c.rest = []

/-- **A cursor is further on than another**: it has passed some lexemes, none of them overlong,
and reports may have been added. -/
structure Follows (c c' : Cursor) : Prop where
  passed : ∃ lexemes, c.rest = lexemes ++ c'.rest ∧ .overlong ∉ lexemes
  left_le : c'.left ≤ c.left
  reports : ∃ added, c'.reports.toList = c.reports.toList ++ added
  tidy : c.Tidy → c'.Tidy

/-- A cursor stands behind the first overlong integer that another one still has in front. -/
def Breaks (c c' : Cursor) : Prop :=
  ∃ lexemes, c.rest = lexemes ++ .overlong :: c'.rest ∧ .overlong ∉ lexemes

variable {c c' c'' : Cursor}

theorem left_le_length (c : Cursor) : c.left ≤ c.rest.length + 1 := by
  unfold left
  split <;> omega

theorem left_of_ne (h : c.current.kind ≠ .endOfFile) : c.left = c.rest.length + 1 := by
  simp [left, h]

theorem Follows.refl (c : Cursor) : Follows c c :=
  ⟨⟨[], by simp⟩, Nat.le_refl _, ⟨[], by simp⟩, id⟩

theorem Follows.trans (h : Follows c c') (h' : Follows c' c'') : Follows c c'' := by
  obtain ⟨l, hl, hlo⟩ := h.passed
  obtain ⟨l', hl', hlo'⟩ := h'.passed
  obtain ⟨r, hr⟩ := h.reports
  obtain ⟨r', hr'⟩ := h'.reports
  refine ⟨⟨l ++ l', ?_, ?_⟩, Nat.le_trans h'.left_le h.left_le, ⟨r ++ r', ?_⟩,
    fun ht => h'.tidy (h.tidy ht)⟩
  · rw [hl, hl', List.append_assoc]
  · simp [hlo, hlo']
  · rw [hr', hr, List.append_assoc]

theorem Follows.breaks (h : Follows c c') (h' : Breaks c' c'') : Breaks c c'' := by
  obtain ⟨l, hl, hlo⟩ := h.passed
  obtain ⟨l', hl', hlo'⟩ := h'
  refine ⟨l ++ l', ?_, ?_⟩
  · rw [hl, hl', List.append_assoc]
  · simp [hlo, hlo']

theorem Follows.size_le (h : Follows c c') : c.reports.size ≤ c'.reports.size := by
  obtain ⟨r, hr⟩ := h.reports
  simp only [← Array.length_toList, hr, List.length_append]
  omega

theorem Follows.length_le (h : Follows c c') : c'.rest.length ≤ c.rest.length := by
  obtain ⟨l, hl, -⟩ := h.passed
  simp [hl]

/-- A cursor that differs from another neither in its place nor in fewer reports is further on. -/
theorem follows_of_rest_eq (hr : c'.rest = c.rest) (hc : c'.current = c.current)
    (hs : ∃ added, c'.reports.toList = c.reports.toList ++ added) : Follows c c' := by
  refine ⟨⟨[], by simp [hr]⟩, ?_, hs, fun ht => ⟨?_, ?_⟩⟩
  · simp [left, hr, hc]
  · rw [hr]
    exact ht.inner
  · rw [hr, hc]
    exact ht.last

end Cursor

namespace Reading

open Cursor

variable {α β : Type} {c c' c'' : Cursor} {halt : Halt}

/-! ### Running a sequence of actions -/

theorem bind_eq_ok {x : Reading α} {f : α → Reading β} {b : β} :
    (x >>= f) c = .ok b c'' ↔ ∃ a c', x c = .ok a c' ∧ f a c' = .ok b c'' := by
  simp only [bind, EStateM.bind]
  cases x c <;> simp [and_assoc]

theorem bind_eq_error {x : Reading α} {f : α → Reading β} :
    (x >>= f) c = .error halt c'' ↔
      x c = .error halt c'' ∨ ∃ a c', x c = .ok a c' ∧ f a c' = .error halt c'' := by
  simp only [bind, EStateM.bind]
  cases x c <;> simp [and_assoc]

theorem bind_of_ok {x : Reading α} {f : α → Reading β} {a : α} (h : x c = .ok a c') :
    (x >>= f) c = f a c' := by
  simp only [bind, EStateM.bind, h]

theorem current_bind (f : Token → Reading β) : (current >>= f) c = f c.current c := rfl

theorem kind_bind (f : Token.Kind → Reading β) : (kind >>= f) c = f c.current.kind c := rfl

theorem get_bind (f : Cursor → Reading β) : (get >>= f) c = f c c := rfl

theorem reportCount_bind (f : Nat → Reading β) : (reportCount >>= f) c = f c.reports.size c := rfl

theorem budget_bind (f : Nat → Reading β) : (budget >>= f) c = f (c.rest.length + 2) c := rfl

theorem modify_bind (g : Cursor → Cursor) (f : Unit → Reading β) :
    ((modify g : Reading Unit) >>= f) c = f () (g c) := rfl

theorem pure_eq_ok {a b : α} : (pure a : Reading α) c = .ok b c' ↔ a = b ∧ c = c' := by
  simp [pure, EStateM.pure]

theorem map_eq_ok {f : α → β} {x : Reading α} {b : β} :
    (f <$> x) c = .ok b c' ↔ ∃ a, x c = .ok a c' ∧ f a = b := by
  simp only [Functor.map, EStateM.map]
  cases x c with
  | ok a c₁ => exact ⟨fun h => ⟨a, by cases h; exact ⟨rfl, rfl⟩⟩, by rintro ⟨_, h, rfl⟩; cases h; rfl⟩
  | error => simp

/-- A complaint stays where it is and adds one report. -/
theorem complain_eq_ok {w : Complaint} {u : Unit} (h : complain w c = .ok u c') :
    c'.current = c.current ∧ c'.rest = c.rest ∧ c'.reports.size = c.reports.size + 1 := by
  obtain ⟨⟩ := h
  exact ⟨rfl, rfl, Array.size_push _⟩

/-! ### Steady readers -/

/-- At the given cursor the reader moves forward and, if there is fuel enough, only an overlong
integer stops it. -/
structure SteadyAt (enough : Prop) (c : Cursor) (act : Reading α) : Prop where
  follows : ∀ {a c'}, act c = .ok a c' → Follows c c'
  breaks : ∀ {halt c'}, act c = .error halt c' → enough → halt = .overlong ∧ Breaks c c'

/-- **A steady reader**: wherever it starts, it moves forward, and with fewer than `n` tokens left
only an overlong integer stops it. -/
def Steady (n : Nat) (act : Reading α) : Prop := ∀ c, SteadyAt (c.left < n) c act

section Rules

variable {n m : Nat} {p q : Prop} {x : Reading α} {f : α → Reading β}

theorem SteadyAt.imp (h : SteadyAt p c x) (hqp : q → p) : SteadyAt q c x :=
  ⟨h.follows, fun he hq => h.breaks he (hqp hq)⟩

theorem Steady.mono (h : Steady m x) (hnm : n ≤ m) : Steady n x :=
  fun c => (h c).imp fun hl => Nat.lt_of_lt_of_le hl hnm

theorem SteadyAt.bind (hx : SteadyAt p c x)
    (hf : ∀ {a c'}, x c = .ok a c' → SteadyAt p c' (f a)) : SteadyAt p c (x >>= f) where
  follows h := by
    obtain ⟨a, c₁, h₁, h₂⟩ := bind_eq_ok.1 h
    exact (hx.follows h₁).trans ((hf h₁).follows h₂)
  breaks h hp := by
    rcases bind_eq_error.1 h with h₁ | ⟨a, c₁, h₁, h₂⟩
    · exact hx.breaks h₁ hp
    · obtain ⟨hh, hb⟩ := (hf h₁).breaks h₂ hp
      exact ⟨hh, (hx.follows h₁).breaks hb⟩

/-- **Steadiness is kept by sequencing**: what the first action leaves is no more than what it
found. -/
theorem Steady.bind (hx : Steady n x) (hf : ∀ a, Steady n (f a)) : Steady n (x >>= f) :=
  fun c => (hx c).bind fun {a c'} h =>
    (hf a c').imp fun hl => Nat.lt_of_le_of_lt ((hx c).follows h).left_le hl

theorem SteadyAt.map {g : α → β} (hx : SteadyAt p c x) : SteadyAt p c (g <$> x) := by
  refine ⟨fun h => ?_, fun h hp => hx.breaks ?_ hp⟩
  · obtain ⟨a, ha, -⟩ := map_eq_ok.1 h
    exact hx.follows ha
  · revert h
    simp only [Functor.map, EStateM.map]
    cases x c <;> simp

theorem Steady.map {g : α → β} (hx : Steady n x) : Steady n (g <$> x) := fun c => (hx c).map

theorem SteadyAt.of_ok {a : α} (hx : x c = .ok a c') (hf : Follows c c') : SteadyAt p c x := by
  refine ⟨fun h => ?_, fun h _ => ?_⟩ <;> rw [hx] at h <;> cases h
  exact hf

/-- An action that never stops and leaves the place in the feed is steady. -/
theorem steady_of_still (h : ∀ c, ∃ a c', x c = .ok a c' ∧ Follows c c') : Steady n x := by
  intro c
  obtain ⟨a, c', hx, hf⟩ := h c
  exact .of_ok hx hf

theorem steady_pure (a : α) : Steady n (pure a : Reading α) :=
  steady_of_still fun c => ⟨a, c, rfl, .refl c⟩

theorem steady_current : Steady n current := steady_of_still fun c => ⟨_, c, rfl, .refl c⟩

theorem steady_kind : Steady n kind := steady_of_still fun c => ⟨_, c, rfl, .refl c⟩

theorem steady_reportCount : Steady n reportCount := steady_of_still fun c => ⟨_, c, rfl, .refl c⟩

theorem steady_get : Steady n (get : Reading Cursor) := steady_of_still fun c => ⟨_, c, rfl, .refl c⟩

theorem steady_complain (w : Complaint) : Steady n (complain w) :=
  steady_of_still fun _ => ⟨_, _, rfl, follows_of_rest_eq rfl rfl ⟨[_], Array.toList_push⟩⟩

theorem steady_enter (name : Text) :
    Steady n (modify fun c => { c with table := c.table.enter name } : Reading Unit) :=
  steady_of_still fun _ => ⟨_, _, rfl, follows_of_rest_eq rfl rfl ⟨[], by simp⟩⟩

theorem SteadyAt.current_bind {g : Token → Reading β} (h : SteadyAt p c (g c.current)) :
    SteadyAt p c (current >>= g) := ⟨h.follows, h.breaks⟩

theorem SteadyAt.kind_bind {g : Token.Kind → Reading β} (h : SteadyAt p c (g c.current.kind)) :
    SteadyAt p c (kind >>= g) := ⟨h.follows, h.breaks⟩

/-- With no fuel at all there is nothing to show. -/
theorem steady_exhausted : Steady 0 (throw .exhausted : Reading α) :=
  fun _ => ⟨nofun, fun _ hl => absurd hl (Nat.not_lt_zero _)⟩

/-- Fuel that is taken from the number of tokens in front is enough. -/
theorem Steady.budget {g : Nat → Reading β} (hg : ∀ k, Steady (min n k) (g k)) :
    Steady n (budget >>= g) := by
  intro c
  have h := hg (c.rest.length + 2) c
  refine ⟨fun h' => h.follows h', fun h' hl => h.breaks h' ?_⟩
  have := c.left_le_length
  omega

end Rules

/-! ### Moving on -/

section Advance

variable {n : Nat}

theorem advance_eq_ok {u : Unit} (h : advance c = .ok u c') :
    (c.rest = [] ∧ c' = { c with current := ⟨.endOfFile, c.lastLine, []⟩ }) ∨
    ∃ t rest, c.rest = .token t :: rest ∧
      c' = { c with
        toFeed := { c.toFeed with rest, lastLine := t.line }.note t
        current := t } := by
  simp only [advance, Feed.next] at h
  split at h
  · rename_i heq
    split at heq
    · cases heq
      cases h
      exact .inl ⟨by assumption, rfl⟩
    · cases heq
    · cases heq
      cases h
      exact .inr ⟨_, _, by assumption, rfl⟩
  · cases h

theorem advance_eq_error (h : advance c = .error halt c') :
    halt = .overlong ∧ c.rest = .overlong :: c'.rest := by
  simp only [advance, Feed.next] at h
  split at h
  · cases h
  · rename_i heq
    split at heq
    · cases heq
    · cases heq
      cases h
      exact ⟨rfl, by assumption⟩
    · cases heq

theorem follows_advance {u : Unit} (h : advance c = .ok u c') : Follows c c' := by
  rcases advance_eq_ok h with ⟨hr, rfl⟩ | ⟨t, rest, hr, rfl⟩
  · exact ⟨⟨[], by simp⟩, by simp [left], ⟨[], by simp⟩, fun ht => ⟨ht.inner, fun _ => hr⟩⟩
  · refine ⟨⟨[.token t], by simp [hr, Feed.note], by simp⟩, ?_, ⟨t.reports, by simp [Feed.note]⟩,
      fun ht => ⟨fun t' h' => ht.inner t' ?_, fun he => ?_⟩⟩
    · simp only [left, hr, Feed.note, List.length_cons]
      split <;> omega
    · rw [hr]
      exact List.mem_cons_of_mem _ h'
    · exact absurd he (ht.inner t (by simp [hr]))

/-- Moving on from a token consumes it. -/
theorem left_lt_of_advance {u : Unit} (hk : c.current.kind ≠ .endOfFile)
    (h : advance c = .ok u c') : c'.left < c.left := by
  rcases advance_eq_ok h with ⟨hr, rfl⟩ | ⟨t, rest, hr, rfl⟩
  · simp [left, hr, hk]
  · rw [left_of_ne hk, hr]
    simp only [left, Feed.note, List.length_cons]
    split <;> omega

theorem steady_advance : Steady n advance := by
  refine fun c => ⟨follows_advance, fun h _ => ?_⟩
  obtain ⟨hh, hr⟩ := advance_eq_error h
  exact ⟨hh, [], by simpa using hr, by simp⟩

/-- **What is behind a token may need one unit of fuel less.** -/
theorem steadyAt_advance_bind {f : Unit → Reading β} (hk : c.current.kind ≠ .endOfFile)
    (hf : ∀ u, Steady n (f u)) : SteadyAt (c.left < n + 1) c (advance >>= f) := by
  refine ⟨fun h => ?_, fun h hl => ?_⟩
  · exact (steady_advance.bind hf c).follows h
  · rcases bind_eq_error.1 h with h₁ | ⟨u, c₁, h₁, h₂⟩
    · exact (steady_advance c).breaks h₁ hl
    · have hlt := left_lt_of_advance hk h₁
      obtain ⟨hh, hb⟩ := (hf u c₁).breaks h₂ (by omega)
      exact ⟨hh, (follows_advance h₁).breaks hb⟩

/-- What starts by moving on from a token consumes it. -/
theorem left_lt_of_advance_bind {f : Unit → Reading β} {b : β} (hk : c.current.kind ≠ .endOfFile)
    (hf : ∀ u, Steady n (f u)) (h : (advance >>= f) c = .ok b c'') : c''.left < c.left := by
  obtain ⟨u, c₁, h₁, h₂⟩ := bind_eq_ok.1 h
  exact Nat.lt_of_le_of_lt ((hf u c₁).follows h₂).left_le (left_lt_of_advance hk h₁)

/-- **A reader that opens with a token**: it consumes the token in front, and what follows is
steady below `n` tokens. -/
structure Opens (n : Nat) (c : Cursor) (act : Reading α) : Prop where
  steady : SteadyAt (c.left < n + 1) c act
  consumes : ∀ {a c'}, act c = .ok a c' → c'.left < c.left

theorem opens_advance_bind {f : Unit → Reading β} (hk : c.current.kind ≠ .endOfFile)
    (hf : ∀ u, Steady n (f u)) : Opens n c (advance >>= f) :=
  ⟨steadyAt_advance_bind hk hf, left_lt_of_advance_bind hk hf⟩

theorem Opens.current_bind {f : Token → Reading β} (h : Opens n c (f c.current)) :
    Opens n c (current >>= f) := ⟨.current_bind h.steady, h.consumes⟩

theorem Opens.enter_bind {name : Text} {f : Unit → Reading β}
    (h : Opens n { c with table := c.table.enter name } (f ())) :
    Opens n c ((modify fun c => { c with table := c.table.enter name } : Reading Unit) >>= f) := by
  refine ⟨⟨fun hf => ?_, fun he => h.steady.breaks he⟩, h.consumes⟩
  have hstay : Follows c { c with table := c.table.enter name } :=
    follows_of_rest_eq rfl rfl ⟨[], by simp⟩
  exact hstay.trans (h.steady.follows hf)

theorem Opens.map {x : Reading α} {g : α → β} (h : Opens n c x) : Opens n c (g <$> x) := by
  refine ⟨h.steady.map, fun hg => ?_⟩
  obtain ⟨a, ha, -⟩ := map_eq_ok.1 hg
  exact h.consumes ha

end Advance

end Reading

end MiniPascal

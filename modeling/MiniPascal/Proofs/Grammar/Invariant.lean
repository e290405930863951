import MiniPascal.Proofs.Grammar.Progress

/-!
# Invariants of cursors

All that a reader does to a cursor is made of four changes: it moves on to the next token, complains
about the current one, enters a name, and makes a log entry. What these four keep is an **invariant**
(`MiniPascal.Cursor.Invariant`), and every reader keeps it, whatever errors it meets.

What a reader gives depends on the tokens that it has in hand on its way. So the rules here carry both
along (`MiniPascal.Reading.Keeps`): if the cursor in front of a reader satisfies the invariant, so does
the one behind it, and the result has a property. Only readers that come to an end are spoken of.

* `MiniPascal.Cursor.Invariant`: what the four changes keep.
* `MiniPascal.Reading.Keeps`: a reader keeps an invariant, and its result has a property.
* `MiniPascal.Reading.Keeps.bind`: this is kept by sequencing.
-/

namespace MiniPascal

/-- **An invariant of cursors.** It says of the token in hand that it is one of the given lexemes,
unless it stands for the end of the text. -/
structure Cursor.Invariant (ls : List Lexeme) (J : Cursor → Prop) : Prop where
  held : ∀ {c}, J c → c.current.kind ≠ .endOfFile → .token c.current ∈ ls
  advance : ∀ {c u c'}, Reading.advance c = .ok u c' → J c → J c'
  complain : ∀ {w c u c'}, Reading.complain w c = .ok u c' → J c → J c'
  enter : ∀ {c} (name : Text), J c → J { c with table := c.table.enter name }
  note : ∀ {c} (entry : Log.Entry), J c → J { c with log := c.log.push entry }

namespace Reading

variable {α β : Type} {ls : List Lexeme} {J : Cursor → Prop} {c : Cursor} {x : Reading α}
  {f : α → Reading β} {p p' : α → Prop} {q : β → Prop}

/-! ### Rules -/

/-- At the given cursor the reader keeps the invariant, and its result has the property. -/
def KeepsAt (J : Cursor → Prop) (c : Cursor) (act : Reading α) (p : α → Prop) : Prop :=
  ∀ ⦃a c'⦄, act c = .ok a c' → J c → J c' ∧ p a

/-- **The reader keeps the invariant, and its result has the property**, if there is one. -/
def Keeps (J : Cursor → Prop) (act : Reading α) (p : α → Prop) : Prop := ∀ c, KeepsAt J c act p

theorem KeepsAt.imp (hx : KeepsAt J c x p) (h : ∀ a, p a → p' a) : KeepsAt J c x p' := by
  intro a c' hact hc
  obtain ⟨hc', ha⟩ := hx hact hc
  exact ⟨hc', h a ha⟩

theorem KeepsAt.bind (hx : KeepsAt J c x p) (hf : ∀ a, p a → Keeps J (f a) q) :
    KeepsAt J c (x >>= f) q := by
  intro b c' h hc
  obtain ⟨a, c₁, h₁, h₂⟩ := bind_eq_ok.1 h
  obtain ⟨hc₁, ha⟩ := hx h₁ hc
  exact hf a ha c₁ h₂ hc₁

/-- **What one reader gives, the next may use.** -/
theorem Keeps.bind (hx : Keeps J x p) (hf : ∀ a, p a → Keeps J (f a) q) : Keeps J (x >>= f) q :=
  fun c => (hx c).bind hf

theorem KeepsAt.map {g : α → β} (hx : KeepsAt J c x fun a => q (g a)) : KeepsAt J c (g <$> x) q := by
  intro b c' h hc
  obtain ⟨a, ha, rfl⟩ := map_eq_ok.1 h
  exact hx ha hc

theorem keeps_pure {a : α} (ha : p a) : Keeps J (pure a) p := by
  intro c b c' h hc
  obtain ⟨rfl, rfl⟩ := pure_eq_ok.1 h
  exact ⟨hc, ha⟩

theorem keeps_throw {halt : Halt} : Keeps J (throw halt : Reading α) p := fun _ _ _ => nofun

theorem KeepsAt.current_bind {g : Token → Reading β} (h : KeepsAt J c (g c.current) q) :
    KeepsAt J c (current >>= g) q := h

theorem KeepsAt.kind_bind {g : Token.Kind → Reading β} (h : KeepsAt J c (g c.current.kind) q) :
    KeepsAt J c (kind >>= g) q := h

theorem Keeps.current_bind {g : Token → Reading β} (h : ∀ t, Keeps J (g t) q) :
    Keeps J (current >>= g) q := fun c => h c.current c

theorem Keeps.kind_bind {g : Token.Kind → Reading β} (h : ∀ k, Keeps J (g k) q) :
    Keeps J (kind >>= g) q := fun c => h c.current.kind c

theorem Keeps.get_bind {g : Cursor → Reading β} (h : ∀ c, Keeps J (g c) q) :
    Keeps J (get >>= g) q := fun c => h c c

theorem Keeps.reportCount_bind {g : Nat → Reading β} (h : ∀ n, Keeps J (g n) q) :
    Keeps J (reportCount >>= g) q := fun c => h c.reports.size c

theorem Keeps.budget_bind {g : Nat → Reading β} (h : ∀ n, Keeps J (g n) q) :
    Keeps J (budget >>= g) q := fun c => h (c.rest.length + 2) c

/-- What the invariant says of the cursor may be used. -/
theorem KeepsAt.of_invariant (h : J c → KeepsAt J c x p) : KeepsAt J c x p :=
  fun _ _ hact hc => h hc hact hc

/-! ### The four changes -/

section Changes

variable (hJ : Cursor.Invariant ls J)
include hJ

theorem keeps_advance : Keeps J advance fun _ => True :=
  fun _ _ _ h hc => ⟨hJ.advance h hc, trivial⟩

theorem keeps_complain (w : Complaint) : Keeps J (complain w) fun _ => True :=
  fun _ _ _ h hc => ⟨hJ.complain h hc, trivial⟩

theorem keeps_enter (name : Text) :
    Keeps J (modify fun c => { c with table := c.table.enter name } : Reading Unit) fun _ => True := by
  intro c u c' h hc
  cases h
  exact ⟨hJ.enter name hc, trivial⟩

theorem keeps_logProgram (name : Option Text) : Keeps J (logProgram name) fun _ => True := by
  intro c u c' h hc
  cases h
  exact ⟨hJ.note _ hc, trivial⟩

/-! ### Skipping -/

theorem keeps_skip : ∀ k, Keeps J (skip k) fun _ => True
  | 0 => keeps_throw
  | k + 1 => by
    refine .kind_bind fun _ => ?_
    split
    · exact keeps_pure trivial
    · exact (keeps_advance hJ).bind fun _ _ => keeps_skip k

theorem keeps_reject (w : Complaint) : Keeps J (reject w) fun _ => True :=
  (keeps_complain hJ w).bind fun _ _ => .budget_bind (keeps_skip hJ)

theorem keeps_expect (expected : Token.Kind) (w : Complaint) :
    Keeps J (expect expected w) fun _ => True := by
  refine .kind_bind fun _ => ?_
  split
  · exact (keeps_advance hJ).bind fun _ _ => keeps_pure trivial
  · exact (keeps_reject hJ w).bind fun _ _ => keeps_pure trivial

theorem keeps_skipSemicolons : ∀ k, Keeps J (skipSemicolons k) fun _ => True
  | 0 => keeps_throw
  | k + 1 => by
    refine .kind_bind fun _ => ?_
    split
    · exact (keeps_advance hJ).bind fun _ _ => keeps_skipSemicolons k
    · exact keeps_pure trivial

theorem keeps_separator (terminal : Token.Kind) (start : Cursor) :
    Keeps J (separator terminal start) fun _ => True := by
  refine .get_bind fun now => ?_
  dsimp only
  split
  · exact .budget_bind (keeps_skipSemicolons hJ)
  · split
    · exact keeps_complain hJ _
    · split
      · split
        · exact (keeps_complain hJ _).bind fun _ _ => keeps_advance hJ
        · exact keeps_advance hJ
      · exact keeps_pure trivial

theorem keeps_branchSeparator (start : Cursor) :
    Keeps J (branchSeparator start) fun _ => True := by
  refine .get_bind fun now => ?_
  have pass (b : Bool) : Keeps J (if b then advance else pure ()) fun _ => True := by
    split
    · exact keeps_advance hJ
    · exact keeps_pure trivial
  dsimp only
  split
  · exact .budget_bind (keeps_skipSemicolons hJ)
  · split
    · exact keeps_pure trivial
    · split
      · exact (keeps_complain hJ _).bind fun _ _ => pass _
      · exact pass _

theorem keeps_programEnd : Keeps J programEnd fun _ => True := by
  have ending (bare : Prop) [Decidable bare] :
      Keeps J (if bare then reject .expectingPeriod else pure ()) fun _ => True := by
    split
    · exact keeps_reject hJ _
    · exact keeps_pure trivial
  refine .kind_bind fun _ => .budget_bind fun k => (keeps_skipSemicolons hJ k).bind fun _ _ =>
    .kind_bind fun _ => ?_
  split
  · exact keeps_advance hJ
  · exact ending _

end Changes

end Reading

end MiniPascal

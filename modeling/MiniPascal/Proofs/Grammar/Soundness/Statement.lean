import MiniPascal.Proofs.Grammar.Soundness.Expression

/-!
# Statements and programs that are read in quiet

As for expressions, what a reader of statements reads in quiet is a statement. Loops are where this
is not plain. A round of a list of statements may end in silence in front of a token that neither
separates nor ends statements; it is the next round that complains. What makes the induction go
through is that a list which is read in quiet, and in front of which there is neither a statement
nor a semicolon, is at its end already (`MiniPascal.Reading.sound_statements`).

* `MiniPascal.Reading.sound_statement`: statements.
* `MiniPascal.Reading.sound_program`: programs.
-/

namespace MiniPascal

open Cursor

/-! ### The names in parts of statements -/

theorem DerivesFormat.mentions {ts : List Token} {ns : List Node} (h : DerivesFormat ts ns) :
    Node.mentionsAll ns = [] := by
  cases h with
  | none => rfl
  | width _ hw => simp [hw.mentions_integer]
  | places _ hw _ hp => simp [hw.mentions_integer, hp.mentions_integer]

theorem DerivesLabels.mentions {ts : List Token} {ns : List Node} (h : DerivesLabels ts ns) :
    Node.mentionsAll ns = [] := by
  induction h with
  | one hn => simp [hn.mentions]
  | more hn _ _ ih => simp [hn.mentions, ih]

namespace Reading

variable {c c' : Cursor}

/-! ### Parts of statements -/

theorem sound_skipSemicolons {x : Unit} (k : Nat) (hc : c.Calm)
    (h : skipSemicolons k c = .ok x c') (hq : c'.reports.size = c.reports.size) :
    ∃ ts, Quiet c ts [] c' ∧ (∀ t ∈ ts, t.kind = .symbol .semicolon) ∧
      (c.current.kind = .symbol .semicolon → ts ≠ []) ∧ c'.current.kind ≠ .symbol .semicolon := by
  induction k generalizing c with
  | zero => cases h
  | succ k ih =>
    rw [skipSemicolons, kind_bind] at h
    split at h
    · rename_i hk
      obtain ⟨_, c₁, h₁, h⟩ := bind_eq_ok.1 h
      have hs₁ := steady_advance.grows h₁
      have hs₂ := ((steady_skipSemicolons k).mono (Nat.zero_le _)).grows h
      have hq₁ := quiet_advance hc (by simp [hk]) h₁ (by omega)
      obtain ⟨ts, hq₂, hts, -, hend⟩ := ih hq₁.calm h (by omega)
      refine ⟨c.current :: ts, hq₁.trans hq₂, ?_, by simp, hend⟩
      simpa [hk] using hts
    · rename_i hk
      obtain ⟨-, rfl⟩ := pure_eq_ok.1 h
      exact ⟨[], .refl hc, by simp, fun he => absurd he hk, hk⟩

theorem sound_assignment {n : Node} (hc : c.Calm) (hk : c.current.kind = .identifier)
    (h : assignment c = .ok n c') (hq : c'.reports.size = c.reports.size) :
    ∃ ts, Quiet c (c.current :: ts) n.mentions c' ∧ DerivesAssignment (c.current :: ts) n := by
  rw [assignment, current_bind, modify_bind] at h
  obtain ⟨_, c₁, h₁, h⟩ := bind_eq_ok.1 h
  obtain ⟨value, c₂, h₂, h⟩ := bind_eq_ok.1 h
  obtain ⟨rfl, rfl⟩ := pure_eq_ok.1 h
  have hs₁ := steady_advance.grows h₁
  have hs₂ := steady_rightSide.grows h₂
  have hq₀ := quiet_enter hc c.current.text
  have hq₁ := quiet_advance hq₀.calm (by simp [hk]) h₁ (Nat.le_antisymm (by
    have := hq₀.size_eq
    omega) hs₁)
  have hsize := hq₁.size_eq
  obtain ⟨b, c₃, h₃, h₂⟩ := bind_eq_ok.1 h₂
  have hs₃ := (steady_expect _ _).grows h₃
  have hs₄ : c₃.reports.size ≤ c₂.reports.size := by
    cases b with
    | true => exact steady_expression.grows h₂
    | false => exact (steady_pure none).grows h₂
  have hsize₀ := hq₀.size_eq
  obtain ⟨rfl, hbecomes, hq₃⟩ := sound_expect hq₁.calm (by decide) h₃ (by omega)
  obtain ⟨ts, v, rfl, hq₄, hv⟩ := sound_expression c₃ hq₃.calm h₂ (by omega)
  refine ⟨c₁.current :: ts, ?_, .intro hk hbecomes hv⟩
  simpa [Node.mentions] using hq₀.trans (hq₁.trans (hq₃.trans hq₄))

theorem sound_label (hc : c.Calm) : Ensures c label fun a c' =>
    ∃ ts n, a = some n ∧ Quiet c ts [] c' ∧ DerivesConstant ts n := by
  refine .current_bind (.ofNode? hc (fun _ h => (Token.kind_of_stringNode? h).2.2)
    (fun n _ hnode hq => ⟨_, n, rfl, hq, .string hnode⟩) fun a c' h hq => ?_)
  obtain ⟨ts, n, rfl, hq, hn⟩ :=
    sound_signedConstant (fun h => (Token.kind_of_numberNode? h).2.2) hc h hq
  exact ⟨ts, n, rfl, hq, .number hn⟩

theorem sound_moreLabels (k : Nat) {ns : List Node} (hc : c.Calm)
    (h : moreLabels k c = .ok ns c') (hq : c'.reports.size = c.reports.size) {ts₀ : List Token}
    {n₀ : Node} (hd : DerivesConstant ts₀ n₀) :
    ∃ ts, Quiet c ts [] c' ∧ DerivesLabels (ts₀ ++ ts) (n₀ :: ns) := by
  induction k generalizing c ns ts₀ n₀ with
  | zero => cases h
  | succ k ih =>
    rw [moreLabels, kind_bind] at h
    split at h
    · rename_i hk
      obtain ⟨node, c₂, h₁, h⟩ := bind_eq_ok.1 h
      obtain ⟨rest, c₃, h₃, h⟩ := bind_eq_ok.1 h
      obtain ⟨rfl, rfl⟩ := pure_eq_ok.1 h
      obtain ⟨_, c₁, h₁, h₂⟩ := bind_eq_ok.1 h₁
      have hs₁ := steady_advance.grows h₁
      have hs₂ := steady_label.grows h₂
      have hs₃ := ((steady_moreLabels k).mono (Nat.zero_le _)).grows h₃
      have hq₁ := quiet_advance hc (by simp [hk]) h₁ (by omega)
      obtain ⟨us, n, rfl, hq₂, hn⟩ := sound_label hq₁.calm h₂ (by omega)
      obtain ⟨ts, hq₃, hns⟩ := ih hq₂.calm h₃ (by omega) hn
      refine ⟨c.current :: (us ++ ts), by simpa using hq₁.trans (hq₂.trans hq₃), ?_⟩
      exact .more hd hk hns
    · obtain ⟨rfl, rfl⟩ := pure_eq_ok.1 h
      exact ⟨[], .refl hc, by simpa using DerivesLabels.one hd⟩

theorem sound_labels {n : Node} (hc : c.Calm) (h : labels c = .ok n c')
    (hq : c'.reports.size = c.reports.size) :
    ∃ ts ns, n = { kind := .selectConstants, line := c.current.line, children := ns } ∧
      Quiet c (c.current :: ts) [] c' ∧ DerivesLabels (c.current :: ts) ns := by
  rw [labels, current_bind] at h
  obtain ⟨first, c₁, h₁, h⟩ := bind_eq_ok.1 h
  rw [budget_bind] at h
  obtain ⟨rest, c₂, h₂, h⟩ := bind_eq_ok.1 h
  obtain ⟨rfl, rfl⟩ := pure_eq_ok.1 h
  have hs₁ := steady_label.grows h₁
  have hs₂ := ((steady_moreLabels _).mono (Nat.zero_le _)).grows h₂
  obtain ⟨ts₁, n₁, rfl, hq₁, hn₁⟩ := sound_label hc h₁ (by omega)
  obtain ⟨ts₂, hq₂, hns⟩ := sound_moreLabels _ hq₁.calm h₂ (by omega) hn₁
  obtain ⟨t, ts, rfl⟩ := hn₁.exists_cons
  have hq := hq₁.trans hq₂
  rw [List.cons_append] at hq
  obtain rfl := hq.current
  exact ⟨_, _, rfl, hq, hns⟩

/-! ### WRITE statements -/

theorem sound_writeArgument (hc : c.Calm) :
    Ensures c writeArgument fun a c' =>
      ∃ ts n, a = some n ∧ Quiet c ts n.mentions c' ∧ DerivesArgument ts n := by
  refine .current_bind ?_
  split
  · rename_i hk
    exact sound_variable hc hk (.var hk)
  · exact sound_number hc .constant
  · exact sound_number hc .constant
  · exact sound_number hc .constant
  · exact sound_string hc .constant

theorem sound_formatPart {w : Complaint} (hc : c.Calm) :
    Ensures c (formatPart w) fun a c' =>
      a = none ∧ Quiet c [] [] c' ∨
      ∃ colon ts n, a = some (some n) ∧ colon.kind = .symbol .colon ∧
        Quiet c (colon :: ts) [] c' ∧ DerivesSigned Token.integerNode? ts n := by
  refine .kind_bind ?_
  split
  · rename_i hk
    intro a c' h hq
    obtain ⟨_, c₁, h₁, h⟩ := bind_eq_ok.1 h
    obtain ⟨node, c₂, h₂, h⟩ := bind_eq_ok.1 h
    obtain ⟨rfl, rfl⟩ := pure_eq_ok.1 h
    have hs₁ := steady_advance.grows h₁
    have hs₂ := (steady_signedConstant _ _).grows h₂
    have hq₁ := quiet_advance hc (by simp [hk]) h₁ (by omega)
    obtain ⟨ts, n, rfl, hq₂, hn⟩ :=
      sound_signedConstant (fun h => (Token.kind_of_integerNode? h).2.2) hq₁.calm h₂ (by omega)
    exact .inr ⟨_, ts, n, rfl, hk, hq₁.trans hq₂, hn⟩
  · intro a c' h hq
    obtain ⟨rfl, rfl⟩ := pure_eq_ok.1 h
    exact .inl ⟨rfl, .refl hc⟩

theorem sound_writeFormat {a : List Node × Bool} (hc : c.Calm) (h : writeFormat c = .ok a c')
    (hq : c'.reports.size = c.reports.size) :
    a.2 = true ∧ ∃ ts, Quiet c ts [] c' ∧ DerivesFormat ts a.1 := by
  obtain ⟨width, c₁, h₁, h⟩ := bind_eq_ok.1 h
  have hs₁ := (steady_formatPart _).grows h₁
  match width, h with
  | none, h =>
    obtain ⟨rfl, rfl⟩ := pure_eq_ok.1 h
    obtain ⟨-, hq₁⟩ | ⟨_, _, _, ⟨⟩, -⟩ := sound_formatPart hc h₁ hq
    exact ⟨rfl, [], hq₁, .none⟩
  | some none, h =>
    obtain ⟨rfl, rfl⟩ := pure_eq_ok.1 h
    obtain ⟨⟨⟩, -⟩ | ⟨_, _, _, ⟨⟩, -⟩ := sound_formatPart hc h₁ hq
  | some (some width), h =>
    obtain ⟨places, c₂, h₂, h⟩ := bind_eq_ok.1 h
    have hs₂ := (steady_formatPart _).grows h₂
    have hend : c₂ = c' := by
      match places, h with
      | none, h => exact (pure_eq_ok.1 h).2
      | some none, h => exact (pure_eq_ok.1 h).2
      | some (some _), h => exact (pure_eq_ok.1 h).2
    subst hend
    obtain ⟨⟨⟩, -⟩ | ⟨colon, ts, w, heq, hcolon, hq₁, hw⟩ := sound_formatPart hc h₁ (by omega)
    cases heq
    rcases sound_formatPart hq₁.calm h₂ (by omega) with
      ⟨rfl, hq₂⟩ | ⟨colon', us, p, rfl, hcolon', hq₂, hp⟩
    · obtain ⟨rfl, -⟩ := pure_eq_ok.1 h
      exact ⟨rfl, _, by simpa using hq₁.trans hq₂, .width hcolon hw⟩
    · obtain ⟨rfl, -⟩ := pure_eq_ok.1 h
      exact ⟨rfl, _, hq₁.trans hq₂, .places hcolon hw hcolon' hp⟩

/-- The arguments of a WRITE statement with the parentheses around them. -/
theorem sound_writeArguments {ns : List Node} (hc : c.Calm) (h : writeArguments c = .ok ns c')
    (hq : c'.reports.size = c.reports.size) :
    ∃ l r ts us n ms, ns = n :: ms ∧ l.kind = .symbol .leftParen ∧ DerivesArgument ts n ∧
      DerivesFormat us ms ∧ r.kind = .symbol .rightParen ∧
      Quiet c (l :: ts ++ us ++ [r]) (Node.mentionsAll ns) c' := by
  obtain ⟨b, c₁, h₁, h⟩ := bind_eq_ok.1 h
  have hs₁ := (steady_expect _ _).grows h₁
  cases b with
  | false =>
    obtain ⟨rfl, rfl⟩ := pure_eq_ok.1 h
    exact absurd (sound_expect hc (by decide) h₁ hq).1 (by decide)
  | true =>
    obtain ⟨argument, c₂, h₂, h⟩ := bind_eq_ok.1 h
    have hs₂ := steady_writeArgument.grows h₂
    cases argument with
    | none =>
      obtain ⟨rfl, rfl⟩ := pure_eq_ok.1 h
      obtain ⟨-, -, hq₁⟩ := sound_expect hc (by decide) h₁ (by omega)
      obtain ⟨_, _, ⟨⟩, -⟩ := sound_writeArgument hq₁.calm h₂ (by omega)
    | some n =>
      obtain ⟨⟨format, complete⟩, c₃, h₃, h⟩ := bind_eq_ok.1 h
      have hs₃ := steady_writeFormat.grows h₃
      have hs₄ : c₃.reports.size ≤ c'.reports.size := by
        cases complete with
        | true =>
          obtain ⟨_, c₄, h₄, h⟩ := bind_eq_ok.1 h
          obtain ⟨-, rfl⟩ := pure_eq_ok.1 h
          exact (steady_expect _ _).grows h₄
        | false => exact (steady_pure _).grows h
      obtain ⟨-, hl, hq₁⟩ := sound_expect hc (by decide) h₁ (by omega)
      obtain ⟨ts, _, ⟨⟩, hq₂, hn⟩ := sound_writeArgument hq₁.calm h₂ (by omega)
      obtain ⟨hcomplete, us, hq₃, hf⟩ := sound_writeFormat hq₂.calm h₃ (by omega)
      obtain rfl : complete = true := hcomplete
      obtain ⟨_, c₄, h₄, h⟩ := bind_eq_ok.1 h
      obtain ⟨rfl, rfl⟩ := pure_eq_ok.1 h
      obtain ⟨-, hr, hq₄⟩ := sound_expect hq₃.calm (by decide) h₄ (by omega)
      refine ⟨_, _, ts, us, n, format, rfl, hl, hn, hf, hr, ?_⟩
      rw [Node.mentionsAll_cons, hf.mentions]
      simpa using hq₁.trans (hq₂.trans (hq₃.trans hq₄))

/-- A phrase was passed, and its trees were returned. -/
def ReadsStatement (phrase : StatementPhrase) (c : Cursor) (ns : List Node) (c' : Cursor) : Prop :=
  ∃ ts, Quiet c ts (Node.mentionsAll ns) c' ∧ DerivesStatement phrase c'.current.line ts ns

theorem sound_writeStatement {kind : Node.Kind} (hc : c.Calm) (hk : c.current.kind = .identifier)
    (hw : c.current.writeKind? = some kind) :
    Ensures c (writeStatement kind) fun n c' => ReadsStatement .statement c [n] c' := by
  intro n c' h hq
  have hkind : kind ≠ .var ∧ kind ≠ .program ∧ kind ≠ .assign := by
    rcases Token.writeKind?_cases hw with rfl | rfl <;> decide
  rw [writeStatement, current_bind] at h
  obtain ⟨_, c₁, h₁, h⟩ := bind_eq_ok.1 h
  have hs₁ := steady_advance.grows h₁
  rw [kind_bind] at h
  split at h
  · rename_i hbare
    rw [Bool.and_eq_true, decide_eq_true_eq] at hbare
    obtain ⟨rfl, rfl⟩ := pure_eq_ok.1 h
    obtain ⟨rfl, -⟩ := hbare
    have hq₁ := quiet_advance hc (by simp [hk]) h₁ hq
    refine ⟨[c.current], ?_, .writeln hk hw⟩
    simpa [Node.mentions_operator hkind] using hq₁
  · obtain ⟨ns, c₂, h₂, h⟩ := bind_eq_ok.1 h
    obtain ⟨rfl, rfl⟩ := pure_eq_ok.1 h
    have hs₂ := steady_writeArguments.grows h₂
    have hq₁ := quiet_advance hc (by simp [hk]) h₁ (by omega)
    obtain ⟨l, r, ts, us, n, ms, rfl, hl, hn, hf, hr, hq₂⟩ :=
      sound_writeArguments hq₁.calm h₂ (by omega)
    refine ⟨c.current :: l :: ts ++ us ++ [r], ?_, .write hk hw hl hn hf hr⟩
    rw [Node.mentionsAll_cons, Node.mentions_operator hkind]
    simpa using hq₁.trans hq₂

theorem sound_identifierStatement (hc : c.Calm) (hk : c.current.kind = .identifier) :
    Ensures c (identifierStatement c.current.text) fun n c' =>
      ReadsStatement .statement c [n] c' := by
  unfold identifierStatement
  split
  · rename_i hname
    exact sound_writeStatement hc hk (by simp [Token.writeKind?, hname])
  · split
    · rename_i hno hname
      exact sound_writeStatement hc hk (by rw [Token.writeKind?, if_neg hno, if_pos hname])
    · rename_i hno hno'
      intro n c' h hq
      obtain ⟨ts, hq, hd⟩ := sound_assignment hc hk h hq
      exact ⟨_, by simpa using hq, .assignment hd (by simp [Token.writeKind?, hno, hno'])⟩

/-! ### Lists of statements -/

/-- In front of a semicolon at least one is passed. -/
theorem sound_semicolons (k : Nat) (hc : c.Calm) (hk : c.current.kind = .symbol .semicolon) :
    Ensures c (skipSemicolons k) fun _ c' => ∃ s ss, Quiet c (s :: ss) [] c' ∧
      s.kind = .symbol .semicolon ∧ ∀ t ∈ ss, t.kind = .symbol .semicolon := by
  intro x c' h hq
  obtain ⟨ts, hq, hts, hne, -⟩ := sound_skipSemicolons k hc h hq
  obtain ⟨s, ss, rfl⟩ := List.exists_cons_of_ne_nil (hne hk)
  exact ⟨s, ss, hq, hts s (by simp), fun t ht => hts t (by simp [ht])⟩

/-- **A reader of statements is sound**: what it reads in quiet is a statement. It returns the
tree, or nothing if it stays where it is. -/
structure SoundStatement (inner : Reading (Option Node)) : Prop where
  reads : ∀ c : Cursor, c.Calm → Ensures c inner fun a c' =>
    ReadsStatement .statement c a.toList c'
  stays : ∀ c : Cursor, Ensures c inner fun a c' => a = none → c' = c

theorem sound_nested {inner : Reading (Option Node)} (hi : SoundStatement inner) (hc : c.Calm) :
    Ensures c (nested inner) fun n c' => ReadsStatement .nested c [n] c' := by
  intro n c' h hq
  rw [nested, current_bind] at h
  obtain ⟨a, c₁, h₁, h⟩ := bind_eq_ok.1 h
  cases a with
  | none =>
    obtain ⟨rfl, rfl⟩ := pure_eq_ok.1 h
    obtain rfl := hi.stays c h₁ hq rfl
    exact ⟨[], .refl hc, .none⟩
  | some n =>
    obtain ⟨rfl, rfl⟩ := pure_eq_ok.1 h
    obtain ⟨ts, hq, hd⟩ := hi.reads c hc h₁ hq
    exact ⟨ts, hq, .some hd⟩

/-- What follows a statement in quiet: semicolons, or nothing if no other statement starts there.
If nothing was read either, then the list is at its end. -/
theorem sound_separator {terminal : Token.Kind} {start : Cursor} (hc : c.Calm)
    (hstart : c.reports.size = start.reports.size) :
    Ensures c (separator terminal start) fun _ c' =>
      (∃ s ss, Quiet c (s :: ss) [] c' ∧ s.kind = .symbol .semicolon ∧
        ∀ t ∈ ss, t.kind = .symbol .semicolon) ∨
      c' = c ∧ c.current.kind ≠ .symbol .semicolon ∧ c.current.kind.startsStatement = false ∧
        (c.rest.length = start.rest.length →
          c.current.kind = terminal ∨ c.current.kind = .endOfFile) := by
  intro x c' h hq
  rw [separator, get_bind] at h
  dsimp only at h
  split at h
  · rename_i hk
    rw [budget_bind] at h
    exact .inl (sound_semicolons _ hc hk h hq)
  · rename_i hk
    split at h
    · have := size_lt_of_complain h
      omega
    · rename_i hstarts
      split at h
      · obtain ⟨_, c₁, h₁, h⟩ := bind_eq_ok.1 h
        have := size_lt_of_complain h₁
        have := steady_advance.grows h
        omega
      · rename_i hend
        obtain ⟨-, rfl⟩ := pure_eq_ok.1 h
        refine .inr ⟨rfl, hk, by simpa using hstarts, fun hl => ?_⟩
        by_cases ht : c.current.kind = terminal
        · exact .inl ht
        · exact .inr (by simpa [hl, ht] using hend)

/-- **Lists of statements.** If neither a statement nor a semicolon is in front, then a list that
is read in quiet ends there. -/
theorem sound_statements {inner : Reading (Option Node)} (hs : Steady 0 inner)
    (hconsuming : Consuming inner) (hi : SoundStatement inner) {terminal : Token.Kind} (k : Nat)
    {ns : List Node} (hc : c.Calm) (h : statements inner terminal k c = .ok ns c')
    (hq : c'.reports.size = c.reports.size) :
    ReadsStatement .statements c ns c' ∧
      (c.current.kind.startsStatement = true ∨ c.current.kind = .symbol .semicolon ∨
        ns = [] ∧ c' = c) := by
  induction k generalizing c ns with
  | zero => cases h
  | succ k ih =>
    rw [statements, kind_bind] at h
    split at h
    · obtain ⟨rfl, rfl⟩ := pure_eq_ok.1 h
      exact ⟨⟨[], .refl hc, .one .empty⟩, .inr (.inr ⟨rfl, rfl⟩)⟩
    · rename_i hend
      obtain ⟨a, c₂, hround, h⟩ := bind_eq_ok.1 h
      obtain ⟨rest, c₃, h₃, h⟩ := bind_eq_ok.1 h
      obtain ⟨rfl, rfl⟩ := pure_eq_ok.1 h
      rw [statementRound, get_bind] at hround
      obtain ⟨a', c₁, h₁, hround⟩ := bind_eq_ok.1 hround
      obtain ⟨_, c₂', h₂, hround⟩ := bind_eq_ok.1 hround
      obtain ⟨rfl, rfl⟩ := pure_eq_ok.1 hround
      have hs₁ := hs.grows h₁
      have hs₂ := (steady_separator _ _).grows h₂
      have hs₃ := ((steady_statements hs hconsuming terminal k).mono (Nat.zero_le _)).grows h₃
      obtain ⟨ts, hq₁, hd₁⟩ := hi.reads c hc h₁ (by omega)
      -- the round starts with a statement, or it has not moved
      have hfirst : c.current.kind.startsStatement = true ∨ a' = none ∧ c₁ = c := by
        cases a' with
        | none => exact .inr ⟨rfl, hi.stays c h₁ (by omega) rfl⟩
        | some n =>
          obtain ⟨-, ⟨⟩⟩ | ⟨_, t, us, -, rfl, ht⟩ := hd₁.empty_or_starts
          exact .inl (hq₁.current ▸ ht)
      rcases sound_separator hq₁.calm (by omega) h₂ (by omega) with
        ⟨s, ss, hq₂, hsemi, hsemis⟩ | ⟨heq, hno, hnostart, hstay⟩
      · obtain ⟨⟨us, hq₃, hd₃⟩, -⟩ := ih hq₂.calm h₃ (by omega)
        refine ⟨⟨ts ++ s :: (ss ++ us), ?_, ?_⟩, ?_⟩
        · simpa using hq₁.trans (hq₂.trans hq₃)
        · rw [hq₂.current] at hd₁
          exact .more hd₁ hsemi (hd₃.semicolons_append hsemis)
        · rcases hfirst with hfirst | ⟨-, rfl⟩
          · exact .inl hfirst
          · rw [hq₂.current]
            exact .inr (.inl hsemi)
      · -- the next round is in front of neither a statement nor a semicolon
        rw [heq] at h₃
        obtain ⟨-, hnext⟩ := ih hq₁.calm h₃ (by omega)
        obtain ⟨rfl, rfl⟩ : rest = [] ∧ c₃ = c₁ := by
          rcases hnext with hnext | hnext | hnext
          · rw [hnostart] at hnext
            cases hnext
          · exact absurd hnext hno
          · exact hnext
        refine ⟨⟨ts, by simpa using hq₁, by simpa using DerivesStatement.one hd₁⟩, ?_⟩
        rcases hfirst with hfirst | ⟨-, rfl⟩
        · exact .inl hfirst
        · simp only [Bool.or_eq_true, decide_eq_true_eq] at hend
          exact absurd (hstay rfl) hend

section Forms

variable {inner : Reading (Option Node)} (hs : Steady 0 inner) (hconsuming : Consuming inner)
  (hi : SoundStatement inner) (hc : c.Calm)

include hs hi hc

include hconsuming in
theorem sound_compoundOf (hk : c.current.kind = .keyword .beginKw) :
    Ensures c (compoundOf inner) fun n c' => ∃ ts e ns,
      n = { kind := .compound, line := c.current.line, children := ns } ∧
      Quiet c (c.current :: ts ++ [e]) (Node.mentionsAll ns) c' ∧
      DerivesStatement .statements e.line ts ns ∧ e.kind = .keyword .endKw := by
  intro n c' h hq
  rw [compoundOf, current_bind] at h
  obtain ⟨_, c₁, h₁, h⟩ := bind_eq_ok.1 h
  rw [budget_bind] at h
  obtain ⟨ns, c₂, h₂, h⟩ := bind_eq_ok.1 h
  obtain ⟨_, c₃, h₃, h⟩ := bind_eq_ok.1 h
  obtain ⟨rfl, rfl⟩ := pure_eq_ok.1 h
  have hs₁ := steady_advance.grows h₁
  have hs₂ := ((steady_statements hs hconsuming _ _).mono (Nat.zero_le _)).grows h₂
  have hs₃ := (steady_expect _ _).grows h₃
  have hq₁ := quiet_advance hc (by simp [hk]) h₁ (by omega)
  obtain ⟨⟨ts, hq₂, hd⟩, -⟩ := sound_statements hs hconsuming hi _ hq₁.calm h₂ (by omega)
  obtain ⟨-, hend, hq₃⟩ := sound_expect hq₂.calm (by decide) h₃ (by omega)
  exact ⟨ts, _, ns, rfl, by simpa using hq₁.trans (hq₂.trans hq₃), hd, hend⟩

/-! ### Choices and loops -/

/-- A word or a colon, and the statement behind it. -/
theorem sound_statementBehind (hk : c.current.kind ≠ .endOfFile) :
    Ensures c (do advance; return [← nested inner]) fun ns c' => ∃ ts s, ns = [s] ∧
      Quiet c (c.current :: ts) s.mentions c' ∧
      DerivesStatement .nested c'.current.line ts [s] := by
  intro ns c' h hq
  obtain ⟨_, c₁, h₁, h⟩ := bind_eq_ok.1 h
  obtain ⟨s, c₂, h₂, h⟩ := bind_eq_ok.1 h
  obtain ⟨rfl, rfl⟩ := pure_eq_ok.1 h
  have hs₁ := steady_advance.grows h₁
  have hs₂ := (steady_nested hs).grows h₂
  have hq₁ := quiet_advance hc hk h₁ (by omega)
  obtain ⟨ts, hq₂, hd⟩ := sound_nested hi hq₁.calm h₂ (by omega)
  exact ⟨ts, s, rfl, by simpa using hq₁.trans hq₂, hd⟩

theorem sound_alternative : Ensures c (alternative inner) fun ns c' =>
    ns = [] ∧ c' = c ∨
    ∃ ts e, ns = [e] ∧ c.current.kind = .keyword .elseKw ∧
      Quiet c (c.current :: ts) e.mentions c' ∧
      DerivesStatement .nested c'.current.line ts [e] := by
  refine .kind_bind ?_
  split
  · rename_i hk
    intro ns c' h hq
    obtain ⟨ts, e, rfl, hq, hd⟩ := sound_statementBehind hs hi hc (by simp [hk]) h hq
    exact .inr ⟨ts, e, rfl, hk, hq, hd⟩
  · intro ns c' h hq
    obtain ⟨rfl, rfl⟩ := pure_eq_ok.1 h
    exact .inl ⟨rfl, rfl⟩

theorem sound_conditionalOf (hk : c.current.kind = .keyword .ifKw) :
    Ensures c (conditionalOf inner) fun n c' => ReadsStatement .statement c [n] c' := by
  intro n c' h hq
  rw [conditionalOf, current_bind] at h
  obtain ⟨_, c₁, h₁, h⟩ := bind_eq_ok.1 h
  obtain ⟨condition, c₂, h₂, h⟩ := bind_eq_ok.1 h
  obtain ⟨parts, c₃, h₃, h⟩ := bind_eq_ok.1 h
  obtain ⟨rfl, rfl⟩ := pure_eq_ok.1 h
  have hs₁ := steady_advance.grows h₁
  have hs₂ := steady_expression.grows h₂
  have hs₃ := (steady_consequences hs).grows h₃
  have hq₁ := quiet_advance hc (by simp [hk]) h₁ (by omega)
  obtain ⟨ts, e, rfl, hq₂, he⟩ := sound_expression c₁ hq₁.calm h₂ (by omega)
  have hq₁₂ := hq₁.trans hq₂
  rw [consequences, kind_bind] at h₃
  dsimp only at h₃
  split at h₃
  · have := size_lt_of_reject_bind (fun _ => steady_thenPart hs) h₃
    omega
  · rename_i hthen
    rw [Decidable.not_not] at hthen
    rw [thenPart, kind_bind, if_pos hthen] at h₃
    obtain ⟨_, c₄, h₄, h₃⟩ := bind_eq_ok.1 h₃
    obtain ⟨first, c₅, h₅, h₃⟩ := bind_eq_ok.1 h₃
    obtain ⟨second, c₆, h₆, h₃⟩ := bind_eq_ok.1 h₃
    obtain ⟨rfl, rfl⟩ := pure_eq_ok.1 h₃
    have hs₄ := steady_advance.grows h₄
    have hs₅ := (steady_nested hs).grows h₅
    have hs₆ := (steady_alternative hs).grows h₆
    have hq₄ := quiet_advance hq₂.calm (by simp [hthen]) h₄ (by omega)
    obtain ⟨us, hq₅, hd₅⟩ := sound_nested hi hq₄.calm h₅ (by omega)
    have hq₁₅ := hq₁₂.trans (hq₄.trans hq₅)
    rcases sound_alternative hs hi hq₅.calm h₆ (by omega) with
      ⟨rfl, rfl⟩ | ⟨vs, e', rfl, helse, hq₆, hd₆⟩
    · refine ⟨_, ?_, .conditional hk he hthen hd₅⟩
      simpa [Node.mentions_operator] using hq₁₅
    · refine ⟨_, ?_, .alternative hk he hthen hd₅ helse hd₆⟩
      simpa [Node.mentions_operator] using hq₁₅.trans hq₆

/-- The body of a loop behind DO. -/
theorem sound_body (hdo : c.current.kind = .keyword .doKw) :
    Ensures c (body inner) fun ns c' => ∃ ts s, ns = [s] ∧
      Quiet c (c.current :: ts) s.mentions c' ∧
      DerivesStatement .nested c'.current.line ts [s] := by
  refine .kind_bind ?_
  rw [if_pos hdo]
  exact sound_statementBehind hs hi hc (by simp [hdo])

theorem sound_whileOf (hk : c.current.kind = .keyword .whileKw) :
    Ensures c (whileOf inner) fun n c' => ReadsStatement .statement c [n] c' := by
  intro n c' h hq
  rw [whileOf, current_bind] at h
  obtain ⟨_, c₁, h₁, h⟩ := bind_eq_ok.1 h
  obtain ⟨condition, c₂, h₂, h⟩ := bind_eq_ok.1 h
  have hs₁ := steady_advance.grows h₁
  have hs₂ := steady_expression.grows h₂
  rw [kind_bind] at h
  dsimp only at h
  split at h
  · obtain ⟨_, c₃, h₃, h⟩ := bind_eq_ok.1 h
    obtain ⟨_, c₄, h₄, h⟩ := bind_eq_ok.1 h
    obtain ⟨rfl, rfl⟩ := pure_eq_ok.1 h
    have := size_lt_of_reject h₃
    have := (steady_body hs).grows h₄
    omega
  · rename_i hdo
    rw [Decidable.not_not] at hdo
    obtain ⟨statement, c₄, h₄, h⟩ := bind_eq_ok.1 h
    obtain ⟨rfl, rfl⟩ := pure_eq_ok.1 h
    have hs₄ := (steady_body hs).grows h₄
    have hq₁ := quiet_advance hc (by simp [hk]) h₁ (by omega)
    obtain ⟨ts, e, rfl, hq₂, he⟩ := sound_expression c₁ hq₁.calm h₂ (by omega)
    obtain ⟨us, s, rfl, hq₄, hd⟩ := sound_body hs hi hq₂.calm hdo h₄ (by omega)
    refine ⟨_, ?_, .whileLoop hk he hdo hd⟩
    simpa [Node.mentions_operator] using hq₁.trans (hq₂.trans hq₄)

include hconsuming in
theorem sound_repeatOf (hk : c.current.kind = .keyword .repeatKw) :
    Ensures c (repeatOf inner) fun n c' => ReadsStatement .statement c [n] c' := by
  intro n c' h hq
  rw [repeatOf, current_bind] at h
  obtain ⟨_, c₁, h₁, h⟩ := bind_eq_ok.1 h
  rw [budget_bind] at h
  obtain ⟨ns, c₂, h₂, h⟩ := bind_eq_ok.1 h
  obtain ⟨test, c₅, htest, h⟩ := bind_eq_ok.1 h
  obtain ⟨rfl, rfl⟩ := pure_eq_ok.1 h
  have hs₁ := steady_advance.grows h₁
  have hs₂ := ((steady_statements hs hconsuming _ _).mono (Nat.zero_le _)).grows h₂
  have hs₅ := steady_untilTest.grows htest
  have hq₁ := quiet_advance hc (by simp [hk]) h₁ (by omega)
  obtain ⟨⟨ts, hq₂, hd⟩, -⟩ := sound_statements hs hconsuming hi _ hq₁.calm h₂ (by omega)
  rw [untilTest, current_bind] at htest
  obtain ⟨b, c₃, h₃, htest⟩ := bind_eq_ok.1 htest
  have hs₃ := (steady_expect _ _).grows h₃
  cases b with
  | false =>
    obtain ⟨rfl, rfl⟩ := pure_eq_ok.1 htest
    exact absurd (sound_expect hq₂.calm (by decide) h₃ (by omega)).1 (by decide)
  | true =>
    obtain ⟨condition, c₄, h₄, htest⟩ := bind_eq_ok.1 htest
    obtain ⟨rfl, rfl⟩ := pure_eq_ok.1 htest
    have hs₄ := steady_expression.grows h₄
    obtain ⟨-, huntil, hq₃⟩ := sound_expect hq₂.calm (by decide) h₃ (by omega)
    obtain ⟨us, e, rfl, hq₄, he⟩ := sound_expression c₃ hq₃.calm h₄ (by omega)
    refine ⟨_, ?_, .loop hk hd huntil he⟩
    simpa [Node.mentions_operator] using hq₁.trans (hq₂.trans (hq₃.trans hq₄))

omit hs hi in
/-- The limit in the header of a FOR statement that was quiet so far. -/
theorem sound_limit : Ensures c (limit c.reports.size) fun ns c' => ∃ ts l, ns = [l] ∧
    (c.current.kind = .keyword .toKw ∨ c.current.kind = .keyword .downtoKw) ∧
    Quiet c (c.current :: ts) l.mentions c' ∧ DerivesExpression .expression ts l := by
  have behind (hk : c.current.kind = .keyword .toKw ∨ c.current.kind = .keyword .downtoKw) :
      Ensures c (do advance; return (← expression).toList) fun ns c' => ∃ ts l, ns = [l] ∧
        (c.current.kind = .keyword .toKw ∨ c.current.kind = .keyword .downtoKw) ∧
        Quiet c (c.current :: ts) l.mentions c' ∧ DerivesExpression .expression ts l := by
    intro ns c' h hq
    obtain ⟨_, c₁, h₁, h⟩ := bind_eq_ok.1 h
    obtain ⟨_, c₂, h₂, h⟩ := bind_eq_ok.1 h
    obtain ⟨rfl, rfl⟩ := pure_eq_ok.1 h
    have hs₁ := steady_advance.grows h₁
    have hs₂ := steady_expression.grows h₂
    have hq₁ := quiet_advance hc (by rcases hk with hk | hk <;> simp [hk]) h₁ (by omega)
    obtain ⟨ts, l, rfl, hq₂, hl⟩ := sound_expression c₁ hq₁.calm h₂ (by omega)
    exact ⟨ts, l, rfl, hk, by simpa using hq₁.trans hq₂, hl⟩
  refine .kind_bind ?_
  split
  · rename_i hk
    exact behind (.inl hk)
  · rename_i hk
    exact behind (.inr hk)
  · refine .reportCount_bind ?_
    dsimp only
    rw [if_pos rfl]
    exact .reject_pure

omit hs hi in
theorem sound_controlAssignment : Ensures c controlAssignment fun ns c' => ∃ ts a, ns = [a] ∧
    Quiet c ts a.mentions c' ∧ DerivesAssignment ts a := by
  refine .kind_bind ?_
  split
  · rename_i hid
    intro ns c' h hq
    obtain ⟨a, c₁, h₁, h⟩ := bind_eq_ok.1 h
    obtain ⟨rfl, rfl⟩ := pure_eq_ok.1 h
    obtain ⟨ts, hq, ha⟩ := sound_assignment hc hid h₁ hq
    exact ⟨_, a, rfl, hq, ha⟩
  · exact .reject_pure

theorem sound_forOf (hk : c.current.kind = .keyword .forKw) :
    Ensures c (forOf inner) fun n c' => ReadsStatement .statement c [n] c' := by
  intro n c' h hq
  rw [forOf, current_bind] at h
  obtain ⟨_, c₁, h₁, h⟩ := bind_eq_ok.1 h
  rw [reportCount_bind] at h
  obtain ⟨control, c₂, h₂, h⟩ := bind_eq_ok.1 h
  rw [kind_bind] at h
  obtain ⟨limit, c₃, h₃, h⟩ := bind_eq_ok.1 h
  rw [kind_bind, reportCount_bind] at h
  have hs₁ := steady_advance.grows h₁
  have hs₂ := steady_controlAssignment.grows h₂
  have hs₃ := (steady_limit _).grows h₃
  dsimp only at h
  split at h
  · obtain ⟨_, c₄, h₄, h⟩ := bind_eq_ok.1 h
    obtain ⟨_, c₅, h₅, h⟩ := bind_eq_ok.1 h
    obtain ⟨rfl, rfl⟩ := pure_eq_ok.1 h
    have := size_lt_of_reject h₄
    have := (steady_body hs).grows h₅
    omega
  · rename_i hdo
    obtain ⟨statement, c₄, h₄, h⟩ := bind_eq_ok.1 h
    obtain ⟨rfl, rfl⟩ := pure_eq_ok.1 h
    have hs₄ := (steady_body hs).grows h₄
    -- a missing DO is passed over in silence only behind another report in the header
    have hdo : c₃.current.kind = .keyword .doKw := by
      have heq : c₃.reports.size = c₁.reports.size := by omega
      simpa [heq] using hdo
    have hq₁ := quiet_advance hc (by simp [hk]) h₁ (by omega)
    obtain ⟨ts, a, rfl, hq₂, ha⟩ := sound_controlAssignment hq₁.calm h₂ (by omega)
    have hlimit := sound_limit hq₂.calm
    rw [hq₂.size_eq] at hlimit
    obtain ⟨us, l, rfl, hto, hq₃, hl⟩ := hlimit h₃ (by omega)
    obtain ⟨vs, s, rfl, hq₄, hd⟩ := sound_body hs hi hq₃.calm hdo h₄ (by omega)
    refine ⟨_, ?_, .forLoop hk ha hto hl hdo hd⟩
    simpa [Node.mentions_operator] using hq₁.trans (hq₂.trans (hq₃.trans hq₄))

/-! ### CASE statements -/

theorem sound_branchStatement : Ensures c (branchStatement inner c.reports.size) fun ns c' =>
    ∃ ts s, ns = [s] ∧ c.current.kind = .symbol .colon ∧
      Quiet c (c.current :: ts) s.mentions c' ∧
      DerivesStatement .nested c'.current.line ts [s] := by
  refine .kind_bind ?_
  split
  · rename_i hk
    intro ns c' h hq
    obtain ⟨ts, s, rfl, hq, hd⟩ := sound_statementBehind hs hi hc (by simp [hk]) h hq
    exact ⟨ts, s, rfl, hk, hq, hd⟩
  · refine .reportCount_bind ?_
    dsimp only
    rw [if_pos rfl]
    exact .reject_pure

omit hs hi in
/-- What follows a branch in quiet: semicolons, or the end of the list. -/
theorem sound_branchSeparator {start : Cursor} (hstart : c.reports.size = start.reports.size) :
    Ensures c (branchSeparator start) fun _ c' =>
      (∃ s ss, Quiet c (s :: ss) [] c' ∧ s.kind = .symbol .semicolon ∧
        ∀ t ∈ ss, t.kind = .symbol .semicolon) ∨
      c' = c ∧ (c.current.kind = .keyword .endKw ∨ c.current.kind = .endOfFile) := by
  intro x c' h hq
  rw [branchSeparator, get_bind] at h
  dsimp only at h
  split at h
  · rename_i hk
    rw [budget_bind] at h
    exact .inl (sound_semicolons _ hc hk h hq)
  · split at h
    · rename_i hend
      obtain ⟨-, rfl⟩ := pure_eq_ok.1 h
      exact .inr ⟨rfl, by simpa using hend⟩
    · obtain ⟨_, c₁, h₁, h⟩ := bind_eq_ok.1 h
      have hlt := size_lt_of_complain h₁
      have hle : c₁.reports.size ≤ c'.reports.size := by
        split at h
        · exact steady_advance.grows h
        · exact (steady_pure _).grows h
      omega

theorem sound_branchRound (hno : c.current.kind ≠ .symbol .semicolon) :
    Ensures c (branchRound inner) fun ns c' =>
      (∃ ts s ss, Quiet c (ts ++ s :: ss) (Node.mentionsAll ns) c' ∧
        DerivesStatement .branch s.line ts ns ∧ s.kind = .symbol .semicolon ∧
        ∀ t ∈ ss, t.kind = .symbol .semicolon) ∨
      ReadsStatement .branch c ns c' ∧
        (c'.current.kind = .keyword .endKw ∨ c'.current.kind = .endOfFile) := by
  intro ns c' h hq
  rw [branchRound, get_bind, if_neg hno] at h
  obtain ⟨constants, c₁, h₁, h⟩ := bind_eq_ok.1 h
  obtain ⟨statement, c₂, h₂, h⟩ := bind_eq_ok.1 h
  obtain ⟨_, c₃, h₃, h⟩ := bind_eq_ok.1 h
  obtain ⟨rfl, rfl⟩ := pure_eq_ok.1 h
  have hs₁ := steady_labels.grows h₁
  have hs₂ := (steady_branchStatement hs _).grows h₂
  have hs₃ := (steady_branchSeparator _).grows h₃
  obtain ⟨ts, labels, rfl, hq₁, hlabels⟩ := sound_labels hc h₁ (by omega)
  have hstatement := sound_branchStatement hs hi hq₁.calm
  rw [hq₁.size_eq] at hstatement
  obtain ⟨us, s, rfl, hcolon, hq₂, hd⟩ := hstatement h₂ (by omega)
  have hbranch := DerivesStatement.branch hlabels hcolon hd
  have hq₁₂ : Quiet c _ s.mentions c₂ := hq₁.trans hq₂
  -- there are no names in the labels
  have hmentions : Node.mentionsAll [({ kind := .selectBranch, line := c.current.line, children :=
      [{ kind := .selectConstants, line := c.current.line, children := labels }, s] } : Node)] =
      s.mentions := by
    simp [Node.mentions_operator, hlabels.mentions]
  rcases sound_branchSeparator hq₂.calm (by omega) h₃ (by omega) with
    ⟨semi, ss, hq₃, hsemi, hss⟩ | ⟨rfl, hend⟩
  · refine .inl ⟨_, semi, ss, ?_, hq₃.current ▸ hbranch, hsemi, hss⟩
    rw [hmentions]
    simpa using hq₁₂.trans hq₃
  · exact .inr ⟨⟨_, hmentions ▸ hq₁₂, hbranch⟩, hend⟩

theorem sound_branches (k : Nat) : Ensures c (branches inner k) fun ns c' =>
    ReadsStatement .branches c ns c' := by
  induction k generalizing c with
  | zero => exact fun _ _ h => nomatch h
  | succ k ih =>
    intro ns c' h hq
    rw [branches, kind_bind] at h
    split at h
    · obtain ⟨rfl, rfl⟩ := pure_eq_ok.1 h
      exact ⟨[], .refl hc, .noBranch⟩
    · obtain ⟨first, c₁, h₁, h⟩ := bind_eq_ok.1 h
      obtain ⟨rest, c₂, h₂, h⟩ := bind_eq_ok.1 h
      obtain ⟨rfl, rfl⟩ := pure_eq_ok.1 h
      have hs₁ := (steady_branchRound hs).grows h₁
      have hs₂ := ((steady_branches hs k).mono (Nat.zero_le _)).grows h₂
      by_cases hsemi : c.current.kind = .symbol .semicolon
      · rw [branchRound, get_bind, if_pos hsemi] at h₁
        obtain ⟨_, c₃, h₃, hpure⟩ := bind_eq_ok.1 h₁
        obtain ⟨rfl, rfl⟩ := pure_eq_ok.1 hpure
        have hq₁ := quiet_advance hc (by simp [hsemi]) h₃ (by omega)
        obtain ⟨ts, hq₂, hd⟩ := ih hq₁.calm h₂ (by omega)
        exact ⟨_, hq₁.trans hq₂, .noBranchMore hsemi hd⟩
      · rcases sound_branchRound hs hi hc hsemi h₁ (by omega) with
          ⟨ts, s, ss, hq₁, hd₁, hs, hss⟩ | ⟨⟨ts, hq₁, hd₁⟩, hend⟩
        · obtain ⟨us, hq₂, hd₂⟩ := ih hq₁.calm h₂ (by omega)
          refine ⟨ts ++ s :: (ss ++ us), ?_,
            .moreBranches hd₁ hs (hd₂.semicolons_append_branches hss)⟩
          simpa using hq₁.trans hq₂
        · -- the branch ends the list, so that the next round reads nothing
          cases k with
          | zero => cases h₂
          | succ k =>
            rw [branches_of_end hend] at h₂
            cases h₂
            exact ⟨ts, by simpa using hq₁, by simpa using DerivesStatement.oneBranch hd₁⟩

theorem sound_selectOf (hk : c.current.kind = .keyword .caseKw) :
    Ensures c (selectOf inner) fun n c' => ReadsStatement .statement c [n] c' := by
  intro n c' h hq
  rw [selectOf, current_bind] at h
  obtain ⟨_, c₁, h₁, h⟩ := bind_eq_ok.1 h
  obtain ⟨selector, c₂, h₂, h⟩ := bind_eq_ok.1 h
  obtain ⟨parts, c₃, h₃, h⟩ := bind_eq_ok.1 h
  obtain ⟨rfl, rfl⟩ := pure_eq_ok.1 h
  have hs₁ := steady_advance.grows h₁
  have hs₂ := steady_expression.grows h₂
  have hs₃ := (steady_branchesPart hs).grows h₃
  have hq₁ := quiet_advance hc (by simp [hk]) h₁ (by omega)
  obtain ⟨ts, e, rfl, hq₂, he⟩ := sound_expression c₁ hq₁.calm h₂ (by omega)
  rw [branchesPart, kind_bind] at h₃
  dsimp only at h₃
  split at h₃
  · have := size_lt_of_reject_bind (fun _ => steady_ofPart hs) h₃
    omega
  · rename_i hof
    rw [Decidable.not_not] at hof
    rw [ofPart, kind_bind, if_pos hof] at h₃
    obtain ⟨_, c₄, h₄, h₃⟩ := bind_eq_ok.1 h₃
    rw [budget_bind] at h₃
    obtain ⟨ns, c₅, h₅, h₃⟩ := bind_eq_ok.1 h₃
    obtain ⟨_, c₆, h₆, h₃⟩ := bind_eq_ok.1 h₃
    obtain ⟨rfl, rfl⟩ := pure_eq_ok.1 h₃
    have hs₄ := steady_advance.grows h₄
    have hs₅ := ((steady_branches hs _).mono (Nat.zero_le _)).grows h₅
    have hs₆ := (steady_expect _ _).grows h₆
    have hq₄ := quiet_advance hq₂.calm (by simp [hof]) h₄ (by omega)
    obtain ⟨us, hq₅, hd₅⟩ := sound_branches hs hi hq₄.calm _ h₅ (by omega)
    obtain ⟨-, hend, hq₆⟩ := sound_expect hq₅.calm (by decide) h₆ (by omega)
    refine ⟨_, ?_, .select hk he hof hd₅ hend⟩
    simpa [Node.mentions_operator] using hq₁.trans (hq₂.trans (hq₄.trans (hq₅.trans hq₆)))

end Forms

/-! ### All statements -/

theorem sound_statementOf {inner : Reading (Option Node)} (hs : Steady 0 inner)
    (hconsuming : Consuming inner) (hi : SoundStatement inner) :
    SoundStatement (statementOf inner) := by
  have map {c : Cursor} {act : Reading Node}
      (ha : Ensures c act fun n c' => ReadsStatement .statement c [n] c') :
      Ensures c (some <$> act) fun a c' => ReadsStatement .statement c a.toList c' := by
    intro a c' h hq
    obtain ⟨n, hn, rfl⟩ := map_eq_ok.1 h
    exact ha hn hq
  have some_ne {c : Cursor} {act : Reading Node} :
      Ensures c (some <$> act) fun a c' => a = none → c' = c := by
    intro a c' h _ ha
    obtain ⟨n, -, rfl⟩ := map_eq_ok.1 h
    cases ha
  constructor
  · intro c hc
    refine .current_bind ?_
    split
    · rename_i hk
      exact map (sound_identifierStatement hc hk)
    · rename_i hk
      refine map fun n c' h hq => ?_
      obtain ⟨ts, e, ns, rfl, hq, hd, he⟩ := sound_compoundOf hs hconsuming hi hc hk h hq
      exact ⟨_, by simpa [Node.mentions_operator] using hq, .compound hk hd he⟩
    · rename_i hk
      exact map (sound_repeatOf hs hconsuming hi hc hk)
    · rename_i hk
      exact map (sound_conditionalOf hs hi hc hk)
    · rename_i hk
      exact map (sound_whileOf hs hi hc hk)
    · rename_i hk
      exact map (sound_forOf hs hi hc hk)
    · rename_i hk
      exact map (sound_selectOf hs hi hc hk)
    · split
      · intro a c' h hq
        obtain ⟨rfl, rfl⟩ := pure_eq_ok.1 h
        exact ⟨[], .refl hc, .empty⟩
      · exact .reject_pure
  · intro c
    refine .current_bind ?_
    split
    iterate 7 exact some_ne
    split
    · intro a c' h hq _
      exact (pure_eq_ok.1 h).2.symm
    · exact .reject_pure

theorem sound_statement : ∀ k, SoundStatement (statement k)
  | 0 => ⟨fun _ _ _ _ h => (nomatch h), fun _ _ _ h => (nomatch h)⟩
  | k + 1 =>
    have ⟨hconsuming, hs⟩ := consuming_statement k
    sound_statementOf (hs.mono (Nat.zero_le _)) hconsuming (sound_statement k)

/-! ### Programs -/

/-- The first token in quiet: nothing but what is in the feed is in front. -/
theorem quiet_start {feed : Feed} {table : SymbolTable} {x : Unit}
    (hfeed : ∀ t, .token t ∈ feed.rest → t.kind ≠ .endOfFile)
    (h : advance (.start feed table) = .ok x c) (hq : c.reports.size = feed.reports.size) :
    c.Calm ∧ c.ahead = feed.rest ∧ c.table = table ∧ c.reports = feed.reports := by
  rcases advance_eq_ok h with ⟨hr, rfl⟩ | ⟨t, rest, hr, rfl⟩
  · have hr' : feed.rest = [] := hr
    refine ⟨⟨⟨?_, fun _ => hr⟩, rfl⟩, ?_, rfl, rfl⟩
    · simp [Cursor.start, hr']
    · simp [ahead, hr']
  · have hr' : feed.rest = .token t :: rest := hr
    have hclean : t.reports = [] := by
      simpa [Feed.note, Cursor.start, ← Array.length_toList] using hq
    have hne : t.kind ≠ .endOfFile := hfeed t (by simp [hr'])
    refine ⟨⟨⟨fun u hu => hfeed u ?_, fun he => absurd he hne⟩, Token.isError_eq_false hclean⟩, ?_,
      rfl, by simp [Feed.note, Cursor.start, hclean]⟩
    · rw [hr']
      exact List.mem_cons_of_mem _ hu
    · rw [ahead_of_ne hne, hr']
      rfl

theorem sound_programEnd (hc : c.Calm) : Ensures c programEnd fun _ c' =>
    ∃ ts, Quiet c ts [] c' ∧ DerivesEnding ts ∧
      ((∃ p, ts.getLast? = some p ∧ p.kind = .symbol .period) ∨
        c'.current.kind ≠ .symbol .semicolon ∧ c'.current.kind ≠ .symbol .period) := by
  intro x c' h hq
  rw [programEnd, kind_bind, budget_bind] at h
  obtain ⟨_, c₁, h₁, h⟩ := bind_eq_ok.1 h
  have hs₁ := ((steady_skipSemicolons _).mono (Nat.zero_le _)).grows h₁
  rw [kind_bind] at h
  split at h
  · rename_i hperiod
    have hs₂ := steady_advance.grows h
    obtain ⟨ts, hq₁, hts, -, -⟩ := sound_skipSemicolons _ hc h₁ (by omega)
    have hq₂ := quiet_advance hq₁.calm (by simp [hperiod]) h (by omega)
    exact ⟨_, hq₁.trans hq₂, .period hts hperiod, .inl ⟨c₁.current, by simp, hperiod⟩⟩
  · rename_i hperiod
    split at h
    · have := size_lt_of_reject h
      omega
    · rename_i hbare
      obtain ⟨-, rfl⟩ := pure_eq_ok.1 h
      obtain ⟨ts, hq₁, hts, hne, hend⟩ := sound_skipSemicolons _ hc h₁ hq
      exact ⟨ts, hq₁, .bare hts (hne (by simpa using hbare)), .inr ⟨hend, hperiod⟩⟩

theorem sound_programName (hc : c.Calm) : Ensures c programName fun name c' =>
    name = some c.current.text ∧ c.current.kind = .identifier ∧
      Quiet c [c.current] [.declares c.current.text] c' := by
  refine .current_bind ?_
  split
  · rename_i hk
    intro name c' h hq
    rw [modify_bind] at h
    obtain ⟨_, c₁, h₁, h⟩ := bind_eq_ok.1 h
    obtain ⟨rfl, rfl⟩ := pure_eq_ok.1 h
    have hq₀ := quiet_enter hc c.current.text
    exact ⟨rfl, hk, hq₀.trans (quiet_advance hq₀.calm (by simp [hk]) h₁ hq)⟩
  · exact .reject_pure

theorem sound_programBody (hc : c.Calm) : Ensures c programBody fun children c' =>
    ∃ ts e ns, c.current.kind = .keyword .beginKw ∧
      children = [{ kind := .compound, line := c.current.line, children := ns }] ∧
      Quiet c (c.current :: ts ++ [e]) (Node.mentionsAll ns) c' ∧
      DerivesStatement .statements e.line ts ns ∧ e.kind = .keyword .endKw := by
  refine .kind_bind ?_
  split
  · rename_i hk
    intro children c' h hq
    rw [budget_bind] at h
    obtain ⟨n, c₁, h₁, h⟩ := bind_eq_ok.1 h
    obtain ⟨rfl, rfl⟩ := pure_eq_ok.1 h
    have ⟨hconsuming, hs⟩ := consuming_statement (c.rest.length + 2)
    obtain ⟨ts, e, ns, rfl, hq, hd, he⟩ :=
      sound_compoundOf (hs.mono (Nat.zero_le _)) hconsuming (sound_statement _) hc hk h₁ hq
    exact ⟨ts, e, ns, hk, rfl, hq, hd, he⟩
  · exact .reject_pure

/-- What a quiet reader of programs has done, from the cursor in front of the feed. -/
structure AcceptsProgram (feed : Feed) (table : SymbolTable) (tree : Node) (ts : List Token)
    (c' : Cursor) : Prop where
  derives : DerivesProgram ts tree
  rest : feed.rest = ts.map .token ++ c'.ahead
  clean : ∀ t ∈ ts, t.isError = false
  calm : c'.Calm
  declared : Declared table tree.mentions
  table : c'.table = table.enterAll tree.mentions
  /-- The end of the program is as long as it can be. -/
  longest : (∃ p, ts.getLast? = some p ∧ p.kind = .symbol .period) ∨
    c'.current.kind ≠ .symbol .semicolon ∧ c'.current.kind ≠ .symbol .period

/-- **Programs**: what is read in quiet is a program, every name in it is declared before it is
used, and the next token is no error token. -/
theorem sound_program {feed : Feed} {table : SymbolTable} {tree : Node}
    (hfeed : ∀ t, .token t ∈ feed.rest → t.kind ≠ .endOfFile)
    (h : program (.start feed table) = .ok tree c')
    (hq : c'.reports.size = feed.reports.size) : ∃ ts, AcceptsProgram feed table tree ts c' := by
  obtain ⟨_, c₁, h₁, h⟩ := bind_eq_ok.1 h
  rw [current_bind] at h
  obtain ⟨_, c₂, h₂, h⟩ := bind_eq_ok.1 h
  obtain ⟨name, c₃, h₃, h⟩ := bind_eq_ok.1 h
  obtain ⟨_, c₄, h₄, h⟩ := bind_eq_ok.1 h
  obtain ⟨children, c₅, h₅, h⟩ := bind_eq_ok.1 h
  obtain ⟨_, c₆, h₆, h⟩ := bind_eq_ok.1 h
  obtain ⟨_, c₇, h₇, h⟩ := bind_eq_ok.1 h
  obtain ⟨rfl, rfl⟩ := pure_eq_ok.1 h
  -- as many reports at the end as at the start, and never fewer: every part is quiet
  have hs₁ : feed.reports.size ≤ c₁.reports.size := steady_advance.grows h₁
  have hs₂ := (steady_expect _ _).grows h₂
  have hs₃ := steady_programName.grows h₃
  have hs₄ := (steady_expect _ _).grows h₄
  have hs₅ := steady_programBody.grows h₅
  have hs₆ := steady_programEnd.grows h₆
  have hs₇ := (steady_logProgram _).grows h₇
  obtain ⟨hc₁, hahead, htable, hreports⟩ := quiet_start hfeed h₁ (by omega)
  obtain ⟨-, hp, hq₂⟩ := sound_expect hc₁ (by decide) h₂ (by omega)
  obtain ⟨rfl, hname, hq₃⟩ := sound_programName hq₂.calm h₃ (by omega)
  obtain ⟨-, hsemi, hq₄⟩ := sound_expect hq₃.calm (by decide) h₄ (by omega)
  obtain ⟨ts, e, ns, hbegin, rfl, hq₅, hd, hend⟩ := sound_programBody hq₄.calm h₅ (by omega)
  obtain ⟨ending, hq₆, hending, hlongest⟩ := sound_programEnd hq₅.calm h₆ (by omega)
  obtain ⟨⟩ := h₇
  have hquiet := hq₂.trans (hq₃.trans (hq₄.trans (hq₅.trans hq₆)))
  refine ⟨_, .intro hp hname hsemi hbegin hd hend hending, ?_, ?_, ?_, ?_, ?_, ?_⟩
  · rw [← hahead, hquiet.ahead]
    simp [ahead]
  · simpa using hquiet.clean
  · exact ⟨⟨hquiet.calm.tidy.inner, hquiet.calm.tidy.last⟩, hquiet.calm.clean⟩
  · rw [← htable]
    simpa [Node.mentions_program, Node.mentions_operator] using hquiet.declared
  · rw [← htable]
    simpa [Node.mentions_program, Node.mentions_operator] using hquiet.table
  · refine hlongest.imp ?_ id
    rintro ⟨p, hlast, hperiod⟩
    exact ⟨p, by simp [List.getLast?_append, List.getLast?_cons, hlast], hperiod⟩

end Reading

end MiniPascal

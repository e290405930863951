import MiniPascal.Proofs.Grammar.Soundness.Expression

/-!
# Expressions are read in quiet

In front of an expression, and with a token behind it that does not go on with it, the reader
of expressions passes it without a report and returns its tree. This is said of actions by
`MiniPascal.Reading.Reads`, which is kept by sequencing. Where there is something to report, it is said
by `MiniPascal.Reading.ReadsWith` which reports are made.

The chains of operands are where reading and grammar run in opposite directions: the grammar adds
an operand behind a chain, and the reader goes on with what it has. The statement for chains is
therefore about what is still to be done: to read a chain is to read its operands and then to go on
with its tree in hand.

* `MiniPascal.Cursor.Faces`: the tokens in front of a cursor, and the names in them.
* `MiniPascal.Reading.ReadsWith`: an action passes what is in front, and makes some reports.
* `MiniPascal.Reading.complete_expression`: expressions.
-/

namespace MiniPascal

namespace Cursor

/-! ### Facing tokens -/

/-- What is to come behind the tokens in front of a cursor: other lexemes, and the symbol table with
all names of these tokens. -/
structure Tail where
  lexemes : List Lexeme
  table : SymbolTable

variable {tail : Tail} {c c' : Cursor} {t : Token} {ts s : List Token} {ms ns : List Mention}

/-- **The cursor has the given tokens in front**, none of which is an error token, and the given
names may be met. Behind the tokens there is `tail`. -/
structure Faces (tail : Tail) (c : Cursor) (s : List Token) (ms : List Mention) : Prop where
  ahead : c.ahead = s.map .token ++ tail.lexemes
  clean : ∀ t ∈ s, t.isError = false
  tidy : c.Tidy
  declared : Declared c.table ms
  table : c.table.enterAll ms = tail.table

theorem Faces.current (h : Faces tail c (t :: s) ms) : c.current = t := (current_of_ahead h.ahead).1

theorem Faces.calm (h : Faces tail c (t :: s) ms) : c.Calm :=
  ⟨h.tidy, by rw [h.current]; exact h.clean t List.mem_cons_self⟩

/-- Passing some of the tokens and names leaves the others. -/
theorem Faces.of_quiet (h : Faces tail c (ts ++ s) (ms ++ ns)) (hq : Quiet c ts ms c') :
    Faces tail c' s ns := by
  have hl := h.ahead
  refine ⟨?_, fun t ht => h.clean t (List.mem_append_right ts ht), hq.calm.tidy, ?_, ?_⟩
  · rw [hq.ahead, List.map_append, List.append_assoc] at hl
    exact List.append_cancel_left hl
  · rw [hq.table]
    exact ((declared_append _ _ _).1 h.declared).2
  · rw [hq.table, ← SymbolTable.enterAll_append]
    exact h.table

/-- There are no more tokens in front than the feed holds. -/
theorem Faces.length_le (h : Faces tail c s ms) : s.length ≤ c.rest.length + 1 := by
  have hlen : s.length ≤ c.ahead.length := by simp [h.ahead]
  refine Nat.le_trans hlen ?_
  unfold Cursor.ahead
  split <;> simp

end Cursor

namespace Reading

open Cursor

/-! ### Reading what is in front -/

/-- **The action returns the given result and makes the given reports**, and the given tokens and names
are left. -/
def ReadsWith {α : Type} (rs : List Report) (tail : Tail) (c : Cursor) (act : Reading α) (a : α)
    (s : List Token) (ms : List Mention) : Prop :=
  ∃ c', act c = .ok a c' ∧ Faces tail c' s ms ∧ c'.reports.toList = c.reports.toList ++ rs

/-- **The action returns the given result in quiet**, and the given tokens and names are left. -/
abbrev Reads {α : Type} (tail : Tail) (c : Cursor) (act : Reading α) (a : α) (s : List Token)
    (ms : List Mention) : Prop := ReadsWith [] tail c act a s ms

section Rules

variable {α β : Type} {rs rs' : List Report} {tail : Tail} {c : Cursor} {t : Token} {s s' : List Token}
  {ms ms' : List Mention} {x : Reading α} {f : α → Reading β} {a : α} {b : β}

theorem ReadsWith.bind (hx : ReadsWith rs tail c x a s ms)
    (hf : ∀ c', Faces tail c' s ms → ReadsWith rs' tail c' (f a) b s' ms') :
    ReadsWith (rs ++ rs') tail c (x >>= f) b s' ms' := by
  obtain ⟨c₁, h₁, hface₁, hr₁⟩ := hx
  obtain ⟨c₂, h₂, hface₂, hr₂⟩ := hf c₁ hface₁
  exact ⟨c₂, (bind_of_ok h₁).trans h₂, hface₂, by rw [hr₂, hr₁, List.append_assoc]⟩

/-- What follows in quiet makes no more reports. -/
theorem ReadsWith.bind_reads (hx : ReadsWith rs tail c x a s ms)
    (hf : ∀ c', Faces tail c' s ms → Reads tail c' (f a) b s' ms') :
    ReadsWith rs tail c (x >>= f) b s' ms' := by
  have h := hx.bind hf
  rwa [List.append_nil] at h

/-- All reports are made by what follows. -/
theorem Reads.bind (hx : Reads tail c x a s ms)
    (hf : ∀ c', Faces tail c' s ms → ReadsWith rs tail c' (f a) b s' ms') :
    ReadsWith rs tail c (x >>= f) b s' ms' := ReadsWith.bind hx hf

theorem ReadsWith.map {g : α → β} (hx : ReadsWith rs tail c x a s ms) :
    ReadsWith rs tail c (g <$> x) (g a) s ms := by
  obtain ⟨c₁, h₁, hface₁, hr₁⟩ := hx
  exact ⟨c₁, map_eq_ok.2 ⟨a, h₁, rfl⟩, hface₁, hr₁⟩

theorem reads_pure (h : Faces tail c s ms) (a : α) : Reads tail c (pure a) a s ms :=
  ⟨c, rfl, h, (List.append_nil _).symm⟩

theorem ReadsWith.current_bind {g : Token → Reading β} (h : ReadsWith rs tail c (g c.current) b s ms) :
    ReadsWith rs tail c (current >>= g) b s ms := h

theorem ReadsWith.kind_bind {g : Token.Kind → Reading β}
    (h : ReadsWith rs tail c (g c.current.kind) b s ms) : ReadsWith rs tail c (kind >>= g) b s ms := h

theorem ReadsWith.budget_bind {g : Nat → Reading β}
    (h : ReadsWith rs tail c (g (c.rest.length + 2)) b s ms) :
    ReadsWith rs tail c (budget >>= g) b s ms := h

theorem reads_enter {name : Text} (hface : Faces tail c s (.declares name :: ms)) :
    Reads tail c (modify fun c => { c with table := c.table.enter name } : Reading Unit) () s ms :=
  ⟨_, rfl, ⟨hface.ahead, hface.clean, ⟨hface.tidy.inner, hface.tidy.last⟩, hface.declared, hface.table⟩,
    (List.append_nil _).symm⟩

/-- With another token behind the current one, one can move on. -/
theorem reads_advance (h : Faces tail c (t :: s) ms) (hs : s ≠ []) :
    Reads tail c advance () s ms := by
  obtain ⟨u, s, rfl⟩ := List.exists_cons_of_ne_nil hs
  obtain ⟨rfl, hr, hk⟩ := current_of_ahead h.ahead
  obtain ⟨c', hadv⟩ : ∃ c', advance c = .ok () c' := by
    simp only [advance, Feed.next, hr, List.map_cons]
    exact ⟨_, rfl⟩
  have hquiet := quiet_advance h.calm hk hadv <| by
    rcases advance_eq_ok hadv with ⟨hr', -⟩ | ⟨t', rest, hr', rfl⟩
    · simp [hr] at hr'
    · obtain ⟨rfl⟩ : u = t' := by simp_all
      simp [Feed.note, Token.reports_eq_nil (h.clean u (by simp))]
  have hface : Faces tail c ([c.current] ++ u :: s) ([] ++ ms) := h
  exact ⟨c', hadv, hface.of_quiet hquiet, by rw [hquiet.reports, List.append_nil]⟩

theorem reads_expect {expected : Token.Kind} {w : Complaint} (h : Faces tail c (t :: s) ms)
    (ht : t.kind = expected) (hs : s ≠ []) :
    Reads tail c (expect expected w) true s ms := by
  refine .kind_bind ?_
  rw [h.current, if_pos ht]
  exact (reads_advance h hs).bind fun _ h => reads_pure h true

/-! ### Leaves -/

theorem reads_variableUse (h : Faces tail c (t :: s) (.uses t.text :: ms)) (hs : s ≠ []) :
    Reads tail c variableUse t.variableNode s ms := by
  have hcontains : c.table.contains t.text = true := h.declared.1
  have hface : Faces tail c (t :: s) ms := ⟨h.ahead, h.clean, h.tidy, h.declared.2, h.table⟩
  refine .current_bind ?_
  rw [h.current]
  change Reads tail c (if c.table.contains t.text then _ else _) _ _ _
  rw [if_pos hcontains]
  exact (reads_advance hface hs).bind fun _ h => reads_pure h _

theorem reads_constantBehind {node? : Bool → Token → Option Node} {w : Complaint}
    {negative : Bool} {n : Node} (hn : node? negative t = some n) (h : Faces tail c (t :: s) ms)
    (hs : s ≠ []) : Reads tail c (constantBehind node? w negative) (some n) s ms := by
  refine .current_bind ?_
  rw [h.current, hn]
  exact (reads_advance h hs).bind fun _ h => reads_pure h _

theorem reads_signedConstant {node? : Bool → Token → Option Node} {w : Complaint}
    (hminus : ∀ {negative t}, t.kind = .symbol .minus → node? negative t = none) {ts : List Token}
    {n : Node} (hd : DerivesSigned node? ts n) (h : Faces tail c (ts ++ s) ms)
    (hs : s ≠ []) : Reads tail c (signedConstant node? w) (some n) s ms := by
  refine .kind_bind ?_
  dsimp only
  cases hd with
  | @plain t _ hn =>
    have hk : t.kind ≠ .symbol .minus := by
      intro hk
      rw [hminus hk] at hn
      cases hn
    rw [h.current, if_neg hk, decide_eq_false hk]
    exact reads_constantBehind hn h hs
  | negative hm hn =>
    rw [h.current, if_pos hm, decide_eq_true hm]
    exact (reads_advance h (by simp)).bind fun _ h => reads_constantBehind hn h hs

/-- A number starts with a number token or a minus sign. -/
theorem number_first {ts : List Token} {n : Node} (hd : DerivesSigned Token.numberNode? ts n) :
    ∃ t us, ts = t :: us ∧
      ((∃ i, t.kind = .integer i) ∨ (∃ x, t.kind = .real x) ∨ t.kind = .symbol .minus) := by
  cases hd with
  | negative hm => exact ⟨_, _, rfl, .inr (.inr hm)⟩
  | @plain t _ hn =>
    refine ⟨t, [], rfl, ?_⟩
    unfold Token.numberNode? Token.integerNode? at hn
    split at hn
    · exact .inr (.inl ⟨_, by assumption⟩)
    · split at hn
      · exact .inl ⟨_, by assumption⟩
      · cases hn

theorem string_first {n : Node} (hn : t.stringNode? = some n) :
    (∃ x, t.kind = .character x) ∨ ∃ x, t.kind = .string x := by
  unfold Token.stringNode? at hn
  dsimp only at hn
  split at hn
  · exact .inl ⟨_, by assumption⟩
  · exact .inr ⟨_, by assumption⟩
  · cases hn

theorem reads_number {w : Complaint} {ts : List Token} {n : Node}
    (hd : DerivesSigned Token.numberNode? ts n) (h : Faces tail c (ts ++ s) ms)
    (hs : s ≠ []) : Reads tail c (signedNumber w) (some n) s ms := by
  refine reads_signedConstant (fun {_ t} hk => ?_) hd h hs
  simp [Token.numberNode?, Token.integerNode?, hk]

end Rules

end Reading

/-- Tokens that can start a constant. -/
def Token.Kind.startsConstant : Kind → Bool
  | integer _ | real _ | character _ | string _ | symbol .minus => true
  | _ => false

theorem DerivesConstant.startsConstant {t : Token} {ts us vs : List Token} {n : Node}
    (h : DerivesConstant ts n) (hts : ts ++ us = t :: vs) : t.kind.startsConstant = true := by
  cases h with
  | number hn =>
    obtain ⟨t', us', rfl, ht⟩ := Reading.number_first hn
    obtain ⟨rfl, -⟩ := List.cons.inj hts
    rcases ht with ⟨i, ht⟩ | ⟨x, ht⟩ | ht <;> rw [ht] <;> rfl
  | string hn =>
    obtain ⟨rfl, -⟩ := List.cons.inj hts
    rcases Reading.string_first hn with ⟨x, ht⟩ | ⟨x, ht⟩ <;> rw [ht] <;> rfl

/-- Labels start with a constant. -/
theorem DerivesLabels.startsConstant {t : Token} {us : List Token} {ns : List Node}
    (h : DerivesLabels (t :: us) ns) : t.kind.startsConstant = true := by
  generalize hts : t :: us = ts at h
  cases h with
  | one hn => exact hn.startsConstant ((List.append_nil _).trans hts.symm)
  | more hn => exact hn.startsConstant hts.symm

/-! ### Where expressions end -/

/-- The kind of token does not go on with the phrase. -/
def ExpressionPhrase.EndsAt (k : Token.Kind) : ExpressionPhrase → Prop
  | factor => True
  | chain .term => k.multiplicative? = none
  | chain .simple => k.multiplicative? = none ∧ k.additive? = none
  | expression => k.multiplicative? = none ∧ k.additive? = none ∧ k.relation? = none

theorem Level.endsAt_operand {level : Level} {k : Token.Kind} {kind : Node.Kind}
    (h : level.operator? k = some kind) : level.operand.EndsAt k := by
  cases level with
  | term => trivial
  | simple =>
    simp only [operator?, Token.Kind.additive?] at h
    split at h <;> first | rfl | cases h

theorem Token.Kind.endsAt_simple {k : Token.Kind} {kind : Node.Kind}
    (h : k.relation? = some kind) : (ExpressionPhrase.chain .simple).EndsAt k := by
  unfold relation? at h
  split at h <;> first | exact ⟨rfl, rfl⟩ | cases h

theorem Level.endsAt_chain {level : Level} {k : Token.Kind} :
    (ExpressionPhrase.chain level).EndsAt k ↔
      level.operand.EndsAt k ∧ level.operator? k = none := by
  cases level with
  | term => exact (iff_of_eq (true_and _)).symm
  | simple => exact Iff.rfl

namespace Reading

open Cursor

/-! ### Expressions -/

/-- The reader of a phrase, with a bound on the nesting of factors. -/
def phraseReader (d : Nat) : ExpressionPhrase → Reading (Option Node)
  | .factor => factor d
  | .chain .term => termOf (factor d)
  | .chain .simple => simpleOf (factor d)
  | .expression => expressionOf (factor d)

theorem phraseReader_chain (d : Nat) (level : Level) :
    phraseReader d (.chain level) = (do
      let left ← phraseReader d level.operand
      chain level.operator? (phraseReader d level.operand) (← budget) left) := by
  cases level <;> rfl

/-- The phrase is read in quiet, wherever it stands. -/
def Complete (phrase : ExpressionPhrase) (ts : List Token) (n : Node) : Prop :=
  ∀ d, ts.length ≤ d → ∀ (tail : Tail) (c : Cursor) (u : Token) (s : List Token) (ms : List Mention),
    Faces tail c (ts ++ u :: s) (n.mentions ++ ms) → phrase.EndsAt u.kind →
    Reads tail c (phraseReader d phrase) (some n) (u :: s) ms

/-- To read a chain is to go on with its tree in hand. -/
def CompleteChain (level : Level) (ts : List Token) (n : Node) : Prop :=
  ∀ d, ts.length ≤ d → ∀ (tail : Tail) (c : Cursor) (u : Token) (s : List Token) (ms : List Mention),
    Faces tail c (ts ++ u :: s) (n.mentions ++ ms) → level.operand.EndsAt u.kind →
    ∀ (b : Option Node) (s' : List Token) (ms' : List Mention),
      (∀ c' k, Faces tail c' (u :: s) ms → s.length < k →
        Reads tail c' (chain level.operator? (phraseReader d level.operand) k (some n)) b s' ms') →
      Reads tail c (phraseReader d (.chain level)) b s' ms'

/-- What is shown of every phrase by induction. -/
def CompletePhrase : ExpressionPhrase → List Token → Node → Prop
  | .chain level, ts, n => CompleteChain level ts n
  | phrase, ts, n => Complete phrase ts n

theorem CompleteChain.complete {level : Level} {ts : List Token} {n : Node}
    (h : CompleteChain level ts n) : Complete (.chain level) ts n := by
  intro d hd tail c u s ms hface hend
  obtain ⟨hoperand, hnone⟩ := Level.endsAt_chain.1 hend
  refine h d hd _ c u s ms hface hoperand _ _ _ fun c' k hface' hk => ?_
  obtain ⟨k, rfl⟩ : ∃ k', k = k' + 1 := ⟨k - 1, by omega⟩
  rw [chain]
  refine .current_bind ?_
  rw [hface'.current, hnone]
  exact reads_pure hface' _

theorem CompletePhrase.complete {phrase : ExpressionPhrase} {ts : List Token} {n : Node}
    (h : CompletePhrase phrase ts n) : Complete phrase ts n := by
  cases phrase with
  | chain level => exact CompleteChain.complete h
  | factor => exact h
  | expression => exact h

/-- A constant as a factor. -/
theorem reads_factor_constant {inner : Reading (Option Node)} {tail : Tail} {c : Cursor} {u : Token}
    {ts s : List Token} {ms : List Mention} {n : Node} (hd : DerivesConstant ts n)
    (h : Faces tail c (ts ++ u :: s) ms) : Reads tail c (factorOf inner) (some n) (u :: s) ms := by
  refine .current_bind ?_
  cases hd with
  | number hn =>
    obtain ⟨t, us, rfl, ht⟩ := number_first hn
    rw [h.current]
    rcases ht with ⟨i, ht⟩ | ⟨x, ht⟩ | ht <;> rw [ht] <;> exact reads_number hn h (by simp)
  | string hn =>
    have hread : Reads tail c (advance >>= fun _ => pure (some n)) (some n) (u :: s) ms :=
      (reads_advance h (by simp)).bind fun _ h => reads_pure h _
    rw [h.current]
    rcases string_first hn with ⟨x, ht⟩ | ⟨x, ht⟩ <;> rw [ht] <;> dsimp only <;> rw [hn] <;>
      exact hread

theorem complete_phrase {phrase : ExpressionPhrase} {ts : List Token} {n : Node}
    (h : DerivesExpression phrase ts n) : CompletePhrase phrase ts n := by
  induction h with
  | @var t hk =>
    rintro (_ | d) hd tail c u s ms hface -
    · simp at hd
    refine .current_bind ?_
    rw [hface.current, hk]
    exact (reads_variableUse (by simpa using hface) (by simp)).map
  | constant hn =>
    rintro (_ | d) hd tail c u s ms hface -
    · obtain ⟨t, us, rfl⟩ := hn.exists_cons
      simp at hd
    exact reads_factor_constant hn (by simpa [hn.mentions] using hface)
  | @not t ts n hk _ ih =>
    rintro (_ | d) hd tail c u s ms hface -
    · simp at hd
    have hface : Faces tail c (t :: (ts ++ u :: s)) (n.mentions ++ ms) := by
      simpa [Node.mentions_operator] using hface
    refine .current_bind ?_
    rw [hface.current, hk]
    refine (reads_advance hface (by simp)).bind fun c₁ h₁ => ?_
    refine (ih d (by simpa using hd) _ c₁ u s ms h₁ trivial).bind fun c₂ h₂ => ?_
    exact reads_pure h₂ _
  | @parens l r ts n hl _ hr ih =>
    rintro (_ | d) hd tail c u s ms hface -
    · simp at hd
    have hface : Faces tail c (l :: (ts ++ r :: u :: s)) (n.mentions ++ ms) := by
      simpa using hface
    refine .current_bind ?_
    rw [hface.current, hl]
    refine (reads_advance hface (by simp)).bind fun c₁ h₁ => ?_
    have hend : ExpressionPhrase.expression.EndsAt r.kind := by
      rw [hr]
      exact ⟨rfl, rfl, rfl⟩
    refine (ih d (by simp at hd; omega) _ c₁ r _ ms h₁ hend).bind fun c₂ h₂ => ?_
    refine (reads_expect h₂ hr (by simp)).bind fun c₃ h₃ => ?_
    exact reads_pure h₃ _
  | @operand level ts n _ ih =>
    intro d hd tail c u s ms hface hend b s' ms' hgo
    rw [phraseReader_chain]
    refine (ih.complete d hd _ c u s ms hface hend).bind fun c₁ h₁ => .budget_bind ?_
    have := h₁.length_le
    exact hgo c₁ _ h₁ (by simp at this; omega)
  | @operator level ts us op kind l r _ hop _ ihl ihr =>
    intro d hd tail c u s ms hface hend b s' ms' hgo
    have hlen : ts.length + (us.length + 1) ≤ d := by simpa using hd
    have hface : Faces tail c (ts ++ op :: (us ++ u :: s)) (l.mentions ++ (r.mentions ++ ms)) := by
      simpa [Node.mentions_binary (Level.isBinary_of_operator? hop)] using hface
    -- with the left chain in hand, the operator and its right operand are the next round
    refine ihl d (by omega) _ c op _ _ hface (Level.endsAt_operand hop) b s' ms'
      fun c₁ k h₁ hk => ?_
    obtain ⟨k, rfl⟩ : ∃ k', k = k' + 1 := ⟨k - 1, by omega⟩
    rw [chain]
    refine .current_bind ?_
    rw [h₁.current, hop]
    refine (reads_advance h₁ (by simp)).bind fun c₂ h₂ => ?_
    refine (ihr.complete d (by omega) _ c₂ u s ms h₂ hend).bind fun c₃ h₃ => ?_
    exact hgo c₃ k h₃ (by simp at hk; omega)
  | simple _ ih =>
    intro d hd tail c u s ms hface hend
    refine (ih.complete d hd _ c u s ms hface ⟨hend.1, hend.2.1⟩).bind fun c₁ h₁ => ?_
    refine .current_bind ?_
    rw [h₁.current, hend.2.2]
    exact reads_pure h₁ _
  | @relation ts us op kind l r _ hop _ ihl ihr =>
    intro d hd tail c u s ms hface hend
    have hlen : ts.length + (us.length + 1) ≤ d := by simpa using hd
    have hface : Faces tail c (ts ++ op :: (us ++ u :: s)) (l.mentions ++ (r.mentions ++ ms)) := by
      simpa [Node.mentions_binary (Token.Kind.isBinary_of_relation? hop)] using hface
    refine (ihl.complete d (by omega) _ c op _ _ hface (Token.Kind.endsAt_simple hop)).bind
      fun c₁ h₁ => ?_
    refine .current_bind ?_
    rw [h₁.current, hop]
    refine (reads_advance h₁ (by simp)).bind fun c₂ h₂ => ?_
    refine (ihr.complete d (by omega) _ c₂ u s ms h₂ ⟨hend.1, hend.2.1⟩).bind fun c₃ h₃ => ?_
    exact reads_pure h₃ _

/-- **Expressions are read in quiet**: the number of tokens bounds the nesting of factors. -/
theorem complete_expression {tail : Tail} {c : Cursor} {ts s : List Token} {n : Node} {u : Token}
    {ms : List Mention} (hd : DerivesExpression .expression ts n)
    (hface : Faces tail c (ts ++ u :: s) (n.mentions ++ ms))
    (hend : ExpressionPhrase.expression.EndsAt u.kind) :
    Reads tail c expression (some n) (u :: s) ms := by
  have hlen := hface.length_le
  refine .budget_bind (complete_phrase hd _ ?_ _ c u s ms hface hend)
  simp at hlen
  omega

end Reading

end MiniPascal

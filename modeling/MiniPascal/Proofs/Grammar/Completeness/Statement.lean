import MiniPascal.Proofs.Grammar.Ambiguity
import MiniPascal.Proofs.Grammar.Completeness.Expression
import MiniPascal.Proofs.Grammar.Soundness.Statement

/-!
# Statements are read in quiet

In front of a statement whose tree has every ELSE at the nearest IF, and with a token behind it
that can follow a statement, the reader of statements passes it without a report and returns its
tree. The one token that needs care is an ELSE behind the statement: it must not belong to it, which
is to say that the statement does not end open.

Lists of statements are read in another rhythm than the grammar has. All semicolons behind a
statement are passed at once, while to the grammar there is an empty statement between any two. The
semicolons that a list starts with are therefore split off first.

What is shown of the forms of statements does not ask their parts to be right. A statement whose parts
are passed with some reports is passed with these reports and no others.

* `MiniPascal.Reading.CompleteFor`: the statements are passed, and some reports are made.
* `MiniPascal.Reading.complete_statement`: statements of the grammar.
-/

namespace MiniPascal

namespace Reading

open Cursor

/-! ### Parts of statements -/

section Parts

variable {tail : Tail} {c : Cursor} {t u : Token} {ts s : List Token} {ms : List Mention}
  {n : Node}

theorem reads_assignment (hd : DerivesAssignment ts n)
    (hface : Faces tail c (ts ++ u :: s) (n.mentions ++ ms))
    (hend : ExpressionPhrase.expression.EndsAt u.kind) :
    Reads tail c assignment n (u :: s) ms := by
  obtain @⟨t, b, ts, e, hk, hb, he⟩ := hd
  have hface : Faces tail c (t :: b :: (ts ++ u :: s)) (.declares t.text :: (e.mentions ++ ms)) := by
    simpa [Node.mentions, Token.variableNode] using hface
  refine .current_bind ?_
  rw [hface.current]
  refine (reads_enter hface).bind fun c₁ h₁ => ?_
  refine (reads_advance h₁ (by simp)).bind fun c₂ h₂ => ?_
  have hright : Reads tail c₂ rightSide (some e) (u :: s) ms :=
    (reads_expect h₂ hb (by simp)).bind fun c₃ h₃ => complete_expression he h₃ hend
  exact hright.bind fun c₃ h₃ => reads_pure h₃ _

theorem reads_label (hd : DerivesConstant ts n) (hface : Faces tail c (ts ++ s) ms)
    (hs : s ≠ []) : Reads tail c label (some n) s ms := by
  refine .current_bind ?_
  cases hd with
  | number hn =>
    obtain ⟨t, us, rfl, ht⟩ := number_first hn
    have hnone : t.stringNode? = none := by
      rcases ht with ⟨i, ht⟩ | ⟨x, ht⟩ | ht <;> simp [Token.stringNode?, ht]
    rw [hface.current, hnone]
    exact reads_number hn hface hs
  | string hn =>
    rw [hface.current, hn]
    exact (reads_advance hface hs).bind fun _ h => reads_pure h _

/-- The labels behind the first one are read as long as there are commas. -/
theorem labels_split {ns : List Node} (hd : DerivesLabels ts ns) :
    ∃ n ns' ts₁ ts₂, ns = n :: ns' ∧ ts = ts₁ ++ ts₂ ∧ DerivesConstant ts₁ n ∧
      ∀ c k, ts₂.length < k → u.kind ≠ .symbol .comma → Faces tail c (ts₂ ++ u :: s) ms →
        Reads tail c (moreLabels k) ns' (u :: s) ms := by
  induction hd with
  | @one ts n hn =>
    refine ⟨n, [], ts, [], rfl, by simp, hn, fun c k hk hu hface => ?_⟩
    obtain ⟨k, rfl⟩ : ∃ k', k = k' + 1 := ⟨k - 1, by simp at hk; omega⟩
    refine .kind_bind ?_
    rw [hface.current, if_neg hu]
    exact reads_pure hface _
  | @more ts us comma n ns hn hcomma _ ih =>
    obtain ⟨n', ns', us₁, us₂, rfl, rfl, hn', hmore⟩ := ih
    refine ⟨n, n' :: ns', ts, comma :: (us₁ ++ us₂), rfl, rfl, hn, fun c k hk hu hface => ?_⟩
    have hlen : us₁.length + us₂.length + 1 < k := by simpa using hk
    obtain ⟨k, rfl⟩ : ∃ k', k = k' + 1 := ⟨k - 1, by omega⟩
    have hface : Faces tail c (comma :: (us₁ ++ (us₂ ++ u :: s))) ms := by simpa using hface
    refine .kind_bind ?_
    rw [hface.current, if_pos hcomma]
    have hround : Reads tail c labelRound (some n') (us₂ ++ u :: s) ms :=
      (reads_advance hface (by simp)).bind fun c₁ h₁ => reads_label hn' h₁ (by simp)
    refine hround.bind fun c₁ h₁ => ?_
    refine (hmore c₁ k (by omega) hu h₁).bind fun c₂ h₂ => ?_
    exact reads_pure h₂ _

theorem reads_labels {ns : List Node} (hd : DerivesLabels (t :: ts) ns)
    (hu : u.kind ≠ .symbol .comma) (hface : Faces tail c (t :: ts ++ u :: s) ms) :
    Reads tail c labels { kind := .selectConstants, line := t.line, children := ns } (u :: s) ms := by
  obtain ⟨n, ns', ts₁, ts₂, rfl, hts, hn, hmore⟩ := labels_split hd
  refine .current_bind ?_
  have hcurrent : c.current = t := hface.current
  rw [hcurrent]
  rw [hts, List.append_assoc] at hface
  refine (reads_label hn hface (by simp)).bind fun c₁ h₁ => .budget_bind ?_
  have hlen := h₁.length_le
  refine (hmore c₁ _ (by simp at hlen; omega) hu h₁).bind fun c₂ h₂ => ?_
  exact reads_pure h₂ _

/-! ### WRITE statements -/

theorem reads_writeArgument (hd : DerivesArgument ts n)
    (hface : Faces tail c (ts ++ s) (n.mentions ++ ms)) (hs : s ≠ []) :
    Reads tail c writeArgument (some n) s ms := by
  refine .current_bind ?_
  cases hd with
  | @var t hk =>
    rw [hface.current, hk]
    exact (reads_variableUse (by simpa using hface) hs).map
  | constant hn =>
    rw [hn.mentions, List.nil_append] at hface
    cases hn with
    | number hn =>
      obtain ⟨t, us, rfl, ht⟩ := number_first hn
      rw [hface.current]
      rcases ht with ⟨i, ht⟩ | ⟨x, ht⟩ | ht <;> rw [ht] <;> exact reads_number hn hface hs
    | string hn =>
      have hread : Reads tail c (advance >>= fun _ => pure (some n)) (some n) s ms :=
        (reads_advance hface hs).bind fun _ h => reads_pure h _
      rw [hface.current]
      rcases string_first hn with ⟨x, ht⟩ | ⟨x, ht⟩ <;> rw [ht] <;> dsimp only <;> rw [hn] <;>
        exact hread

theorem reads_formatPart {w : Complaint} {colon : Token} (hcolon : colon.kind = .symbol .colon)
    (hd : DerivesSigned Token.integerNode? ts n) (hface : Faces tail c (colon :: (ts ++ s)) ms)
    (hs : s ≠ []) : Reads tail c (formatPart w) (some (some n)) s ms := by
  refine .kind_bind ?_
  rw [hface.current, if_pos hcolon]
  refine (reads_advance hface (by simp [hs])).bind fun c₁ h₁ => ?_
  have hnumber := reads_signedConstant (w := w)
    (fun {_ t} hk => by simp [Token.integerNode?, hk]) hd h₁ hs
  exact hnumber.bind fun c₂ h₂ => reads_pure h₂ _

theorem reads_no_formatPart {w : Complaint} (hu : u.kind ≠ .symbol .colon)
    (hface : Faces tail c (u :: s) ms) : Reads tail c (formatPart w) none (u :: s) ms := by
  refine .kind_bind ?_
  rw [hface.current, if_neg hu]
  exact reads_pure hface _

theorem reads_writeFormat {ns : List Node} (hd : DerivesFormat ts ns)
    (hu : u.kind ≠ .symbol .colon) (hface : Faces tail c (ts ++ u :: s) ms) :
    Reads tail c writeFormat (ns, true) (u :: s) ms := by
  cases hd with
  | none =>
    exact (reads_no_formatPart hu hface).bind fun c₁ h₁ => reads_pure h₁ _
  | width hcolon hw =>
    refine (reads_formatPart hcolon hw hface (by simp)).bind fun c₁ h₁ => ?_
    exact (reads_no_formatPart hu h₁).bind fun c₂ h₂ => reads_pure h₂ _
  | @places colon colon' us vs w p hcolon hw hcolon' hp =>
    have hface : Faces tail c (colon :: (us ++ (colon' :: (vs ++ u :: s)))) ms := by simpa using hface
    refine (reads_formatPart hcolon hw hface (by simp)).bind fun c₁ h₁ => ?_
    refine (reads_formatPart hcolon' hp h₁ (by simp)).bind fun c₂ h₂ => ?_
    exact reads_pure h₂ _

theorem reads_writeStatement {l r : Token} {us : List Token} {k : Node.Kind} {ns : List Node}
    (hl : l.kind = .symbol .leftParen) (hn : DerivesArgument ts n) (hf : DerivesFormat us ns)
    (hr : r.kind = .symbol .rightParen)
    (hface : Faces tail c (t :: l :: (ts ++ (us ++ r :: s))) (n.mentions ++ ms))
    (hs : s ≠ []) :
    Reads tail c (writeStatement k) { kind := k, line := t.line, children := n :: ns } s ms := by
  refine .current_bind ?_
  rw [hface.current]
  refine (reads_advance hface (by simp)).bind fun c₁ h₁ => .kind_bind ?_
  rw [h₁.current, hl]
  have hargs : Reads tail c₁ writeArguments (n :: ns) s ms := by
    refine (reads_expect h₁ hl (by simp)).bind fun c₂ h₂ => ?_
    refine (reads_writeArgument hn h₂ (by simp)).bind fun c₃ h₃ => ?_
    refine (reads_writeFormat hf (by simp [hr]) h₃).bind fun c₄ h₄ => ?_
    refine (reads_expect h₄ hr hs).bind fun c₅ h₅ => ?_
    exact reads_pure h₅ _
  rw [if_neg (by simp)]
  exact hargs.bind fun c₂ h₂ => reads_pure h₂ _

/-- The name of the first token decides which statement an identifier starts. -/
theorem identifierStatement_eq (t : Token) :
    identifierStatement t.text =
      match t.writeKind? with
      | some kind => writeStatement kind
      | none => assignment := by
  unfold identifierStatement Token.writeKind?
  split
  · rfl
  · split <;> rfl

/-- A statement is read by the reader that the name of its first token decides on. -/
theorem reads_identifierStatement {rs : List Report} {tail : Tail} {c : Cursor} {t : Token}
    {inner : Reading (Option Node)} {n : Node} {s : List Token} {ms : List Mention}
    (ht : c.current = t) (hk : t.kind = .identifier)
    (h : ReadsWith rs tail c
      (match t.writeKind? with
        | some kind => writeStatement kind
        | none => assignment) n s ms) :
    ReadsWith rs tail c (statementOf inner) (some n) s ms := by
  refine .current_bind ?_
  rw [ht, hk]
  dsimp only
  rw [identifierStatement_eq]
  exact h.map

end Parts

/-! ### What is to be shown -/

/-- There is nothing to report, whatever token is next. -/
def silent : Token → List Report := fun _ => []

@[simp] theorem silent_apply (u : Token) : silent u = [] := rfl

/-- The tokens do not end with a word that a statement is to follow. -/
def Finished (ts : List Token) : Prop :=
  ∃ t ∈ ts.getLast?, t.kind ≠ .keyword .thenKw ∧ t.kind ≠ .keyword .elseKw ∧ t.kind ≠ .keyword .doKw

theorem not_finished_nil : ¬ Finished [] := fun ⟨_, ht, _⟩ => nomatch ht

/-- What is finished ends behind a word that a statement is to follow with a statement that is
finished, too. -/
theorem Finished.behind {k : Token} {ts us : List Token} (h : Finished (ts ++ k :: us))
    (hk : k.kind = .keyword .thenKw ∨ k.kind = .keyword .elseKw ∨ k.kind = .keyword .doKw) :
    Finished us := by
  obtain ⟨t, ht, hne⟩ := h
  cases us with
  | nil =>
    obtain rfl : k = t := by simpa using ht
    rcases hk with hk | hk | hk <;> simp [hk] at hne
  | cons u us => exact ⟨t, by simpa [List.getLast?_append, List.getLast?_cons] using ht, hne⟩

/-- **The token can follow the statements**, and does not go on with them. Behind a finished
statement that there is nothing to report of, the next statement can follow at once. -/
structure Fits (rs : Token → List Report) (u : Token) (next : Nat) (ts : List Token)
    (ns : List Node) : Prop where
  line : u.line = next
  follows : u.kind.followsEmptyStatement = true ∨
    u.kind.startsStatement = true ∧ Finished ts ∧ ∀ v, rs v = []
  nearest : ∀ n ∈ ns, n.ElseNearest
  closed : u.kind = .keyword .elseKw → ∀ n ∈ ns, n.endsOpen = false

/-- A statement is read, wherever it fits. What is reported on the way depends on the token behind
the statement only. -/
def CompleteStatement (rs : Token → List Report) (next : Nat) (ts : List Token) (ns : List Node) :
    Prop :=
  ∀ d, ts.length < d → ∀ (tail : Tail) (c : Cursor) (u : Token) (s : List Token) (ms : List Mention),
    Fits rs u next ts ns → Faces tail c (ts ++ u :: s) (Node.mentionsAll ns ++ ms) →
    ∃ a : Option Node, a.toList = ns ∧ ReadsWith (rs u) tail c (statement d) a (u :: s) ms

/-- The same for a statement within another one. -/
def CompleteNested (rs : Token → List Report) (next : Nat) (ts : List Token) (ns : List Node) :
    Prop :=
  ∀ d, ts.length < d → ∀ (tail : Tail) (c : Cursor) (u : Token) (s : List Token) (ms : List Mention),
    Fits rs u next ts ns → Faces tail c (ts ++ u :: s) (Node.mentionsAll ns ++ ms) →
    ∃ n, ns = [n] ∧ ReadsWith (rs u) tail c (nested (statement d)) n (u :: s) ms

/-- A list of statements is read up to the token that ends it. -/
def ReadsList (rs : Token → List Report) (next : Nat) (ts : List Token) (ns : List Node) : Prop :=
  ∀ d k, ts.length < d → ts.length < k →
    ∀ (tail : Tail) (c : Cursor) (u : Token) (s : List Token) (ms : List Mention),
    u.line = next → u.kind = .keyword .endKw ∨ u.kind = .keyword .untilKw →
    (∀ n ∈ ns, n.ElseNearest) → Faces tail c (ts ++ u :: s) (Node.mentionsAll ns ++ ms) →
    ReadsWith (rs u) tail c (statements (statement d) u.kind k) ns (u :: s) ms

/-- The branches of a CASE statement are read up to its END. -/
def ReadsBranches (rs : Token → List Report) (next : Nat) (ts : List Token) (ns : List Node) :
    Prop :=
  ∀ d k, ts.length < d → ts.length < k →
    ∀ (tail : Tail) (c : Cursor) (u : Token) (s : List Token) (ms : List Mention),
    u.line = next → u.kind = .keyword .endKw →
    (∀ n ∈ ns, n.ElseNearest) → Faces tail c (ts ++ u :: s) (Node.mentionsAll ns ++ ms) →
    ReadsWith (rs u) tail c (branches (statement d) k) ns (u :: s) ms

/-- A branch is read, and then what follows it. -/
def CompleteBranch (rs : Token → List Report) (next : Nat) (ts : List Token) (ns : List Node) :
    Prop :=
  ∀ d, ts.length < d →
    ∀ (tail : Tail) (c : Cursor) (u : Token) (s : List Token) (ms : List Mention) (s' : List Token),
    u.line = next → u.kind = .keyword .endKw ∨ u.kind = .symbol .semicolon →
    (∀ n ∈ ns, n.ElseNearest) → Faces tail c (ts ++ u :: s) (Node.mentionsAll ns ++ ms) →
    (∀ c', Faces tail c' (u :: s) ms → Reads tail c' (branchSeparator c) () s' ms) →
    ReadsWith (rs u) tail c (branchRound (statement d)) ns s' ms

/-- The semicolons in front are split off, and the rest has the given property. -/
def BehindSemicolons (p : List Token → Prop) (ts : List Token) : Prop :=
  ∃ semicolons us, ts = semicolons ++ us ∧ (∀ s ∈ semicolons, s.kind = .symbol .semicolon) ∧
    (∀ t ∈ us.head?, t.kind ≠ .symbol .semicolon) ∧ p us

/-- **The phrase is passed with the given reports**, wherever it fits. -/
def CompleteFor (rs : Token → List Report) :
    StatementPhrase → Nat → List Token → List Node → Prop
  | .statement, next, ts, ns => CompleteStatement rs next ts ns
  | .nested, next, ts, ns => CompleteNested rs next ts ns
  | .statements, next, ts, ns => BehindSemicolons (ReadsList rs next · ns) ts
  | .branch, next, ts, ns => CompleteBranch rs next ts ns
  | .branches, next, ts, ns => BehindSemicolons (ReadsBranches rs next · ns) ts

/-! ### Lists of statements -/

section Lists

variable {rs rs' : Token → List Report} {tail : Tail} {c : Cursor} {u : Token} {ts s : List Token}
  {ns : List Node} {ms : List Mention} {next : Nat}

/-- Semicolons are passed up to another token. -/
theorem reads_skipSemicolons {semicolons : List Token}
    (hs : ∀ t ∈ semicolons, t.kind = .symbol .semicolon) (hu : u.kind ≠ .symbol .semicolon) {k : Nat}
    (hk : semicolons.length < k) (hface : Faces tail c (semicolons ++ u :: s) ms) :
    Reads tail c (skipSemicolons k) () (u :: s) ms := by
  induction semicolons generalizing c k with
  | nil =>
    obtain ⟨k, rfl⟩ : ∃ k', k = k' + 1 := ⟨k - 1, by simp at hk; omega⟩
    refine .kind_bind ?_
    rw [hface.current, if_neg hu]
    exact reads_pure hface _
  | cons t semicolons ih =>
    obtain ⟨k, rfl⟩ : ∃ k', k = k' + 1 := ⟨k - 1, by simp at hk; omega⟩
    refine .kind_bind ?_
    rw [hface.current, if_pos (hs t (by simp))]
    refine (reads_advance hface (by simp)).bind fun c₁ h₁ => ?_
    exact ih (fun t ht => hs t (by simp [ht])) (by simp at hk; omega) h₁

/-- The number of tokens that are left is enough to pass the semicolons. -/
theorem reads_semicolons {semicolon : Token} {semicolons : List Token}
    (hsemi : semicolon.kind = .symbol .semicolon)
    (hs : ∀ t ∈ semicolons, t.kind = .symbol .semicolon) (hu : u.kind ≠ .symbol .semicolon)
    (hface : Faces tail c (semicolon :: (semicolons ++ u :: s)) ms) :
    Reads tail c (skipSemicolons (c.rest.length + 2)) () (u :: s) ms := by
  have hlen := hface.length_le
  have hall : ∀ t ∈ semicolon :: semicolons, t.kind = .symbol .semicolon := by
    simpa [hsemi] using hs
  exact reads_skipSemicolons hall hu (by simp at hlen ⊢; omega) hface

/-- The semicolons behind a statement of a list. -/
theorem reads_separator {terminal : Token.Kind} {start : Cursor} {semicolon : Token}
    {semicolons : List Token} (hsemi : semicolon.kind = .symbol .semicolon)
    (hs : ∀ t ∈ semicolons, t.kind = .symbol .semicolon) (hu : u.kind ≠ .symbol .semicolon)
    (hface : Faces tail c (semicolon :: (semicolons ++ u :: s)) ms) :
    Reads tail c (separator terminal start) () (u :: s) ms := by
  obtain ⟨c', h', hrest⟩ := reads_semicolons hsemi hs hu hface
  refine ⟨c', ?_, hrest⟩
  rw [separator, get_bind]
  dsimp only
  rw [hface.current, if_pos hsemi]
  exact h'

/-- Nothing behind the last statement of a list. -/
theorem reads_no_separator {start : Cursor}
    (hu : u.kind = .keyword .endKw ∨ u.kind = .keyword .untilKw) (hface : Faces tail c (u :: s) ms) :
    Reads tail c (separator u.kind start) () (u :: s) ms := by
  refine ⟨c, ?_, hface, (List.append_nil _).symm⟩
  rw [separator, get_bind]
  dsimp only
  rw [hface.current]
  rcases hu with hu | hu <;> simp [hu, Token.Kind.startsStatement, pure, EStateM.pure]

theorem readsList_nil : ReadsList silent next [] [] := by
  intro d k _ hk tail c u s ms _ _ _ hface
  obtain ⟨k, rfl⟩ : ∃ k', k = k' + 1 := ⟨k - 1, by simp at hk; omega⟩
  exact ⟨c, statements_of_end (.inl (by rw [hface.current])), hface, (List.append_nil _).symm⟩

/-- One round of a list of statements, and the rounds behind it. -/
theorem reads_round {inner : Reading (Option Node)} {terminal : Token.Kind} {t : Token} {k : Nat}
    {a : Option Node} {r₁ r₂ r₃ : List Report} {s₀ s₁ s₂ s₃ : List Token}
    {ms₀ ms₁ ms₂ : List Mention} (hface : Faces tail c (t :: s₀) ms₀)
    (ht : t.kind ≠ terminal) (hend : t.kind ≠ .endOfFile)
    (hinner : ReadsWith r₁ tail c inner a s₁ ms₁)
    (hseparator : ∀ c', Faces tail c' s₁ ms₁ →
      ReadsWith r₂ tail c' (separator terminal c) () s₂ ms₁)
    (hrest : ∀ c', Faces tail c' s₂ ms₁ →
      ReadsWith r₃ tail c' (statements inner terminal k) ns s₃ ms₂) :
    ReadsWith (r₁ ++ r₂ ++ r₃) tail c (statements inner terminal (k + 1)) (a.toList ++ ns) s₃ ms₂ := by
  refine .kind_bind ?_
  rw [hface.current, if_neg (by simp [ht, hend])]
  have hround : ReadsWith (r₁ ++ r₂) tail c (statementRound inner terminal) a s₂ ms₁ := by
    have hact : ReadsWith (r₁ ++ r₂) tail c
        (do let node ← inner; separator terminal c; return node) a s₂ ms₁ :=
      hinner.bind fun c₁ h₁ => (hseparator c₁ h₁).bind_reads fun c₂ h₂ => reads_pure h₂ _
    exact hact
  exact hround.bind fun c₁ h₁ => (hrest c₁ h₁).bind_reads fun c₂ h₂ => reads_pure h₂ _

theorem starts_ne {t u : Token} (ht : t.kind.startsStatement = true)
    (hu : u.kind = .keyword .endKw ∨ u.kind = .keyword .untilKw) :
    t.kind ≠ u.kind ∧ t.kind ≠ .endOfFile := by
  refine ⟨fun he => ?_, fun he => ?_⟩
  · rw [he] at ht
    rcases hu with hu | hu <;> simp [hu, Token.Kind.startsStatement] at ht
  · simp [he, Token.Kind.startsStatement] at ht

/-- A list of a single statement. -/
theorem readsList_one {n : Node} {t : Token} (ht : t.kind.startsStatement = true)
    (h : CompleteStatement rs next (t :: ts) [n]) : ReadsList rs next (t :: ts) [n] := by
  intro d k hd hk tail c u s ms hline hu hnearest hface
  obtain ⟨k, rfl⟩ : ∃ k', k = k' + 1 := ⟨k - 1, by omega⟩
  obtain ⟨hne, hend⟩ := starts_ne ht hu
  have hfits : Fits rs u next (t :: ts) [n] :=
    ⟨hline, .inl (by rcases hu with hu | hu <;> rw [hu] <;> rfl), hnearest,
      fun he => by rcases hu with hu | hu <;> simp [hu] at he⟩
  obtain ⟨a, ha, hread⟩ := h d hd _ c u s ms hfits hface
  have hround := reads_round (k := k) hface hne hend hread
    (fun c₁ h₁ => reads_no_separator hu h₁)
    (fun c₁ h₁ => readsList_nil d k (by simp at hd ⊢; omega) (by simp at hk ⊢; omega) _ c₁ u s ms
      hline hu (by simp) (by simpa using h₁))
  simpa [ha] using hround

/-- What comes behind the semicolons is no semicolon. -/
theorem exists_head {us : List Token} (hus : ∀ t ∈ us.head?, t.kind ≠ .symbol .semicolon)
    (hu : u.kind ≠ .symbol .semicolon) :
    ∃ v vs, us ++ u :: s = v :: vs ∧ v.kind ≠ .symbol .semicolon := by
  cases us with
  | nil => exact ⟨u, s, rfl, hu⟩
  | cons t us => exact ⟨t, us ++ u :: s, rfl, hus t rfl⟩

theorem ne_semicolon (hu : u.kind = .keyword .endKw ∨ u.kind = .keyword .untilKw) :
    u.kind ≠ .symbol .semicolon := by
  rcases hu with hu | hu <;> simp [hu]

/-- A statement, a semicolon and more statements, perhaps behind more semicolons. -/
theorem readsList_more {n : Node} {t semicolon : Token} {us : List Token} {ns : List Node}
    (ht : t.kind.startsStatement = true) (h : CompleteStatement rs semicolon.line (t :: ts) [n])
    (hsemi : semicolon.kind = .symbol .semicolon)
    (hrest : BehindSemicolons (ReadsList rs' next · ns) us) :
    ReadsList (fun u => rs semicolon ++ rs' u) next (t :: ts ++ semicolon :: us) (n :: ns) := by
  obtain ⟨semicolons, vs, rfl, hsemis, hhead, hlist⟩ := hrest
  intro d k hd hk tail c u s ms hline hu hnearest hface
  have hld : ts.length + (semicolons.length + vs.length + 1) + 1 < d := by simpa using hd
  have hlk : ts.length + (semicolons.length + vs.length + 1) + 1 < k := by simpa using hk
  obtain ⟨k, rfl⟩ : ∃ k', k = k' + 1 := ⟨k - 1, by omega⟩
  obtain ⟨hne, hend⟩ := starts_ne ht hu
  have hfits : Fits rs semicolon semicolon.line (t :: ts) [n] :=
    ⟨rfl, .inl (by rw [hsemi]; rfl), by simpa using hnearest n (by simp),
      fun he => by simp [hsemi] at he⟩
  have hface : Faces tail c (t :: ts ++ semicolon :: (semicolons ++ (vs ++ u :: s)))
      (Node.mentionsAll [n] ++ (Node.mentionsAll ns ++ ms)) := by simpa using hface
  obtain ⟨a, ha, hread⟩ := h d (by simp; omega) _ c semicolon _ _ hfits hface
  obtain ⟨v, vs', hv, hvk⟩ := exists_head (s := s) hhead (ne_semicolon hu)
  have hround := reads_round (k := k) hface hne hend hread
    (fun c₁ h₁ => by
      rw [hv] at h₁ ⊢
      exact reads_separator hsemi hsemis hvk h₁)
    (fun c₁ h₁ => hlist d k (by omega) (by omega) _ c₁ u s ms hline hu
      (fun m hm => hnearest m (by simp [hm])) h₁)
  simpa [ha] using hround

/-- In front of a token that can follow it, a statement may be empty. -/
theorem reads_empty {d : Nat} (hd : 0 < d) (hu : u.kind.followsEmptyStatement = true)
    (hface : Faces tail c (u :: s) ms) : Reads tail c (statement d) none (u :: s) ms := by
  obtain ⟨d, rfl⟩ : ∃ d', d = d' + 1 := ⟨d - 1, by omega⟩
  refine .current_bind ?_
  rw [hface.current]
  unfold Token.Kind.followsEmptyStatement at hu
  split at hu
  iterate 5
    rename_i hk
    rw [hk]
    exact reads_pure hface _
  cases hu

/-- The semicolons that a list of statements starts with are passed in one round. -/
theorem BehindSemicolons.readsList (h : BehindSemicolons (ReadsList rs next · ns) ts) :
    ReadsList rs next ts ns := by
  obtain ⟨semicolons, us, rfl, hsemis, hhead, hlist⟩ := h
  cases semicolons with
  | nil => exact hlist
  | cons semicolon semicolons =>
    -- the round reads an empty statement, and all the semicolons are its separator
    intro d k hd hk tail c u s ms hline hu hnearest hface
    have hld : semicolons.length + us.length + 1 < d := by simpa using hd
    have hlk : semicolons.length + us.length + 1 < k := by simpa using hk
    obtain ⟨k, rfl⟩ : ∃ k', k = k' + 1 := ⟨k - 1, by omega⟩
    have hsemi : semicolon.kind = .symbol .semicolon := hsemis semicolon (by simp)
    have hface : Faces tail c (semicolon :: (semicolons ++ (us ++ u :: s)))
        (Node.mentionsAll ns ++ ms) := by simpa using hface
    have hread := reads_empty (d := d) (by omega) (by rw [hsemi]; rfl) hface
    obtain ⟨v, vs, hv, hvk⟩ := exists_head (s := s) hhead (ne_semicolon hu)
    have hround := reads_round (k := k) hface (by rw [hsemi]; exact (ne_semicolon hu).symm)
      (by simp [hsemi]) hread
      (fun c₁ h₁ => by
        rw [hv] at h₁ ⊢
        exact reads_separator hsemi (fun t ht => hsemis t (by simp [ht])) hvk h₁)
      (fun c₁ h₁ => hlist d k (by omega) (by omega) _ c₁ u s ms hline hu hnearest h₁)
    simpa using hround

/-! ### CASE statements -/

/-- A branch starts with a constant. -/
theorem labels_first {t : Token} {us : List Token} (h : DerivesLabels (t :: us) ns) :
    t.kind ≠ .symbol .semicolon ∧ t.kind ≠ .keyword .endKw ∧ t.kind ≠ .endOfFile := by
  have ht := h.startsConstant
  refine ⟨?_, ?_, ?_⟩ <;> intro he <;> simp [he, Token.Kind.startsConstant] at ht

theorem completeBranch {t colon : Token} {us : List Token} {n : Node}
    (hl : DerivesLabels (t :: ts) ns) (hcolon : colon.kind = .symbol .colon)
    (h : CompleteNested rs next us [n]) :
    CompleteBranch rs next (t :: ts ++ colon :: us)
      [{ kind := .selectBranch, line := t.line,
         children := [{ kind := .selectConstants, line := t.line, children := ns }, n] }] := by
  intro d hd tail c u s ms s' hline hu hnearest hface hseparator
  have hface : Faces tail c (t :: ts ++ colon :: (us ++ u :: s)) (n.mentions ++ ms) := by
    simpa [Node.mentions_operator, hl.mentions] using hface
  have hn : n.ElseNearest := (hnearest _ (List.mem_singleton.2 rfl)).child (by simp)
  have hfits : Fits rs u next us [n] :=
    ⟨hline, .inl (by rcases hu with hu | hu <;> rw [hu] <;> rfl), by simpa using hn,
      fun he => by rcases hu with hu | hu <;> simp [hu] at he⟩
  -- the number of earlier reports is asked for only where the colon is missing
  have hstatement (c₁ : Cursor) (r : Nat)
      (h₁ : Faces tail c₁ (colon :: (us ++ u :: s)) (n.mentions ++ ms)) :
      ReadsWith (rs u) tail c₁ (branchStatement (statement d) r) [n] (u :: s) ms := by
    refine .kind_bind ?_
    rw [h₁.current, if_pos hcolon]
    refine (reads_advance h₁ (by simp)).bind fun c₂ h₂ => ?_
    obtain ⟨m, hm, hread⟩ := h d (by simp at hd; omega) _ c₂ u s ms hfits (by simpa using h₂)
    cases hm
    exact hread.bind_reads fun c₃ h₃ => reads_pure h₃ _
  have hact : ReadsWith (rs u) tail c (do
      let constants ← labels
      let statement ← branchStatement (statement d) c.reports.size
      branchSeparator c
      return [({ kind := .selectBranch, line := t.line,
                 children := constants :: statement } : Node)]) _ s' ms :=
    (reads_labels hl (by simp [hcolon]) hface).bind fun c₁ h₁ =>
      (hstatement c₁ _ h₁).bind_reads fun c₂ h₂ =>
        (hseparator c₂ h₂).bind fun c₃ h₃ => reads_pure h₃ _
  obtain ⟨c', h', hrest⟩ := hact
  refine ⟨c', ?_, hrest⟩
  rw [branchRound, get_bind]
  have hcurrent : c.current = t := hface.current
  rw [hcurrent, if_neg (labels_first hl).1]
  exact h'

theorem readsBranches_nil : ReadsBranches silent next [] [] := by
  intro d k _ hk tail c u s ms _ hu _ hface
  obtain ⟨k, rfl⟩ : ∃ k', k = k' + 1 := ⟨k - 1, by simp at hk; omega⟩
  exact ⟨c, branches_of_end (.inl (by rw [hface.current, hu])), hface, (List.append_nil _).symm⟩

/-- One round of the branches of a CASE statement, and the rounds behind it. -/
theorem reads_branches_round {inner : Reading (Option Node)} {t : Token} {k : Nat}
    {ns₁ ns₂ : List Node} {r₁ r₂ : List Report} {s₀ s₁ s₂ : List Token} {ms₀ ms₁ ms₂ : List Mention}
    (hface : Faces tail c (t :: s₀) ms₀) (ht : t.kind ≠ .keyword .endKw) (hend : t.kind ≠ .endOfFile)
    (hround : ReadsWith r₁ tail c (branchRound inner) ns₁ s₁ ms₁)
    (hrest : ∀ c', Faces tail c' s₁ ms₁ → ReadsWith r₂ tail c' (branches inner k) ns₂ s₂ ms₂) :
    ReadsWith (r₁ ++ r₂) tail c (branches inner (k + 1)) (ns₁ ++ ns₂) s₂ ms₂ := by
  refine .kind_bind ?_
  rw [hface.current, if_neg (by simp [ht, hend])]
  exact hround.bind fun c₁ h₁ => (hrest c₁ h₁).bind_reads fun c₂ h₂ => reads_pure h₂ _

theorem reads_branchSeparator {start : Cursor} {semicolon : Token}
    {semicolons : List Token} (hsemi : semicolon.kind = .symbol .semicolon)
    (hs : ∀ t ∈ semicolons, t.kind = .symbol .semicolon) (hu : u.kind ≠ .symbol .semicolon)
    (hface : Faces tail c (semicolon :: (semicolons ++ u :: s)) ms) :
    Reads tail c (branchSeparator start) () (u :: s) ms := by
  obtain ⟨c', h', hrest⟩ := reads_semicolons hsemi hs hu hface
  refine ⟨c', ?_, hrest⟩
  rw [branchSeparator, get_bind]
  dsimp only
  rw [hface.current, if_pos hsemi]
  exact h'

theorem reads_no_branchSeparator {start : Cursor} (hu : u.kind = .keyword .endKw)
    (hface : Faces tail c (u :: s) ms) : Reads tail c (branchSeparator start) () (u :: s) ms := by
  refine ⟨c, ?_, hface, (List.append_nil _).symm⟩
  rw [branchSeparator, get_bind]
  dsimp only
  rw [hface.current]
  simp [hu, pure, EStateM.pure]

theorem readsBranches_one {t : Token} {us : List Token}
    (ht : t.kind ≠ .keyword .endKw ∧ t.kind ≠ .endOfFile)
    (h : CompleteBranch rs next (t :: us) ns) : ReadsBranches rs next (t :: us) ns := by
  intro d k hd hk tail c u s ms hline hu hnearest hface
  obtain ⟨k, rfl⟩ : ∃ k', k = k' + 1 := ⟨k - 1, by omega⟩
  have hround := h d hd _ c u s ms (u :: s) hline (.inl hu) hnearest hface
    fun c₁ h₁ => reads_no_branchSeparator hu h₁
  have hall := reads_branches_round (k := k) hface ht.1 ht.2 hround
    (fun c₁ h₁ => readsBranches_nil d k (by simp at hd ⊢; omega) (by simp at hk ⊢; omega) _ c₁ u s
      ms hline hu (by simp) (by simpa using h₁))
  simpa using hall

theorem readsBranches_more {t semicolon : Token} {us : List Token} {ns' : List Node}
    (ht : t.kind ≠ .keyword .endKw ∧ t.kind ≠ .endOfFile)
    (h : CompleteBranch rs semicolon.line (t :: ts) ns)
    (hsemi : semicolon.kind = .symbol .semicolon)
    (hrest : BehindSemicolons (ReadsBranches rs' next · ns') us) :
    ReadsBranches (fun u => rs semicolon ++ rs' u) next (t :: ts ++ semicolon :: us)
      (ns ++ ns') := by
  obtain ⟨semicolons, vs, rfl, hsemis, hhead, hlist⟩ := hrest
  intro d k hd hk tail c u s ms hline hu hnearest hface
  have hld : ts.length + (semicolons.length + vs.length + 1) + 1 < d := by simpa using hd
  have hlk : ts.length + (semicolons.length + vs.length + 1) + 1 < k := by simpa using hk
  obtain ⟨k, rfl⟩ : ∃ k', k = k' + 1 := ⟨k - 1, by omega⟩
  have hface : Faces tail c (t :: ts ++ semicolon :: (semicolons ++ (vs ++ u :: s)))
      (Node.mentionsAll ns ++ (Node.mentionsAll ns' ++ ms)) := by simpa using hface
  obtain ⟨v, vs', hv, hvk⟩ := exists_head (s := s) hhead (ne_semicolon (.inl hu))
  have hround := h d (by simp; omega) _ c semicolon _ _ (vs ++ u :: s) rfl (.inr hsemi)
    (fun n hn => hnearest n (by simp [hn])) hface fun c₁ h₁ => by
      rw [hv] at h₁ ⊢
      exact reads_branchSeparator hsemi hsemis hvk h₁
  exact reads_branches_round (k := k) hface ht.1 ht.2 hround
    (fun c₁ h₁ => hlist d k (by omega) (by omega) _ c₁ u s ms hline hu
      (fun m hm => hnearest m (by simp [hm])) h₁)

/-- Every semicolon that a list of branches starts with takes a round. -/
theorem BehindSemicolons.readsBranches (h : BehindSemicolons (ReadsBranches rs next · ns) ts) :
    ReadsBranches rs next ts ns := by
  obtain ⟨semicolons, us, rfl, hsemis, -, hlist⟩ := h
  induction semicolons with
  | nil => exact hlist
  | cons semicolon semicolons ih =>
    intro d k hd hk tail c u s ms hline hu hnearest hface
    obtain ⟨k, rfl⟩ : ∃ k', k = k' + 1 := ⟨k - 1, by omega⟩
    have hsemi : semicolon.kind = .symbol .semicolon := hsemis semicolon (by simp)
    have hface : Faces tail c (semicolon :: (semicolons ++ us ++ u :: s))
        (Node.mentionsAll ns ++ ms) := by simpa using hface
    -- a round in front of a semicolon passes this one and no other
    have hround : Reads tail c (branchRound (statement d)) [] (semicolons ++ us ++ u :: s)
        (Node.mentionsAll ns ++ ms) := by
      obtain ⟨c', h', hrest⟩ : Reads tail c (do advance; return ([] : List Node)) [] _ _ :=
        (reads_advance hface (by simp)).bind fun _ h => reads_pure h _
      refine ⟨c', ?_, hrest⟩
      rw [branchRound, get_bind, hface.current, if_pos hsemi]
      exact h'
    have hall := reads_branches_round (k := k) hface (by simp [hsemi]) (by simp [hsemi]) hround
      (fun c₁ h₁ => ih (fun t ht => hsemis t (by simp [ht])) d k (by simp at hd ⊢; omega)
        (by simp at hk ⊢; omega) _ c₁ u s ms hline hu hnearest h₁)
    simpa using hall

end Lists

/-! ### The forms of statements -/

section Forms

variable {rs rs' : Token → List Report} {tail : Tail} {next : Nat} {ts us vs : List Token}
  {ns : List Node} {e s : Node}

/-- It is enough to read a statement that is not empty by the reader of its form. -/
theorem completeStatement_of_form {n : Node}
    (h : ∀ d, ts.length ≤ d → ∀ (tail : Tail) (c : Cursor) (u : Token) (s : List Token)
      (ms : List Mention),
      Fits rs u next ts [n] → Faces tail c (ts ++ u :: s) (n.mentions ++ ms) →
      ReadsWith (rs u) tail c (statementOf (statement d)) (some n) (u :: s) ms) :
    CompleteStatement rs next ts [n] := by
  intro d hd tail c u s ms hfits hface
  obtain ⟨d, rfl⟩ : ∃ d', d = d' + 1 := ⟨d - 1, by omega⟩
  exact ⟨some n, rfl, h d (by omega) _ c u s ms hfits (by simpa using hface)⟩

/-- Neither what can follow a statement nor what can start one goes on with an expression. -/
theorem Fits.endsAt {u : Token} (h : Fits rs u next ts ns) :
    ExpressionPhrase.expression.EndsAt u.kind := by
  generalize hk : u.kind = k
  rcases hk ▸ h.follows with hu | ⟨hu, -⟩
  · unfold Token.Kind.followsEmptyStatement at hu
    split at hu <;> first | exact ⟨rfl, rfl, rfl⟩ | cases hu
  · unfold Token.Kind.startsStatement at hu
    split at hu <;> first | exact ⟨rfl, rfl, rfl⟩ | cases hu

/-- There is an empty statement only in front of what can follow one. -/
theorem Fits.followsEmpty {u : Token} (h : Fits rs u next [] ns) :
    u.kind.followsEmptyStatement = true :=
  h.follows.resolve_right fun ⟨_, hfinished, _⟩ => not_finished_nil hfinished

theorem Fits.single {u : Token} {n : Node} (h : Fits rs u next ts [n]) : n.ElseNearest :=
  h.nearest n (List.mem_singleton.2 rfl)

theorem Fits.single_closed {u : Token} {n : Node} (h : Fits rs u next ts [n])
    (hu : u.kind = .keyword .elseKw) : n.endsOpen = false :=
  h.closed hu n (List.mem_singleton.2 rfl)

/-- The statement of a form that ends with it fits in the same place. -/
theorem Fits.last {u k : Token} {n : Node} (h : Fits rs u next (ts ++ k :: us) [n])
    (hk : k.kind = .keyword .thenKw ∨ k.kind = .keyword .elseKw ∨ k.kind = .keyword .doKw)
    (hrs : (∀ v, rs v = []) → ∀ v, rs' v = []) (hs : s ∈ n.children)
    (hopen : s.endsOpen = true → n.endsOpen = true) : Fits rs' u next us [s] := by
  refine ⟨h.line, h.follows.imp_right ?_, by simpa using h.single.child hs, fun hu m hm => ?_⟩
  · rintro ⟨hu, hfinished, hsilent⟩
    exact ⟨hu, hfinished.behind hk, hrs hsilent⟩
  · obtain rfl := List.mem_singleton.1 hm
    have hclosed := h.single_closed hu
    cases ho : m.endsOpen with
    | false => rfl
    | true =>
      rw [hopen ho] at hclosed
      cases hclosed

theorem CompleteNested.reads (h : CompleteNested rs next ts [s]) {d : Nat} (hd : ts.length < d)
    {c : Cursor} {u : Token} {us : List Token} {ms : List Mention} (hfits : Fits rs u next ts [s])
    (hface : Faces tail c (ts ++ u :: us) (s.mentions ++ ms)) :
    ReadsWith (rs u) tail c (nested (statement d)) s (u :: us) ms := by
  obtain ⟨n, hn, hread⟩ := h d hd _ c u us ms hfits (by simpa using hface)
  cases hn
  exact hread

theorem completeStatement_assignment {t : Token} {n : Node} (ha : DerivesAssignment (t :: ts) n)
    (hw : t.writeKind? = none) : CompleteStatement silent next (t :: ts) [n] := by
  refine completeStatement_of_form fun d hd tail c u s ms hfits hface => ?_
  have hk : t.kind = .identifier := by
    obtain ⟨hk, -, -⟩ := ha
    exact hk
  refine reads_identifierStatement hface.current hk ?_
  rw [hw]
  exact reads_assignment ha hface hfits.endsAt

theorem completeStatement_writeln {t : Token} (hk : t.kind = .identifier)
    (hw : t.writeKind? = some .writeln) :
    CompleteStatement silent next [t] [{ kind := .writeln, line := t.line }] := by
  refine completeStatement_of_form fun d hd tail c u s ms hfits hface => ?_
  have hface : Faces tail c (t :: u :: s) ms := by simpa [Node.mentions_operator] using hface
  have hu : u.kind ≠ .symbol .leftParen := by
    intro he
    have := hfits.follows
    simp [he, Token.Kind.followsEmptyStatement, Token.Kind.startsStatement] at this
  refine reads_identifierStatement hface.current hk ?_
  rw [hw]
  refine .current_bind ?_
  rw [hface.current]
  refine (reads_advance hface (by simp)).bind fun c₁ h₁ => .kind_bind ?_
  rw [h₁.current, if_pos (by simp [hu])]
  exact reads_pure h₁ _

theorem completeStatement_write {t l r : Token} {kind : Node.Kind} {n : Node}
    (hk : t.kind = .identifier) (hw : t.writeKind? = some kind)
    (hl : l.kind = .symbol .leftParen) (hn : DerivesArgument ts n) (hf : DerivesFormat us ns)
    (hr : r.kind = .symbol .rightParen) :
    CompleteStatement silent next (t :: l :: ts ++ us ++ [r])
      [{ kind, line := t.line, children := n :: ns }] := by
  refine completeStatement_of_form fun d hd tail c u s ms hfits hface => ?_
  have hkind : kind ≠ .var ∧ kind ≠ .program ∧ kind ≠ .assign := by
    rcases Token.writeKind?_cases hw with rfl | rfl <;> decide
  have hface : Faces tail c (t :: l :: (ts ++ (us ++ r :: u :: s))) (n.mentions ++ ms) := by
    simpa [Node.mentions_operator hkind, hf.mentions] using hface
  refine reads_identifierStatement hface.current hk ?_
  rw [hw]
  exact reads_writeStatement hl hn hf hr hface (by simp)

theorem reads_compoundOf {c : Cursor} {b en : Token} {r : List Token} {ms : List Mention} {d : Nat}
    (h : ReadsList rs en.line ts ns) (hen : en.kind = .keyword .endKw)
    (hnearest : ∀ n ∈ ns, n.ElseNearest) (hd : ts.length < d)
    (hface : Faces tail c (b :: (ts ++ en :: r)) (Node.mentionsAll ns ++ ms)) (hr : r ≠ []) :
    ReadsWith (rs en) tail c (compoundOf (statement d))
      { kind := .compound, line := b.line, children := ns } r ms := by
  refine .current_bind ?_
  rw [hface.current]
  refine (reads_advance hface (by simp)).bind fun c₁ h₁ => .budget_bind ?_
  have hlen := h₁.length_le
  have hlist := h d (c₁.rest.length + 2) hd (by simp at hlen; omega) tail c₁ en r ms rfl (.inl hen)
    hnearest h₁
  rw [hen] at hlist
  refine hlist.bind_reads fun c₂ h₂ => ?_
  refine (reads_expect h₂ hen hr).bind fun c₃ h₃ => ?_
  exact reads_pure h₃ _

theorem completeStatement_compound {b en : Token} (hb : b.kind = .keyword .beginKw)
    (h : ReadsList rs en.line ts ns) (hen : en.kind = .keyword .endKw) :
    CompleteStatement (fun _ => rs en) next (b :: ts ++ [en])
      [{ kind := .compound, line := b.line, children := ns }] := by
  refine completeStatement_of_form fun d hd tail c u s ms hfits hface => .current_bind ?_
  have hface : Faces tail c (b :: (ts ++ en :: u :: s)) (Node.mentionsAll ns ++ ms) := by
    simpa [Node.mentions_operator] using hface
  rw [hface.current, hb]
  exact (reads_compoundOf h hen (fun m hm => hfits.single.child hm) (by simp at hd; omega) hface
    (by simp)).map

/-- An expression in front of a reserved word. -/
theorem reads_expression_keyword {c : Cursor} {k : Token} {w : Keyword} {s : List Token}
    {ms : List Mention} (he : DerivesExpression .expression ts e) (hk : k.kind = .keyword w)
    (hw : w ≠ .andKw ∧ w ≠ .divKw ∧ w ≠ .orKw)
    (hface : Faces tail c (ts ++ k :: s) (e.mentions ++ ms)) :
    Reads tail c expression (some e) (k :: s) ms := by
  refine complete_expression he hface ?_
  rw [hk]
  cases w <;> first | exact ⟨rfl, rfl, rfl⟩ | simp at hw

/-- IF, the condition, THEN and a statement, whatever comes behind it. -/
theorem reads_conditionalOf {c : Cursor} {i th v : Token} {r r' : List Token} {es : List Node}
    {reports : List Report} {ms ms' : List Mention} {d : Nat}
    (he : DerivesExpression .expression ts e)
    (hth : th.kind = .keyword .thenKw) (h : CompleteNested rs next us [s]) (hd : us.length < d)
    (hfits : Fits rs v next us [s])
    (hface : Faces tail c (i :: (ts ++ th :: (us ++ v :: r))) (e.mentions ++ (s.mentions ++ ms)))
    (halternative : ∀ c', Faces tail c' (v :: r) ms →
      ReadsWith reports tail c' (alternative (statement d)) es r' ms') :
    ReadsWith (rs v ++ reports) tail c (conditionalOf (statement d))
      { kind := .conditional, line := i.line, children := e :: s :: es } r' ms' := by
  refine .current_bind ?_
  rw [hface.current]
  refine (reads_advance hface (by simp)).bind fun c₁ h₁ => ?_
  refine (reads_expression_keyword he hth (by decide) h₁).bind fun c₂ h₂ => ?_
  have hparts : ReadsWith (rs v ++ reports) tail c₂ (consequences (statement d)) (s :: es) r' ms' := by
    refine .kind_bind ?_
    rw [h₂.current, hth]
    refine .kind_bind ?_
    rw [h₂.current, hth]
    refine (reads_advance h₂ (by simp)).bind fun c₃ h₃ => ?_
    refine (h.reads hd hfits h₃).bind fun c₄ h₄ => ?_
    exact (halternative c₄ h₄).bind_reads fun c₅ h₅ => reads_pure h₅ _
  exact hparts.bind_reads fun c₃ h₃ => reads_pure h₃ _

theorem completeStatement_conditional {i th : Token} (hi : i.kind = .keyword .ifKw)
    (he : DerivesExpression .expression ts e) (hth : th.kind = .keyword .thenKw)
    (h : CompleteNested rs next us [s]) :
    CompleteStatement rs next (i :: ts ++ th :: us)
      [{ kind := .conditional, line := i.line, children := [e, s] }] := by
  refine completeStatement_of_form fun d hd tail c u r ms hfits hface => .current_bind ?_
  have hlen : ts.length + (us.length + 1) + 1 ≤ d := by simpa using hd
  have hface : Faces tail c (i :: (ts ++ th :: (us ++ u :: r))) (e.mentions ++ (s.mentions ++ ms)) := by
    simpa [Node.mentions_operator] using hface
  -- an IF without ELSE ends open, so that it does not fit in front of an ELSE
  have helse : u.kind ≠ .keyword .elseKw := fun hu => by
    have := hfits.single_closed hu
    simp [Node.endsOpen] at this
  rw [hface.current, hi]
  have hlast : Fits rs u next us [s] :=
    hfits.last (.inl hth) id (by simp) fun _ => by simp [Node.endsOpen]
  rw [← List.append_nil (rs u)]
  refine (reads_conditionalOf he hth h (by omega) hlast hface fun c₄ h₄ => ?_).map
  refine .kind_bind ?_
  rw [h₄.current, if_neg helse]
  exact reads_pure h₄ _

theorem completeStatement_alternative {i th el : Token} {e' : Node} (hi : i.kind = .keyword .ifKw)
    (he : DerivesExpression .expression ts e) (hth : th.kind = .keyword .thenKw)
    (h : CompleteNested rs el.line us [s]) (hel : el.kind = .keyword .elseKw)
    (h' : CompleteNested rs' next vs [e']) :
    CompleteStatement (fun u => rs el ++ rs' u) next (i :: ts ++ th :: us ++ el :: vs)
      [{ kind := .conditional, line := i.line, children := [e, s, e'] }] := by
  refine completeStatement_of_form fun d hd tail c u r ms hfits hface => .current_bind ?_
  have hlen : ts.length + (us.length + (vs.length + 1) + 1) + 1 ≤ d := by
    simpa [Nat.add_assoc] using hd
  have hface : Faces tail c (i :: (ts ++ th :: (us ++ el :: (vs ++ u :: r))))
      (e.mentions ++ (s.mentions ++ (e'.mentions ++ ms))) := by
    simpa [Node.mentions_operator] using hface
  -- the statement between THEN and ELSE does not end open, so that the ELSE does not belong to it
  have hclosed : s.endsOpen = false := hfits.single.closed rfl _ _ _ rfl
  have hthen : Fits rs el el.line us [s] := by
    refine ⟨rfl, .inl (by rw [hel]; rfl), ?_, fun _ => by simpa using hclosed⟩
    simpa using hfits.single.child (by simp)
  have hlast : Fits rs' u next vs [e'] :=
    hfits.last (.inr (.inl hel)) (fun h v => (List.append_eq_nil_iff.1 (h v)).2) (by simp)
      fun ho => by simpa [Node.endsOpen] using ho
  rw [hface.current, hi]
  refine (reads_conditionalOf he hth h (by omega) hthen hface fun c₄ h₄ => ?_).map
  refine .kind_bind ?_
  rw [h₄.current, if_pos hel]
  refine (reads_advance h₄ (by simp)).bind fun c₅ h₅ => ?_
  exact (h'.reads (by omega) hlast h₅).bind_reads fun c₆ h₆ => reads_pure h₆ _

/-- The body of a loop from its DO on. -/
theorem reads_body {c : Cursor} {dw u : Token} {r : List Token} {ms : List Mention} {d : Nat}
    (hdo : dw.kind = .keyword .doKw) (h : CompleteNested rs next us [s]) (hd : us.length < d)
    (hfits : Fits rs u next us [s])
    (hface : Faces tail c (dw :: (us ++ u :: r)) (s.mentions ++ ms)) :
    ReadsWith (rs u) tail c (body (statement d)) [s] (u :: r) ms := by
  refine .kind_bind ?_
  rw [hface.current, if_pos hdo]
  refine (reads_advance hface (by simp)).bind fun c₁ h₁ => ?_
  exact (h.reads hd hfits h₁).bind_reads fun c₂ h₂ => reads_pure h₂ _

theorem completeStatement_whileLoop {w dw : Token} (hw : w.kind = .keyword .whileKw)
    (he : DerivesExpression .expression ts e) (hdo : dw.kind = .keyword .doKw)
    (h : CompleteNested rs next us [s]) :
    CompleteStatement rs next (w :: ts ++ dw :: us)
      [{ kind := .whileLoop, line := w.line, children := [e, s] }] := by
  refine completeStatement_of_form fun d hd tail c u r ms hfits hface => .current_bind ?_
  have hlen : ts.length + (us.length + 1) + 1 ≤ d := by simpa using hd
  have hface : Faces tail c (w :: (ts ++ dw :: (us ++ u :: r))) (e.mentions ++ (s.mentions ++ ms)) := by
    simpa [Node.mentions_operator] using hface
  have hlast : Fits rs u next us [s] :=
    hfits.last (.inr (.inr hdo)) id (by simp) fun ho => by simpa [Node.endsOpen] using ho
  rw [hface.current, hw]
  have hread : ReadsWith (rs u) tail c (whileOf (statement d))
      { kind := .whileLoop, line := w.line, children := [e, s] } (u :: r) ms := by
    refine .current_bind ?_
    rw [hface.current]
    refine (reads_advance hface (by simp)).bind fun c₁ h₁ => ?_
    refine (reads_expression_keyword he hdo (by decide) h₁).bind fun c₂ h₂ => .kind_bind ?_
    rw [h₂.current, hdo]
    exact (reads_body hdo h (by omega) hlast h₂).bind_reads fun c₃ h₃ => reads_pure h₃ _
  exact hread.map

theorem completeStatement_loop {rw' un : Token} (hrepeat : rw'.kind = .keyword .repeatKw)
    (h : ReadsList rs un.line ts ns) (hun : un.kind = .keyword .untilKw)
    (he : DerivesExpression .expression us e) :
    CompleteStatement (fun _ => rs un) next (rw' :: ts ++ un :: us)
      [{ kind := .loop, line := rw'.line,
         children := ns ++ [{ kind := .test, line := un.line, children := [e] }] }] := by
  refine completeStatement_of_form fun d hd tail c u r ms hfits hface => .current_bind ?_
  have hface : Faces tail c (rw' :: (ts ++ un :: (us ++ u :: r)))
      (Node.mentionsAll ns ++ (e.mentions ++ ms)) := by
    simpa [Node.mentions_operator] using hface
  rw [hface.current, hrepeat]
  have hread : ReadsWith (rs un) tail c (repeatOf (statement d))
      { kind := .loop, line := rw'.line,
        children := ns ++ [{ kind := .test, line := un.line, children := [e] }] } (u :: r) ms := by
    refine .current_bind ?_
    rw [hface.current]
    refine (reads_advance hface (by simp)).bind fun c₁ h₁ => .budget_bind ?_
    have hlen := h₁.length_le
    -- the list stands in front of UNTIL, and the empty statement at its end is on that line
    have hlist := h d (c₁.rest.length + 2) (by simp at hd; omega) (by simp at hlen; omega)
      _ c₁ un (us ++ u :: r) _ rfl (.inr hun) (fun m hm => hfits.single.child (by simp [hm])) h₁
    rw [hun] at hlist
    refine hlist.bind_reads fun c₂ h₂ => ?_
    have htest : Reads tail c₂ untilTest [{ kind := .test, line := un.line, children := [e] }]
        (u :: r) ms := by
      refine .current_bind ?_
      rw [h₂.current]
      refine (reads_expect h₂ hun (by simp)).bind fun c₃ h₃ => ?_
      refine (complete_expression he h₃ hfits.endsAt).bind fun c₄ h₄ => ?_
      exact reads_pure h₄ _
    exact htest.bind fun c₃ h₃ => reads_pure h₃ _
  exact hread.map

theorem completeStatement_forLoop {f way dw : Token} {a : Node} (hf : f.kind = .keyword .forKw)
    (ha : DerivesAssignment ts a)
    (hto : way.kind = .keyword .toKw ∨ way.kind = .keyword .downtoKw)
    (he : DerivesExpression .expression us e) (hdo : dw.kind = .keyword .doKw)
    (h : CompleteNested rs next vs [s]) :
    CompleteStatement rs next (f :: ts ++ way :: us ++ dw :: vs)
      [{ kind := .forLoop, line := f.line, descending := way.kind = .keyword .downtoKw,
         children := [a, e, s] }] := by
  refine completeStatement_of_form fun d hd tail c u r ms hfits hface => .current_bind ?_
  have hlen : ts.length + (us.length + (vs.length + 1) + 1) + 1 ≤ d := by
    simpa [Nat.add_assoc] using hd
  have hface : Faces tail c (f :: (ts ++ way :: (us ++ dw :: (vs ++ u :: r))))
      (a.mentions ++ (e.mentions ++ (s.mentions ++ ms))) := by
    simpa [Node.mentions_operator] using hface
  have hlast : Fits rs u next vs [s] :=
    hfits.last (.inr (.inr hdo)) id (by simp) fun ho => by simpa [Node.endsOpen] using ho
  rw [hface.current, hf]
  have hread : ReadsWith (rs u) tail c (forOf (statement d))
      { kind := .forLoop, line := f.line, descending := way.kind = .keyword .downtoKw,
        children := [a, e, s] } (u :: r) ms := by
    refine .current_bind ?_
    rw [hface.current]
    refine (reads_advance hface (by simp)).bind fun c₁ h₁ => ?_
    have hcontrol : Reads tail c₁ controlAssignment [a] (way :: (us ++ dw :: (vs ++ u :: r)))
        (e.mentions ++ (s.mentions ++ ms)) := by
      have hid : c₁.current.kind = .identifier := by
        obtain ⟨hk, -, -⟩ := ha
        rw [h₁.current]
        exact hk
      refine .kind_bind ?_
      rw [if_pos hid]
      refine (reads_assignment ha h₁ ?_).bind fun c₂ h₂ => reads_pure h₂ _
      rcases hto with hto | hto <;> rw [hto] <;> exact ⟨rfl, rfl, rfl⟩
    -- TO and DOWNTO are read alike and differ only in the flag of the node
    have hlimit (c₂ : Cursor) (reports : Nat) (h₂ : Faces tail c₂ (way :: (us ++ dw :: (vs ++ u :: r)))
        (e.mentions ++ (s.mentions ++ ms))) :
        Reads tail c₂ (limit reports) [e] (dw :: (vs ++ u :: r)) (s.mentions ++ ms) := by
      have hgo : Reads tail c₂ (do advance; return (← expression).toList) [e] (dw :: (vs ++ u :: r))
          (s.mentions ++ ms) :=
        (reads_advance h₂ (by simp)).bind fun c₃ h₃ =>
          (reads_expression_keyword he hdo (by decide) h₃).bind fun c₄ h₄ => reads_pure h₄ _
      refine .kind_bind ?_
      rw [h₂.current]
      rcases hto with hto | hto <;> rw [hto] <;> exact hgo
    refine hcontrol.bind fun c₂ h₂ => .kind_bind ?_
    rw [h₂.current]
    refine (hlimit c₂ _ h₂).bind fun c₃ h₃ => .kind_bind ?_
    rw [h₃.current, hdo]
    exact (reads_body hdo h (by omega) hlast h₃).bind_reads fun c₄ h₄ => reads_pure h₄ _
  exact hread.map

theorem completeStatement_select {k o en : Token} (hk : k.kind = .keyword .caseKw)
    (he : DerivesExpression .expression ts e) (ho : o.kind = .keyword .ofKw)
    (h : ReadsBranches rs en.line us ns) (hen : en.kind = .keyword .endKw) :
    CompleteStatement (fun _ => rs en) next (k :: ts ++ o :: us ++ [en])
      [{ kind := .select, line := k.line, children := e :: ns }] := by
  refine completeStatement_of_form fun d hd tail c u r ms hfits hface => .current_bind ?_
  have hlen : ts.length + (us.length + 1 + 1) + 1 ≤ d := by simpa [Nat.add_assoc] using hd
  have hface : Faces tail c (k :: (ts ++ o :: (us ++ en :: u :: r)))
      (e.mentions ++ (Node.mentionsAll ns ++ ms)) := by
    simpa [Node.mentions_operator] using hface
  rw [hface.current, hk]
  have hread : ReadsWith (rs en) tail c (selectOf (statement d))
      { kind := .select, line := k.line, children := e :: ns } (u :: r) ms := by
    refine .current_bind ?_
    rw [hface.current]
    refine (reads_advance hface (by simp)).bind fun c₁ h₁ => ?_
    refine (reads_expression_keyword he ho (by decide) h₁).bind fun c₂ h₂ => ?_
    have hparts : ReadsWith (rs en) tail c₂ (branchesPart (statement d)) ns (u :: r) ms := by
      refine .kind_bind ?_
      rw [h₂.current, ho]
      refine .kind_bind ?_
      rw [h₂.current, ho]
      refine (reads_advance h₂ (by simp)).bind fun c₃ h₃ => .budget_bind ?_
      have hlen₃ := h₃.length_le
      have hlist := h d (c₃.rest.length + 2) (by omega) (by simp at hlen₃; omega) _ c₃ en (u :: r) ms
        rfl hen (fun m hm => hfits.single.child (by simp [hm])) h₃
      refine hlist.bind_reads fun c₄ h₄ => ?_
      exact (reads_expect h₄ hen (by simp)).bind fun c₅ h₅ => reads_pure h₅ _
    exact hparts.bind_reads fun c₃ h₃ => reads_pure h₃ _
  exact hread.map

theorem completeNested_some (h : CompleteStatement rs next ts [s]) :
    CompleteNested rs next ts [s] := by
  intro d hd tail c u r ms hfits hface
  obtain ⟨a, ha, hread⟩ := h d hd _ c u r ms hfits hface
  obtain rfl : a = some s := by
    cases a with
    | none => cases ha
    | some n => simpa using ha
  refine ⟨s, rfl, .current_bind ?_⟩
  exact hread.bind_reads fun c₁ h₁ => reads_pure h₁ _

theorem completeNested_none :
    CompleteNested silent next [] [{ kind := .compound, line := next }] := by
  intro d hd tail c u r ms hfits hface
  have hface : Faces tail c (u :: r) ms := by simpa [Node.mentions_operator] using hface
  refine ⟨_, rfl, .current_bind ?_⟩
  rw [hface.current]
  refine (reads_empty hd hfits.followsEmpty hface).bind fun c₁ h₁ => ?_
  rw [← hfits.line]
  exact reads_pure h₁ _

end Forms

/-! ### All statements -/

theorem BehindSemicolons.of_head {p : List Token → Prop} {ts : List Token}
    (hhead : ∀ t ∈ ts.head?, t.kind ≠ .symbol .semicolon) (h : p ts) : BehindSemicolons p ts :=
  ⟨[], ts, rfl, by simp, hhead, h⟩

theorem BehindSemicolons.cons {p : List Token → Prop} {t : Token} {ts : List Token}
    (ht : t.kind = .symbol .semicolon) (h : BehindSemicolons p ts) :
    BehindSemicolons p (t :: ts) := by
  obtain ⟨semicolons, us, rfl, hs, hhead, hp⟩ := h
  exact ⟨t :: semicolons, us, rfl, by simpa [ht] using hs, hhead, hp⟩

theorem ne_semicolon_of_starts {t : Token} (ht : t.kind.startsStatement = true) :
    t.kind ≠ .symbol .semicolon := by
  intro he
  simp [he, Token.Kind.startsStatement] at ht

theorem branch_first {next : Nat} {ts : List Token} {ns : List Node}
    (h : DerivesStatement .branch next ts ns) :
    ∃ t us, ts = t :: us ∧ t.kind ≠ .symbol .semicolon ∧
      t.kind ≠ .keyword .endKw ∧ t.kind ≠ .endOfFile := by
  cases h with
  | branch hl => exact ⟨_, _, rfl, labels_first hl⟩

/-- A list that starts with an empty statement starts with a semicolon, which is split off. -/
theorem behindSemicolons_more {rs : Token → List Report} {next : Nat} {semicolon : Token}
    {ts us : List Token} {ns ms : List Node} (hd : DerivesStatement .statement semicolon.line ts ns)
    (hs : semicolon.kind = .symbol .semicolon) (h : CompleteStatement silent semicolon.line ts ns)
    (hrest : BehindSemicolons (ReadsList rs next · ms) us) :
    BehindSemicolons (ReadsList rs next · (ns ++ ms)) (ts ++ semicolon :: us) := by
  obtain ⟨rfl, rfl⟩ | ⟨n, t, vs, rfl, rfl, ht⟩ := hd.empty_or_starts
  · exact .cons hs hrest
  · exact .of_head (by simpa using ne_semicolon_of_starts ht) (readsList_more ht h hs hrest)

theorem behindSemicolons_moreBranches {rs : Token → List Report} {next : Nat} {semicolon : Token}
    {ts us : List Token} {ns ms : List Node} (hd : DerivesStatement .branch semicolon.line ts ns)
    (hs : semicolon.kind = .symbol .semicolon) (h : CompleteBranch silent semicolon.line ts ns)
    (hrest : BehindSemicolons (ReadsBranches rs next · ms) us) :
    BehindSemicolons (ReadsBranches rs next · (ns ++ ms)) (ts ++ semicolon :: us) := by
  obtain ⟨t, vs, rfl, hsemi, ht⟩ := branch_first hd
  exact .of_head (by simpa using hsemi) (readsBranches_more ht h hs hrest)

/-- **Statements are read in quiet**, by induction on their derivation. -/
theorem complete_statement {phrase : StatementPhrase} {next : Nat} {ts : List Token}
    {ns : List Node} (h : DerivesStatement phrase next ts ns) :
    CompleteFor silent phrase next ts ns := by
  induction h with
  | empty =>
    intro d hd tail c u s ms hfits hface
    exact ⟨none, rfl, reads_empty hd hfits.followsEmpty (by simpa using hface)⟩
  | assignment ha hw => exact completeStatement_assignment ha hw
  | writeln hk hw => exact completeStatement_writeln hk hw
  | write hk hw hl hn hf hr => exact completeStatement_write hk hw hl hn hf hr
  | compound hb _ he ih => exact completeStatement_compound hb ih.readsList he
  | conditional hi hc hth _ ih => exact completeStatement_conditional hi hc hth ih
  | alternative hi hc hth _ hel _ ih ih' =>
    exact completeStatement_alternative hi hc hth ih hel ih'
  | whileLoop hw hc hd _ ih => exact completeStatement_whileLoop hw hc hd ih
  | loop hr _ hu hc ih => exact completeStatement_loop hr ih.readsList hu hc
  | forLoop hf ha hto hl hdo _ ih => exact completeStatement_forLoop hf ha hto hl hdo ih
  | select hk hc ho _ he ih => exact completeStatement_select hk hc ho ih.readsBranches he
  | some _ ih => exact completeNested_some ih
  | none => exact completeNested_none
  | one hd ih =>
    obtain ⟨rfl, rfl⟩ | ⟨n, t, us, rfl, rfl, ht⟩ := hd.empty_or_starts
    · exact .of_head (by simp) readsList_nil
    · exact .of_head (by simpa using ne_semicolon_of_starts ht) (readsList_one ht ih)
  | more hd hs _ ih ih' => exact behindSemicolons_more hd hs ih ih'
  | branch hl hc _ ih => exact completeBranch hl hc ih
  | noBranch => exact .of_head (by simp) readsBranches_nil
  | noBranchMore hs _ ih => exact .cons hs ih
  | oneBranch hd ih =>
    obtain ⟨t, us, rfl, hsemi, ht⟩ := branch_first hd
    exact .of_head (by simpa using hsemi) (readsBranches_one ht ih)
  | moreBranches hd hs _ ih ih' => exact behindSemicolons_moreBranches hd hs ih ih'

theorem readsList_of_derives {next : Nat} {ts : List Token} {ns : List Node}
    (h : DerivesStatement .statements next ts ns) : ReadsList silent next ts ns :=
  BehindSemicolons.readsList (complete_statement h)

end Reading

end MiniPascal

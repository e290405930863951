import MiniPascal.Proofs.Grammar.Quiet
import MiniPascal.Proofs.Node.Shape

/-!
# Expressions that are read in quiet

A reader that makes no report has passed a phrase of the grammar, and what it returns is the tree
of that phrase. There is one lemma for every reader; the readers of nested phrases take it as a
hypothesis for the inner reader, so that an induction on the fuel is enough at the end.

Reports are never taken back. A reader that is quiet as a whole is therefore quiet in all its parts,
and every branch that complains is ruled out by counting.

* `MiniPascal.Reading.SoundExpression`: what a reader of expressions reads in quiet.
* `MiniPascal.Reading.sound_expression`: expressions.
-/

namespace MiniPascal

open Cursor

/-! ### The names in leaves -/

@[simp] theorem Token.mentions_variableNode (t : Token) :
    t.variableNode.mentions = [.uses t.text] := by
  simp [Token.variableNode, Node.mentions]

theorem Token.kind_of_integerNode? {negative : Bool} {t : Token} {n : Node}
    (h : t.integerNode? negative = some n) :
    n.kind = .integerConstant ∧ n.children = [] ∧ t.kind ≠ .endOfFile := by
  unfold integerNode? at h
  split at h
  · rename_i hk
    cases h
    exact ⟨rfl, rfl, by simp [hk]⟩
  · cases h

theorem Token.kind_of_numberNode? {negative : Bool} {t : Token} {n : Node}
    (h : t.numberNode? negative = some n) :
    (n.kind = .integerConstant ∨ n.kind = .realConstant) ∧ n.children = [] ∧
      t.kind ≠ .endOfFile := by
  unfold numberNode? at h
  split at h
  · rename_i hk
    cases h
    exact ⟨.inr rfl, rfl, by simp [hk]⟩
  · obtain ⟨hk, hc, ht⟩ := kind_of_integerNode? h
    exact ⟨.inl hk, hc, ht⟩

theorem Token.kind_of_stringNode? {t : Token} {n : Node} (h : t.stringNode? = some n) :
    n.kind = .stringConstant ∧ n.children = [] ∧ t.kind ≠ .endOfFile := by
  unfold stringNode? at h
  dsimp only at h
  split at h
  · rename_i hk
    cases h
    exact ⟨rfl, rfl, by simp [hk]⟩
  · rename_i hk
    cases h
    exact ⟨rfl, rfl, by simp [hk]⟩
  · cases h

theorem DerivesSigned.mentions_integer {ts : List Token} {n : Node}
    (h : DerivesSigned Token.integerNode? ts n) : n.mentions = [] := by
  have leaf {negative : Bool} {t : Token} (ht : t.integerNode? negative = some n) :
      n.mentions = [] := by
    obtain ⟨hk, hc, -⟩ := Token.kind_of_integerNode? ht
    rw [Node.mentions_of_kind (by simp [hk]) (by simp [hk]) (by simp [hk]), hc]
    rfl
  rcases h with ⟨ht⟩ | ⟨-, ht⟩ <;> exact leaf ht

theorem DerivesSigned.mentions_number {ts : List Token} {n : Node}
    (h : DerivesSigned Token.numberNode? ts n) : n.mentions = [] := by
  have leaf {negative : Bool} {t : Token} (ht : t.numberNode? negative = some n) :
      n.mentions = [] := by
    obtain ⟨hk, hc, -⟩ := Token.kind_of_numberNode? ht
    rcases hk with hk | hk <;>
      (rw [Node.mentions_of_kind (by simp [hk]) (by simp [hk]) (by simp [hk]), hc]; rfl)
  rcases h with ⟨ht⟩ | ⟨-, ht⟩ <;> exact leaf ht

/-- There is no name in a constant. -/
theorem DerivesConstant.mentions {ts : List Token} {n : Node} (h : DerivesConstant ts n) :
    n.mentions = [] := by
  cases h with
  | number h => exact h.mentions_number
  | string h =>
    obtain ⟨hk, hc, -⟩ := Token.kind_of_stringNode? h
    rw [Node.mentions_of_kind (by simp [hk]) (by simp [hk]) (by simp [hk]), hc]
    rfl

theorem DerivesConstant.exists_cons {ts : List Token} {n : Node} (h : DerivesConstant ts n) :
    ∃ t us, ts = t :: us := by
  rcases h with ⟨_ | _⟩ | _ <;> exact ⟨_, _, rfl⟩

/-- The names in a node that has none itself are those of its children. -/
theorem Node.mentions_operator {kind : Node.Kind}
    (hk : kind ≠ .var ∧ kind ≠ .program ∧ kind ≠ .assign) (line : Int) (descending : Bool)
    (children : List Node) :
    Node.mentions { kind, line, descending, children } = Node.mentionsAll children :=
  Node.mentions_of_kind hk.1 hk.2.1 hk.2.2

theorem Node.mentions_binary {kind : Node.Kind} (hk : kind.isBinary = true) (line : Int)
    (l r : Node) :
    Node.mentions { kind, line, children := [l, r] } = l.mentions ++ r.mentions := by
  simp [Node.mentions_operator (Node.Kind.nameless_of_isBinary hk)]

theorem Level.isBinary_of_operator? {level : Level} {k : Token.Kind} {kind : Node.Kind}
    (h : level.operator? k = some kind) : kind.isBinary = true := by
  cases level <;>
    simp only [operator?, Token.Kind.multiplicative?, Token.Kind.additive?] at h <;>
    split at h <;> cases h <;> rfl

theorem Token.Kind.isBinary_of_relation? {k : Token.Kind} {kind : Node.Kind}
    (h : k.relation? = some kind) : kind.isBinary = true := by
  unfold relation? at h
  split at h <;> cases h <;> rfl

namespace Reading

variable {c c' : Cursor}

/-! ### Expressions -/

/-- What the reader returns and where it ends satisfy the condition, if it is quiet. -/
def Ensures (c : Cursor) {α : Type} (act : Reading α) (q : α → Cursor → Prop) : Prop :=
  ∀ ⦃a c'⦄, act c = .ok a c' → c'.reports.size = c.reports.size → q a c'

theorem Ensures.current_bind {α : Type} {f : Token → Reading α} {q : α → Cursor → Prop}
    (h : Ensures c (f c.current) q) : Ensures c (current >>= f) q := h

theorem Ensures.kind_bind {α : Type} {f : Token.Kind → Reading α} {q : α → Cursor → Prop}
    (h : Ensures c (f c.current.kind) q) : Ensures c (kind >>= f) q := h

theorem Ensures.reportCount_bind {α : Type} {f : Nat → Reading α} {q : α → Cursor → Prop}
    (h : Ensures c (f c.reports.size) q) : Ensures c (reportCount >>= f) q := h

/-- A reader that rejects a token is not quiet. -/
theorem Ensures.reject_pure {α : Type} {w : Complaint} {a : α} {q : α → Cursor → Prop} :
    Ensures c (do reject w; return a) q :=
  fun _ _ h hq => absurd hq (Nat.ne_of_gt (size_lt_of_reject_pure h))

/-- A node that the current token makes, if it makes one. -/
theorem Ensures.ofNode? {n : Option Node} {other : Reading (Option Node)}
    {q : Option Node → Cursor → Prop} (hc : c.Calm)
    (hne : ∀ m, n = some m → c.current.kind ≠ .endOfFile)
    (hnode : ∀ m c', n = some m → Quiet c [c.current] [] c' → q (some m) c')
    (hother : Ensures c other q) :
    Ensures c
      (match n with
        | some node => do
          advance
          return some node
        | none => other) q := by
  intro a c' h hq
  cases n with
  | some m =>
    obtain ⟨_, c₁, h₁, h⟩ := bind_eq_ok.1 h
    obtain ⟨rfl, rfl⟩ := pure_eq_ok.1 h
    exact hnode m c₁ rfl (quiet_advance hc (hne m rfl) h₁ hq)
  | none => exact hother h hq

theorem sound_expect {expected : Token.Kind} {w : Complaint} {b : Bool}
    (hc : c.Calm) (hk : expected ≠ .endOfFile) (h : expect expected w c = .ok b c')
    (hq : c'.reports.size = c.reports.size) :
    b = true ∧ c.current.kind = expected ∧ Quiet c [c.current] [] c' := by
  rw [expect, kind_bind] at h
  split at h
  · rename_i he
    obtain ⟨_, c₁, h₁, h⟩ := bind_eq_ok.1 h
    obtain ⟨rfl, rfl⟩ := pure_eq_ok.1 h
    exact ⟨rfl, he, quiet_advance hc (he ▸ hk) h₁ hq⟩
  · exact absurd hq (Nat.ne_of_gt (size_lt_of_reject_pure h))

theorem sound_variableUse {n : Node} (hc : c.Calm) (hk : c.current.kind = .identifier)
    (h : variableUse c = .ok n c') (hq : c'.reports.size = c.reports.size) :
    n = c.current.variableNode ∧ Quiet c [c.current] [.uses c.current.text] c' := by
  rw [variableUse, current_bind, get_bind] at h
  split at h
  · rename_i ht
    obtain ⟨_, c₁, h₁, h⟩ := bind_eq_ok.1 h
    obtain ⟨rfl, rfl⟩ := pure_eq_ok.1 h
    exact ⟨rfl, (quiet_use hc ht).trans (quiet_advance hc (by simp [hk]) h₁ hq)⟩
  · obtain ⟨_, c₁, h₁, h⟩ := bind_eq_ok.1 h
    obtain ⟨_, c₂, h₂, h⟩ := bind_eq_ok.1 h
    obtain ⟨rfl, rfl⟩ := pure_eq_ok.1 h
    have := size_lt_of_complain h₁
    have := steady_advance.grows h₂
    omega

theorem sound_constantBehind {node? : Bool → Token → Option Node} {w : Complaint}
    {negative : Bool} (hn : ∀ {negative t n}, node? negative t = some n → t.kind ≠ .endOfFile)
    (hc : c.Calm) :
    Ensures c (constantBehind node? w negative) fun a c' =>
      ∃ n, a = some n ∧ node? negative c.current = some n ∧ Quiet c [c.current] [] c' :=
  .current_bind (.ofNode? hc (fun _ => hn) (fun n _ hnode hq => ⟨n, rfl, hnode, hq⟩) .reject_pure)

/-- A number is read in quiet only if it is one, perhaps behind a minus sign. -/
theorem sound_signedConstant {node? : Bool → Token → Option Node} {w : Complaint}
    {a : Option Node} (hn : ∀ {negative t n}, node? negative t = some n → t.kind ≠ .endOfFile)
    (hc : c.Calm) (h : signedConstant node? w c = .ok a c')
    (hq : c'.reports.size = c.reports.size) :
    ∃ ts n, a = some n ∧ Quiet c ts [] c' ∧ DerivesSigned node? ts n := by
  rw [signedConstant, kind_bind] at h
  dsimp only at h
  split at h
  · rename_i hminus
    obtain ⟨_, c₁, h₁, h⟩ := bind_eq_ok.1 h
    have hs₁ := steady_advance.grows h₁
    have hs := (steady_constantBehind node? w _).grows h
    have hq₁ := quiet_advance hc (by simp [hminus]) h₁ (by omega)
    obtain ⟨n, rfl, hnode, hq₂⟩ := sound_constantBehind hn hq₁.calm h (by omega)
    rw [decide_eq_true hminus] at hnode
    exact ⟨_, n, rfl, hq₁.trans hq₂, .negative hminus hnode⟩
  · rename_i hminus
    obtain ⟨n, rfl, hnode, hq⟩ := sound_constantBehind hn hc h hq
    rw [decide_eq_false hminus] at hnode
    exact ⟨_, n, rfl, hq, .plain hnode⟩

/-- An expression was passed, and its tree was returned. -/
def ReadsExpression (phrase : ExpressionPhrase) (c : Cursor) (a : Option Node) (c' : Cursor) :
    Prop :=
  ∃ ts n, a = some n ∧ Quiet c ts n.mentions c' ∧ DerivesExpression phrase ts n

/-- **A reader of expressions is sound**: what it reads in quiet is an expression, and it returns
the tree. -/
def SoundExpression (phrase : ExpressionPhrase) (act : Reading (Option Node)) : Prop :=
  ∀ c : Cursor, c.Calm → Ensures c act (ReadsExpression phrase c)

/-- The rest of a chain, behind operands that form a chain already. -/
theorem sound_chain {level : Level} {operand : Reading (Option Node)} (hs : Steady 0 operand)
    (ho : SoundExpression level.operand operand) (k : Nat) {ts₀ : List Token} {n₀ : Node}
    (hd : DerivesExpression (.chain level) ts₀ n₀) {a : Option Node} (hc : c.Calm)
    (h : chain level.operator? operand k (some n₀) c = .ok a c')
    (hq : c'.reports.size = c.reports.size) :
    ∃ ts ms n, a = some n ∧ n.mentions = n₀.mentions ++ ms ∧ Quiet c ts ms c' ∧
      DerivesExpression (.chain level) (ts₀ ++ ts) n := by
  -- the chain in hand grows with every round, and each operand behind it is a new right operand
  induction k generalizing c ts₀ n₀ with
  | zero => cases h
  | succ k ih =>
    rw [chain, current_bind] at h
    cases hop : level.operator? c.current.kind with
    | none =>
      rw [hop] at h
      obtain ⟨rfl, rfl⟩ := pure_eq_ok.1 h
      exact ⟨[], [], n₀, rfl, by simp, .refl hc, by simpa using hd⟩
    | some kind =>
      rw [hop] at h
      have hk : c.current.kind ≠ .endOfFile := by
        intro he
        cases level <;> simp [he, Level.operator?, Token.Kind.multiplicative?,
          Token.Kind.additive?] at hop
      obtain ⟨_, c₁, h₁, h⟩ := bind_eq_ok.1 h
      obtain ⟨right, c₂, h₂, h⟩ := bind_eq_ok.1 h
      have hs₁ := steady_advance.grows h₁
      have hs₂ := hs.grows h₂
      have hs₃ := (((steady_chain (by cases level <;> rfl) hs k _)).mono (Nat.zero_le _)).grows h
      have hq₁ := quiet_advance hc hk h₁ (by omega)
      obtain ⟨us, r, rfl, hq₂, hr⟩ := ho _ hq₁.calm h₂ (by omega)
      obtain ⟨ts, ms, n, rfl, hm, hq₃, hn⟩ := ih (.operator hd hop hr) hq₂.calm h (by omega)
      refine ⟨c.current :: us ++ ts, r.mentions ++ ms, n, rfl, ?_, hq₁.trans (hq₂.trans hq₃), ?_⟩
      · rw [hm, Node.mentions_binary (Level.isBinary_of_operator? hop), List.append_assoc]
      · simpa using hn

theorem sound_chainOf {level : Level} {operand : Reading (Option Node)} (hs : Steady 0 operand)
    (ho : SoundExpression level.operand operand) :
    SoundExpression (.chain level) (do
      let left ← operand
      chain level.operator? operand (← budget) left) := by
  intro c hc a c' h hq
  obtain ⟨left, c₁, h₁, h⟩ := bind_eq_ok.1 h
  rw [budget_bind] at h
  have hs₁ := hs.grows h₁
  have hs₂ := ((steady_chain (by cases level <;> rfl) hs _ _).mono (Nat.zero_le _)).grows h
  obtain ⟨us, l, rfl, hq₁, hl⟩ := ho c hc h₁ (by omega)
  obtain ⟨ts, ms, n, rfl, hm, hq₂, hn⟩ := sound_chain hs ho _ (.operand hl) hq₁.calm h (by omega)
  exact ⟨us ++ ts, n, rfl, hm ▸ hq₁.trans hq₂, hn⟩

theorem sound_termOf {f : Reading (Option Node)} (hs : Steady 0 f)
    (hf : SoundExpression .factor f) : SoundExpression (.chain .term) (termOf f) :=
  @sound_chainOf .term f hs hf

theorem sound_simpleOf {f : Reading (Option Node)} (hs : Steady 0 f)
    (hf : SoundExpression .factor f) : SoundExpression (.chain .simple) (simpleOf f) :=
  @sound_chainOf .simple (termOf f) (steady_termOf hs) (sound_termOf hs hf)

theorem sound_expressionOf {f : Reading (Option Node)} (hs : Steady 0 f)
    (hf : SoundExpression .factor f) : SoundExpression .expression (expressionOf f) := by
  intro c hc a c' h hq
  have hsimple := sound_simpleOf hs hf
  obtain ⟨left, c₁, h₁, h⟩ := bind_eq_ok.1 h
  rw [current_bind] at h
  have hs₁ := (steady_simpleOf hs).grows h₁
  cases hop : c₁.current.kind.relation? with
  | none =>
    rw [hop] at h
    obtain ⟨rfl, rfl⟩ := pure_eq_ok.1 h
    obtain ⟨ts, n, rfl, hq₁, hn⟩ := hsimple c hc h₁ hq
    exact ⟨ts, n, rfl, hq₁, .simple hn⟩
  | some kind =>
    rw [hop] at h
    have hk : c₁.current.kind ≠ .endOfFile := by
      intro he
      simp [he, Token.Kind.relation?] at hop
    obtain ⟨_, c₂, h₂, h⟩ := bind_eq_ok.1 h
    obtain ⟨right, c₃, h₃, h⟩ := bind_eq_ok.1 h
    obtain ⟨rfl, rfl⟩ := pure_eq_ok.1 h
    have hs₂ := steady_advance.grows h₂
    have hs₃ := (steady_simpleOf hs).grows h₃
    obtain ⟨ts, l, rfl, hq₁, hl⟩ := hsimple c hc h₁ (by omega)
    have hq₂ := quiet_advance hq₁.calm hk h₂ (by omega)
    obtain ⟨us, r, rfl, hq₃, hr⟩ := hsimple c₂ hq₂.calm h₃ (by omega)
    refine ⟨ts ++ c₁.current :: us, { kind, line := c₁.current.line, children := [l, r] }, rfl, ?_,
      .relation hl hop hr⟩
    rw [Node.mentions_binary (Token.Kind.isBinary_of_relation? hop)]
    exact hq₁.trans (hq₂.trans hq₃)

/-! ### Operands

Variables and constants are factors, and they are the arguments of WRITE statements. `P` says what
phrases they are read as. -/

section Operands

variable {P : List Token → Node → Prop}

theorem sound_variable (hc : c.Calm) (hk : c.current.kind = .identifier)
    (hP : P [c.current] c.current.variableNode) :
    Ensures c (some <$> variableUse) fun a c' =>
      ∃ ts n, a = some n ∧ Quiet c ts n.mentions c' ∧ P ts n := by
  intro a c' h hq
  obtain ⟨n, hn, rfl⟩ := map_eq_ok.1 h
  obtain ⟨rfl, hq⟩ := sound_variableUse hc hk hn hq
  exact ⟨[c.current], _, rfl, by simpa using hq, hP⟩

theorem sound_number {w : Complaint} (hc : c.Calm) (hP : ∀ {ts n}, DerivesConstant ts n → P ts n) :
    Ensures c (signedNumber w) fun a c' =>
      ∃ ts n, a = some n ∧ Quiet c ts n.mentions c' ∧ P ts n := by
  intro a c' h hq
  obtain ⟨ts, n, rfl, hq, hn⟩ :=
    sound_signedConstant (fun h => (Token.kind_of_numberNode? h).2.2) hc h hq
  exact ⟨ts, n, rfl, hn.mentions_number ▸ hq, hP (.number hn)⟩

theorem sound_string {w : Complaint} (hc : c.Calm) (hP : ∀ {ts n}, DerivesConstant ts n → P ts n) :
    Ensures c
      (match c.current.stringNode? with
        | some node => do
          advance
          return some node
        | none => do
          reject w
          return none) fun a c' => ∃ ts n, a = some n ∧ Quiet c ts n.mentions c' ∧ P ts n := by
  refine .ofNode? hc (fun _ h => (Token.kind_of_stringNode? h).2.2) (fun n c' hnode hq => ?_)
    .reject_pure
  have hd : DerivesConstant [c.current] n := .string hnode
  exact ⟨[c.current], n, rfl, by rwa [hd.mentions], hP hd⟩

end Operands

theorem sound_factorOf {inner : Reading (Option Node)} (hs : Steady 0 inner)
    (hi : SoundExpression .factor inner) : SoundExpression .factor (factorOf inner) := by
  intro c hc
  refine .current_bind ?_
  split
  · rename_i hk
    intro a c' h hq
    obtain ⟨_, c₁, h₁, h⟩ := bind_eq_ok.1 h
    obtain ⟨operand, c₂, h₂, h⟩ := bind_eq_ok.1 h
    obtain ⟨rfl, rfl⟩ := pure_eq_ok.1 h
    have hs₁ := steady_advance.grows h₁
    have hs₂ := hs.grows h₂
    have hq₁ := quiet_advance hc (by simp [hk]) h₁ (by omega)
    obtain ⟨ts, n, rfl, hq₂, hn⟩ := hi c₁ hq₁.calm h₂ (by omega)
    refine ⟨c.current :: ts, _, rfl, ?_, .not hk hn⟩
    rw [Node.mentions_operator (by decide)]
    simpa using hq₁.trans hq₂
  · rename_i hk
    exact sound_variable hc hk (.var hk)
  · exact sound_number hc .constant
  · exact sound_number hc .constant
  · exact sound_number hc .constant
  · rename_i hk
    intro a c' h hq
    obtain ⟨_, c₁, h₁, h⟩ := bind_eq_ok.1 h
    obtain ⟨node, c₂, h₂, h⟩ := bind_eq_ok.1 h
    obtain ⟨_, c₃, h₃, h⟩ := bind_eq_ok.1 h
    obtain ⟨rfl, rfl⟩ := pure_eq_ok.1 h
    have hs₁ := steady_advance.grows h₁
    have hs₂ := (steady_expressionOf hs).grows h₂
    have hs₃ := (steady_expect _ _).grows h₃
    have hq₁ := quiet_advance hc (by simp [hk]) h₁ (by omega)
    obtain ⟨ts, n, rfl, hq₂, hn⟩ := sound_expressionOf hs hi c₁ hq₁.calm h₂ (by omega)
    obtain ⟨-, hr, hq₃⟩ := sound_expect hq₂.calm (by decide) h₃ (by omega)
    refine ⟨c.current :: ts ++ [c₂.current], n, rfl, ?_, .parens hk hn hr⟩
    simpa using hq₁.trans (hq₂.trans hq₃)
  · exact sound_string hc .constant

theorem sound_factor : ∀ k, SoundExpression .factor (factor k)
  | 0 => fun _ _ _ _ h => nomatch h
  | k + 1 => sound_factorOf ((steady_factor k).mono (Nat.zero_le _)) (sound_factor k)

theorem sound_expression : SoundExpression .expression expression := fun c hc _ _ h hq =>
  sound_expressionOf ((steady_factor _).mono (Nat.zero_le _)) (sound_factor _) c hc h hq

end Reading

end MiniPascal

import MiniPascal.Proofs.Grammar.Progress

/-!
# Every reader is steady

One lemma for every reader of the grammar. A reader that takes its fuel from the tokens in front
of it is steady whatever their number. The readers of nested phrases take the reader of the inner
phrases as a parameter: if that is steady below `n` tokens, then so is the outer one, and below
`n + 1` tokens if it consumes a token first.

* `MiniPascal.Reading.steady_expression`: expressions.
* `MiniPascal.Reading.steady_statement`: statements.
* `MiniPascal.Reading.consuming_statementOf`: a token that starts a statement is consumed.
-/

namespace MiniPascal.Reading

open Cursor

variable {n : Nat} {c c' : Cursor}

/-! ### Skipping -/

theorem steady_skip : ∀ k, Steady k (skip k)
  | 0 => steady_exhausted
  | k + 1 => by
    intro c
    rw [skip]
    refine .kind_bind ?_
    split
    · exact steady_pure () c
    · rename_i hk
      refine steadyAt_advance_bind (fun he => hk ?_) fun _ => steady_skip k
      rw [he]
      rfl

theorem steady_reject (w : Complaint) : Steady n (reject w) :=
  (steady_complain w).bind fun _ => .budget fun k => (steady_skip k).mono (Nat.min_le_right ..)

theorem steady_expect (expected : Token.Kind) (w : Complaint) : Steady n (expect expected w) := by
  unfold expect
  refine steady_kind.bind fun k => ?_
  split
  · exact steady_advance.bind fun _ => steady_pure _
  · exact (steady_reject w).bind fun _ => steady_pure _

theorem steady_skipSemicolons : ∀ k, Steady k (skipSemicolons k)
  | 0 => steady_exhausted
  | k + 1 => by
    intro c
    rw [skipSemicolons]
    refine .kind_bind ?_
    split
    · rename_i hk
      exact steadyAt_advance_bind (by simp [hk]) fun _ => steady_skipSemicolons k
    · exact steady_pure () c

/-! ### Expressions -/

theorem steady_variableUse : Steady n variableUse := by
  unfold variableUse
  refine steady_current.bind fun t => steady_get.bind fun c => ?_
  split
  · exact steady_advance.bind fun _ => steady_pure _
  · exact (steady_complain _).bind fun _ => steady_advance.bind fun _ => steady_pure _

theorem steady_constantBehind (node? : Bool → Token → Option Node) (w : Complaint)
    (negative : Bool) : Steady n (constantBehind node? w negative) := by
  refine steady_current.bind fun t => ?_
  split
  · exact steady_advance.bind fun _ => steady_pure _
  · exact (steady_reject w).bind fun _ => steady_pure _

theorem steady_signedConstant (node? : Bool → Token → Option Node) (w : Complaint) :
    Steady n (signedConstant node? w) := by
  refine steady_kind.bind fun k => ?_
  dsimp only
  split
  · exact steady_advance.bind fun _ => steady_constantBehind node? w _
  · exact steady_constantBehind node? w _

/-- A chain consumes an operator in every round. -/
theorem steady_chain {operator? : Token.Kind → Option Node.Kind} (ho : operator? .endOfFile = none)
    {operand : Reading (Option Node)} (hx : Steady n operand) :
    ∀ k node, Steady (min n k) (chain operator? operand k node)
  | 0, _ => steady_exhausted.mono (Nat.min_le_right ..)
  | k + 1, node => by
    intro c
    rw [chain]
    refine .current_bind ?_
    split
    · exact steady_pure node c
    · rename_i op hop
      have hk : c.current.kind ≠ .endOfFile := by
        intro he
        rw [he, ho] at hop
        cases hop
      have hr := steadyAt_advance_bind hk fun _ =>
        (hx.mono (Nat.min_le_left n k)).bind fun right => steady_chain ho hx k
          (some { kind := op, line := c.current.line, children := node.toList ++ right.toList })
      exact hr.imp (by omega)

theorem steady_termOf {f : Reading (Option Node)} (hf : Steady n f) : Steady n (termOf f) :=
  hf.bind fun _ => .budget fun k => steady_chain rfl hf k _

theorem steady_simpleOf {f : Reading (Option Node)} (hf : Steady n f) : Steady n (simpleOf f) :=
  (steady_termOf hf).bind fun _ => .budget fun k => steady_chain rfl (steady_termOf hf) k _

theorem steady_expressionOf {f : Reading (Option Node)} (hf : Steady n f) :
    Steady n (expressionOf f) := by
  refine (steady_simpleOf hf).bind fun _ => steady_current.bind fun t => ?_
  split
  · exact steady_pure _
  · exact steady_advance.bind fun _ => (steady_simpleOf hf).bind fun _ => steady_pure _

/-- A factor consumes a token before the factors within it are read. -/
theorem steady_factorOf {inner : Reading (Option Node)} (hi : Steady n inner) :
    Steady (n + 1) (factorOf inner) := by
  intro c
  unfold factorOf
  refine .current_bind ?_
  split
  · rename_i hk
    exact steadyAt_advance_bind (by simp [hk]) fun _ => hi.bind fun _ => steady_pure _
  · exact steady_variableUse.map c
  · exact steady_signedConstant _ _ c
  · exact steady_signedConstant _ _ c
  · exact steady_signedConstant _ _ c
  · rename_i hk
    exact steadyAt_advance_bind (by simp [hk]) fun _ => (steady_expressionOf hi).bind fun _ =>
      (steady_expect _ _).bind fun _ => steady_pure _
  · split
    · exact (steady_advance.bind fun _ => steady_pure _) c
    · exact ((steady_reject _).bind fun _ => steady_pure _) c

theorem steady_factor : ∀ k, Steady k (factor k)
  | 0 => steady_exhausted
  | k + 1 => steady_factorOf (steady_factor k)

theorem steady_expression : Steady n expression :=
  .budget fun k => (steady_expressionOf (steady_factor k)).mono (Nat.min_le_right ..)


/-! ### Lists of statements -/

theorem steady_nested {inner : Reading (Option Node)} (hi : Steady n inner) :
    Steady n (nested inner) := by
  refine steady_current.bind fun t => hi.bind fun node => ?_
  split <;> exact steady_pure _

theorem steady_separator (terminal : Token.Kind) (start : Cursor) :
    Steady n (separator terminal start) := by
  refine steady_get.bind fun now => ?_
  dsimp only
  split
  · exact .budget fun k => (steady_skipSemicolons k).mono (Nat.min_le_right ..)
  · split
    · exact steady_complain _
    · split
      · split
        · exact (steady_complain _).bind fun _ => steady_advance
        · exact steady_advance
      · exact steady_pure _

/-- Semicolons are consumed if there is one. -/
theorem left_lt_of_skipSemicolons {k : Nat} {u : Unit}
    (hk : c.current.kind = .symbol .semicolon) (h : skipSemicolons k c = .ok u c') :
    c'.left < c.left := by
  cases k with
  | zero => cases h
  | succ k =>
    rw [skipSemicolons, kind_bind, if_pos hk] at h
    exact left_lt_of_advance_bind (by simp [hk])
      (fun _ => steady_skipSemicolons k) h

/-- At the given cursor the reader consumes a token, unless none is in front that starts a
statement, and then it may stay where it is. -/
def ConsumesAt (c : Cursor) (act : Reading (Option Node)) : Prop :=
  ∀ node c', act c = .ok node c' →
    c'.left < c.left ∨
      c'.current = c.current ∧ c'.rest = c.rest ∧ c.current.kind.startsStatement = false

theorem ConsumesAt.current_bind {f : Token → Reading (Option Node)}
    (h : ConsumesAt c (f c.current)) : ConsumesAt c (current >>= f) := h

/-- **A reader of statements consumes a token**, unless none is in front that starts one. -/
def Consuming (inner : Reading (Option Node)) : Prop := ∀ c, ConsumesAt c inner

/-- **A round of a list of statements makes progress**: it consumes a token or it leaves the
list. -/
theorem left_lt_of_statementRound {inner : Reading (Option Node)} (hi : Steady n inner)
    (hc : Consuming inner) {terminal : Token.Kind} (hk : c.current.kind ≠ .endOfFile)
    {node : Option Node} (hround : statementRound inner terminal c = .ok node c') :
    c'.left < c.left ∨ c'.current.kind = terminal ∨ c'.current.kind = .endOfFile := by
  rw [statementRound, get_bind] at hround
  obtain ⟨_, c₁, h, hround⟩ := bind_eq_ok.1 hround
  obtain ⟨_, c₂, hs, hround⟩ := bind_eq_ok.1 hround
  obtain ⟨-, rfl⟩ := pure_eq_ok.1 hround
  have hf := (hi c).follows h
  rw [separator, get_bind] at hs
  dsimp only at hs
  split at hs
  · rename_i hsemi
    have := left_lt_of_skipSemicolons hsemi hs
    exact .inl (Nat.lt_of_lt_of_le this hf.left_le)
  · split at hs
    · -- a token that starts a statement: the reader of statements has not stopped in front of it
      rename_i hstart
      obtain ⟨rfl⟩ := hs
      rcases hc c _ _ h with hlt | ⟨hcur, -, hno⟩
      · exact .inl hlt
      · rw [hcur, hno] at hstart
        cases hstart
    · split at hs
      · -- nothing was read and the list is not at its end: the token is passed over
        rename_i hstay
        have hk₁ : c₁.current.kind ≠ .endOfFile := by simp_all
        refine .inl (Nat.lt_of_lt_of_le ?_ hf.left_le)
        split at hs
        · obtain ⟨_, c₂, hcomplain, hadv⟩ := bind_eq_ok.1 hs
          obtain ⟨hcur, hrest, -⟩ := complain_eq_ok hcomplain
          have hlt := left_lt_of_advance (by rwa [hcur]) hadv
          simpa [left, hcur, hrest] using hlt
        · exact left_lt_of_advance hk₁ hs
      · rename_i hmoved
        obtain ⟨-, rfl⟩ := pure_eq_ok.1 hs
        by_cases hl : c₁.rest.length = c.rest.length
        · by_cases ht : c₁.current.kind = terminal
          · exact .inr (.inl ht)
          · exact .inr (.inr (by simpa [hl, ht] using hmoved))
        · have hle := hf.length_le
          have hle₁ := c₁.left_le_length
          rw [left_of_ne hk]
          omega

theorem steady_statementRound {inner : Reading (Option Node)} (hi : Steady n inner)
    (terminal : Token.Kind) : Steady n (statementRound inner terminal) :=
  steady_get.bind fun _ => hi.bind fun _ => (steady_separator _ _).bind fun _ => steady_pure _

theorem statements_of_end {inner : Reading (Option Node)} {terminal : Token.Kind} {k : Nat}
    (h : c.current.kind = terminal ∨ c.current.kind = .endOfFile) :
    statements inner terminal (k + 1) c = .ok [] c := by
  rw [statements, kind_bind, if_pos (by simpa using h)]
  rfl

/-- A list of statements needs no more rounds than there are tokens. -/
theorem steady_statements {inner : Reading (Option Node)} (hi : Steady n inner)
    (hc : Consuming inner) (terminal : Token.Kind) :
    ∀ k, Steady (min n k) (statements inner terminal k)
  | 0 => steady_exhausted.mono (Nat.min_le_right ..)
  | k + 1 => by
    intro c
    rw [statements]
    refine .kind_bind ?_
    split
    · exact steady_pure _ c
    · rename_i hend
      have hk : c.current.kind ≠ .endOfFile := by simp_all
      have hl := left_of_ne hk
      refine ((steady_statementRound hi terminal c).imp (by omega)).bind fun {node c₁} h₁ => ?_
      -- either a token is gone, which pays for the next round, or the next round is the last
      have hnext : SteadyAt (c.left < min n (k + 1)) c₁ (statements inner terminal k) := by
        have hrec := steady_statements hi hc terminal k c₁
        rcases left_lt_of_statementRound hi hc hk h₁ with hlt | hend₁
        · exact hrec.imp (by omega)
        · cases k with
          | zero => exact hrec.imp (by omega)
          | succ k => exact .of_ok (statements_of_end hend₁) (.refl _)
      exact hnext.bind fun _ => .of_ok rfl (.refl _)

theorem opens_compoundOf {inner : Reading (Option Node)} (hi : Steady n inner)
    (hc : Consuming inner) (hk : c.current.kind ≠ .endOfFile) : Opens n c (compoundOf inner) :=
  .current_bind <| opens_advance_bind hk fun _ =>
    (Steady.budget fun k => steady_statements hi hc _ k).bind fun _ =>
      (steady_expect _ _).bind fun _ => steady_pure _

/-! ### Assignments -/

theorem steady_rightSide : Steady n rightSide := by
  refine (steady_expect _ _).bind fun b => ?_
  split
  · exact steady_expression
  · exact steady_pure _

theorem opens_assignment (hk : c.current.kind ≠ .endOfFile) : Opens n c assignment :=
  .current_bind <| .enter_bind <| opens_advance_bind hk fun _ =>
    steady_rightSide.bind fun _ => steady_pure _

theorem steady_assignment (hk : c.current.kind ≠ .endOfFile) :
    SteadyAt (c.left < n) c assignment :=
  (opens_assignment hk).steady.imp Nat.lt_succ_of_lt

/-! ### Choices and loops -/

theorem steady_alternative {inner : Reading (Option Node)} (hi : Steady n inner) :
    Steady n (alternative inner) := by
  refine steady_kind.bind fun k => ?_
  split
  · exact steady_advance.bind fun _ => (steady_nested hi).bind fun _ => steady_pure _
  · exact steady_pure _

theorem steady_thenPart {inner : Reading (Option Node)} (hi : Steady n inner) :
    Steady n (thenPart inner) := by
  refine steady_kind.bind fun k => ?_
  split
  · exact steady_advance.bind fun _ => (steady_nested hi).bind fun _ =>
      (steady_alternative hi).bind fun _ => steady_pure _
  · exact steady_pure _

theorem steady_consequences {inner : Reading (Option Node)} (hi : Steady n inner) :
    Steady n (consequences inner) := by
  refine steady_kind.bind fun k => ?_
  dsimp only
  split
  · exact (steady_reject _).bind fun _ => steady_thenPart hi
  · exact steady_thenPart hi

theorem opens_conditionalOf {inner : Reading (Option Node)} (hi : Steady n inner)
    (hk : c.current.kind ≠ .endOfFile) : Opens n c (conditionalOf inner) :=
  .current_bind <| opens_advance_bind hk fun _ => steady_expression.bind fun _ =>
    (steady_consequences hi).bind fun _ => steady_pure _

theorem steady_body {inner : Reading (Option Node)} (hi : Steady n inner) :
    Steady n (body inner) := by
  refine steady_kind.bind fun k => ?_
  split
  · exact steady_advance.bind fun _ => (steady_nested hi).bind fun _ => steady_pure _
  · exact steady_pure _

theorem opens_whileOf {inner : Reading (Option Node)} (hi : Steady n inner)
    (hk : c.current.kind ≠ .endOfFile) : Opens n c (whileOf inner) := by
  refine .current_bind <| opens_advance_bind hk fun _ => steady_expression.bind fun _ =>
    steady_kind.bind fun k => ?_
  dsimp only
  split
  · exact (steady_reject _).bind fun _ => (steady_body hi).bind fun _ => steady_pure _
  · exact (steady_body hi).bind fun _ => steady_pure _

theorem steady_untilTest : Steady n untilTest := by
  refine steady_current.bind fun t => (steady_expect _ _).bind fun b => ?_
  split
  · exact steady_expression.bind fun _ => steady_pure _
  · exact steady_pure _

theorem opens_repeatOf {inner : Reading (Option Node)} (hi : Steady n inner)
    (hc : Consuming inner) (hk : c.current.kind ≠ .endOfFile) : Opens n c (repeatOf inner) :=
  .current_bind <| opens_advance_bind hk fun _ =>
    (Steady.budget fun k => steady_statements hi hc _ k).bind fun _ =>
      steady_untilTest.bind fun _ => steady_pure _

theorem steady_controlAssignment : Steady n controlAssignment := by
  intro c
  refine .kind_bind ?_
  split
  · rename_i hk
    exact (steady_assignment (by simp [hk])).bind fun _ => .of_ok rfl (.refl _)
  · exact ((steady_reject _).bind fun _ => steady_pure _) c

theorem steady_limit (reports : Nat) : Steady n (limit reports) := by
  refine steady_kind.bind fun k => ?_
  split
  · exact steady_advance.bind fun _ => steady_expression.bind fun _ => steady_pure _
  · exact steady_advance.bind fun _ => steady_expression.bind fun _ => steady_pure _
  · refine steady_reportCount.bind fun m => ?_
    dsimp only
    split
    · exact (steady_reject _).bind fun _ => steady_pure _
    · exact steady_pure _

theorem opens_forOf {inner : Reading (Option Node)} (hi : Steady n inner)
    (hk : c.current.kind ≠ .endOfFile) : Opens n c (forOf inner) := by
  refine .current_bind <| opens_advance_bind hk fun _ => steady_reportCount.bind fun reports =>
    steady_controlAssignment.bind fun _ => steady_kind.bind fun _ =>
      (steady_limit reports).bind fun _ => steady_kind.bind fun k =>
        steady_reportCount.bind fun m => ?_
  dsimp only
  split
  · exact (steady_reject _).bind fun _ => (steady_body hi).bind fun _ => steady_pure _
  · exact (steady_body hi).bind fun _ => steady_pure _

/-! ### CASE statements -/

theorem steady_label : Steady n label := by
  refine steady_current.bind fun t => ?_
  split
  · exact steady_advance.bind fun _ => steady_pure _
  · exact steady_signedConstant _ _

/-- A list of labels consumes a comma in every round. -/
theorem steady_moreLabels : ∀ k, Steady k (moreLabels k)
  | 0 => steady_exhausted
  | k + 1 => by
    intro c
    rw [moreLabels]
    refine .kind_bind ?_
    split
    · rename_i hk
      -- a label may be missing, but the comma in front of it is gone
      have hround : Opens k c labelRound := opens_advance_bind (by simp [hk]) fun _ => steady_label
      refine hround.steady.bind fun {node c₁} h₁ => ?_
      have hlt := hround.consumes h₁
      exact ((steady_moreLabels k c₁).imp (by omega)).bind fun _ => .of_ok rfl (.refl _)
    · exact steady_pure _ c

theorem steady_labels : Steady n labels :=
  steady_current.bind fun _ => steady_label.bind fun _ =>
    (Steady.budget fun k => (steady_moreLabels k).mono (Nat.min_le_right ..)).bind fun _ =>
      steady_pure _

theorem steady_branchStatement {inner : Reading (Option Node)} (hi : Steady n inner)
    (reports : Nat) : Steady n (branchStatement inner reports) := by
  refine steady_kind.bind fun k => ?_
  split
  · exact steady_advance.bind fun _ => (steady_nested hi).bind fun _ => steady_pure _
  · refine steady_reportCount.bind fun m => ?_
    dsimp only
    split
    · exact (steady_reject _).bind fun _ => steady_pure _
    · exact steady_pure _

theorem steady_branchSeparator (start : Cursor) : Steady n (branchSeparator start) := by
  refine steady_get.bind fun now => ?_
  have pass (b : Bool) : Steady n (if b then advance else pure ()) := by
    split
    · exact steady_advance
    · exact steady_pure _
  dsimp only
  split
  · exact .budget fun k => (steady_skipSemicolons k).mono (Nat.min_le_right ..)
  · split
    · exact steady_pure _
    · split
      · exact (steady_complain _).bind fun _ => pass _
      · exact pass _

/-- What follows a branch is consumed, unless the branch has consumed something itself or the
list ends. -/
theorem left_lt_of_branchSeparator {c₁ : Cursor} {u : Unit} (hk : c.current.kind ≠ .endOfFile)
    (hf : Follows c c₁) (hs : branchSeparator c c₁ = .ok u c') :
    c'.left < c.left ∨ c'.current.kind = .keyword .endKw ∨ c'.current.kind = .endOfFile := by
  rw [branchSeparator, get_bind] at hs
  dsimp only at hs
  split at hs
  · rename_i hsemi
    exact .inl (Nat.lt_of_lt_of_le (left_lt_of_skipSemicolons hsemi hs) hf.left_le)
  · split at hs
    · rename_i hend
      obtain ⟨-, rfl⟩ := pure_eq_ok.1 hs
      exact .inr (by simpa using hend)
    · rename_i hend
      have hk₁ : c₁.current.kind ≠ .endOfFile := by simp_all
      -- the token is passed over unless something was read before it
      have pass : ∀ {c₂ : Cursor}, c₂.current = c₁.current → c₂.rest = c₁.rest →
          (if c₁.rest.length = c.rest.length || c₁.current.kind.followsStatement then advance
            else pure ()) c₂ = .ok u c' → c'.left < c.left := by
        intro c₂ hcur hrest hpass
        split at hpass
        · have hlt := left_lt_of_advance (by rwa [hcur]) hpass
          have hle := hf.left_le
          simp only [left, hcur, hrest] at hlt hle
          exact Nat.lt_of_lt_of_le hlt hle
        · rename_i hmoved
          obtain ⟨-, rfl⟩ := pure_eq_ok.1 hpass
          have hle := hf.length_le
          have hle₂ := c₂.left_le_length
          have hne : c₁.rest.length ≠ c.rest.length := by simp_all
          rw [left_of_ne hk]
          rw [hrest] at hle₂
          omega
      split at hs
      · obtain ⟨_, c₂, hcomplain, hpass⟩ := bind_eq_ok.1 hs
        obtain ⟨hcur, hrest, -⟩ := complain_eq_ok hcomplain
        exact .inl (pass hcur hrest hpass)
      · exact .inl (pass rfl rfl hs)

theorem steady_branchRound {inner : Reading (Option Node)} (hi : Steady n inner) :
    Steady n (branchRound inner) := by
  refine steady_get.bind fun start => ?_
  split
  · exact steady_advance.bind fun _ => steady_pure _
  · exact steady_labels.bind fun _ => (steady_branchStatement hi _).bind fun _ =>
      (steady_branchSeparator _).bind fun _ => steady_pure _

/-- **A round of the branches of a CASE statement makes progress**: it consumes a token or it
leaves the list. -/
theorem left_lt_of_branchRound {inner : Reading (Option Node)} (hi : Steady n inner)
    (hk : c.current.kind ≠ .endOfFile) {nodes : List Node}
    (hround : branchRound inner c = .ok nodes c') :
    c'.left < c.left ∨ c'.current.kind = .keyword .endKw ∨ c'.current.kind = .endOfFile := by
  rw [branchRound, get_bind] at hround
  split at hround
  · exact .inl (left_lt_of_advance_bind (n := n) hk (fun _ => steady_pure _) hround)
  · obtain ⟨constants, c₁, h₁, hround⟩ := bind_eq_ok.1 hround
    obtain ⟨body, c₂, h₂, hround⟩ := bind_eq_ok.1 hround
    obtain ⟨_, c₃, h₃, hround⟩ := bind_eq_ok.1 hround
    obtain ⟨-, rfl⟩ := pure_eq_ok.1 hround
    have hf₁ := (steady_labels (n := n) c).follows h₁
    have hf₂ := (steady_branchStatement hi _ c₁).follows h₂
    exact left_lt_of_branchSeparator hk (hf₁.trans hf₂) h₃

theorem branches_of_end {inner : Reading (Option Node)} {k : Nat}
    (h : c.current.kind = .keyword .endKw ∨ c.current.kind = .endOfFile) :
    branches inner (k + 1) c = .ok [] c := by
  rw [branches, kind_bind, if_pos (by simpa using h)]
  rfl

/-- The branches of a CASE statement need no more rounds than there are tokens. -/
theorem steady_branches {inner : Reading (Option Node)} (hi : Steady n inner) :
    ∀ k, Steady (min n k) (branches inner k)
  | 0 => steady_exhausted.mono (Nat.min_le_right ..)
  | k + 1 => by
    intro c
    rw [branches]
    refine .kind_bind ?_
    split
    · exact steady_pure _ c
    · rename_i hend
      have hk : c.current.kind ≠ .endOfFile := by simp_all
      have hl := left_of_ne hk
      refine ((steady_branchRound hi c).imp (by omega)).bind fun {nodes c₁} h₁ => ?_
      have hnext : SteadyAt (c.left < min n (k + 1)) c₁ (branches inner k) := by
        have hrec := steady_branches hi k c₁
        rcases left_lt_of_branchRound hi hk h₁ with hlt | hend₁
        · exact hrec.imp (by omega)
        · cases k with
          | zero => exact hrec.imp (by omega)
          | succ k => exact .of_ok (branches_of_end hend₁) (.refl _)
      exact hnext.bind fun _ => .of_ok rfl (.refl _)

theorem steady_ofPart {inner : Reading (Option Node)} (hi : Steady n inner) :
    Steady n (ofPart inner) := by
  refine steady_kind.bind fun k => ?_
  split
  · exact steady_advance.bind fun _ => (Steady.budget fun k => steady_branches hi k).bind fun _ =>
      (steady_expect _ _).bind fun _ => steady_pure _
  · exact steady_pure _

theorem steady_branchesPart {inner : Reading (Option Node)} (hi : Steady n inner) :
    Steady n (branchesPart inner) := by
  refine steady_kind.bind fun k => ?_
  dsimp only
  split
  · exact (steady_reject _).bind fun _ => steady_ofPart hi
  · exact steady_ofPart hi

theorem opens_selectOf {inner : Reading (Option Node)} (hi : Steady n inner)
    (hk : c.current.kind ≠ .endOfFile) : Opens n c (selectOf inner) :=
  .current_bind <| opens_advance_bind hk fun _ => steady_expression.bind fun _ =>
    (steady_branchesPart hi).bind fun _ => steady_pure _

/-! ### WRITE statements -/

theorem steady_writeArgument : Steady n writeArgument := by
  refine steady_current.bind fun t => ?_
  split
  · exact steady_variableUse.map
  · exact steady_signedConstant _ _
  · exact steady_signedConstant _ _
  · exact steady_signedConstant _ _
  · split
    · exact steady_advance.bind fun _ => steady_pure _
    · exact (steady_reject _).bind fun _ => steady_pure _

theorem steady_formatPart (w : Complaint) : Steady n (formatPart w) := by
  refine steady_kind.bind fun k => ?_
  split
  · exact steady_advance.bind fun _ => (steady_signedConstant _ _).bind fun _ => steady_pure _
  · exact steady_pure _

theorem steady_writeFormat : Steady n writeFormat := by
  refine (steady_formatPart _).bind fun width => ?_
  split
  · exact steady_pure _
  · exact steady_pure _
  · refine (steady_formatPart _).bind fun places => ?_
    split <;> exact steady_pure _

theorem steady_writeArguments : Steady n writeArguments := by
  refine (steady_expect _ _).bind fun b => ?_
  split
  · refine steady_writeArgument.bind fun argument => ?_
    split
    · exact steady_pure _
    · refine steady_writeFormat.bind fun format => ?_
      dsimp only
      split
      · exact (steady_expect _ _).bind fun _ => steady_pure _
      · exact steady_pure _
  · exact steady_pure _

theorem opens_writeStatement (statement : Node.Kind) (hk : c.current.kind ≠ .endOfFile) :
    Opens n c (writeStatement statement) := by
  refine .current_bind <| opens_advance_bind hk fun _ => steady_kind.bind fun k => ?_
  split
  · exact steady_pure _
  · exact steady_writeArguments.bind fun _ => steady_pure _

/-! ### All statements -/

theorem opens_identifierStatement (name : Text) (hk : c.current.kind ≠ .endOfFile) :
    Opens n c (identifierStatement name) := by
  unfold identifierStatement
  split
  · exact opens_writeStatement _ hk
  · split
    · exact opens_writeStatement _ hk
    · exact opens_assignment hk

/-- A reader that may go on without a token leaves its place only by consuming one. -/
theorem left_lt_or_eq_of_skip {k : Nat} {u : Unit} (h : skip k c = .ok u c') :
    c'.left < c.left ∨ c'.current = c.current ∧ c'.rest = c.rest := by
  cases k with
  | zero => cases h
  | succ k =>
    rw [skip, kind_bind] at h
    split at h
    · obtain ⟨-, rfl⟩ := pure_eq_ok.1 h
      exact .inr ⟨rfl, rfl⟩
    · rename_i hk
      refine .inl (left_lt_of_advance_bind (fun he => hk ?_) (fun _ => steady_skip k) h)
      rw [he]
      rfl

theorem left_lt_or_eq_of_reject {w : Complaint} {u : Unit} (h : reject w c = .ok u c') :
    c'.left < c.left ∨ c'.current = c.current ∧ c'.rest = c.rest := by
  obtain ⟨_, c₁, hcomplain, hskip⟩ := bind_eq_ok.1 h
  obtain ⟨hcur, hrest, -⟩ := complain_eq_ok hcomplain
  rw [budget_bind] at hskip
  rcases left_lt_or_eq_of_skip hskip with hlt | ⟨hcur', hrest'⟩
  · exact .inl (by simpa [left, hcur, hrest] using hlt)
  · exact .inr ⟨hcur'.trans hcur, hrest'.trans hrest⟩

/-- A statement consumes a token before the statements within it are read. -/
theorem steady_statementOf {inner : Reading (Option Node)} (hi : Steady n inner)
    (hc : Consuming inner) : Steady (n + 1) (statementOf inner) := by
  intro c
  refine .current_bind ?_
  split
  · rename_i hk
    exact (opens_identifierStatement _ (by simp [hk])).map.steady
  · rename_i hk
    exact (opens_compoundOf hi hc (by simp [hk])).map.steady
  · rename_i hk
    exact (opens_repeatOf hi hc (by simp [hk])).map.steady
  · rename_i hk
    exact (opens_conditionalOf hi (by simp [hk])).map.steady
  · rename_i hk
    exact (opens_whileOf hi (by simp [hk])).map.steady
  · rename_i hk
    exact (opens_forOf hi (by simp [hk])).map.steady
  · rename_i hk
    exact (opens_selectOf hi (by simp [hk])).map.steady
  · split
    · exact steady_pure _ c
    · exact ((steady_reject _).bind fun _ => steady_pure _) c

theorem consuming_statementOf {inner : Reading (Option Node)} (hi : Steady n inner)
    (hc : Consuming inner) : Consuming (statementOf inner) := by
  intro c
  have opened {act : Reading Node} (ho : Opens n c act) : ConsumesAt c (some <$> act) :=
    fun _ _ h => .inl (ho.map.consumes h)
  refine .current_bind ?_
  split
  · rename_i hk
    exact opened (opens_identifierStatement _ (by simp [hk]))
  · rename_i hk
    exact opened (opens_compoundOf hi hc (by simp [hk]))
  · rename_i hk
    exact opened (opens_repeatOf hi hc (by simp [hk]))
  · rename_i hk
    exact opened (opens_conditionalOf hi (by simp [hk]))
  · rename_i hk
    exact opened (opens_whileOf hi (by simp [hk]))
  · rename_i hk
    exact opened (opens_forOf hi (by simp [hk]))
  · rename_i hk
    exact opened (opens_selectOf hi (by simp [hk]))
  · have hno : c.current.kind.startsStatement = false := by
      unfold Token.Kind.startsStatement
      split <;> simp_all
    split
    · intro node c' h
      obtain ⟨-, rfl⟩ := pure_eq_ok.1 h
      exact .inr ⟨rfl, rfl, hno⟩
    · intro node c' h
      obtain ⟨_, c₁, hreject, hpure⟩ := bind_eq_ok.1 h
      obtain ⟨-, rfl⟩ := pure_eq_ok.1 hpure
      rcases left_lt_or_eq_of_reject hreject with hlt | ⟨hcur, hrest⟩
      · exact .inl hlt
      · exact .inr ⟨hcur, hrest, hno⟩

theorem consuming_statement : ∀ k, Consuming (statement k) ∧ Steady k (statement k)
  | 0 => ⟨fun _ _ _ => nofun, steady_exhausted⟩
  | k + 1 =>
    have ⟨hc, hi⟩ := consuming_statement k
    ⟨consuming_statementOf hi hc, steady_statementOf hi hc⟩

theorem steady_statement (k : Nat) : Steady k (statement k) := (consuming_statement k).2

/-! ### Programs -/

theorem steady_programName : Steady n programName := by
  refine steady_current.bind fun t => ?_
  split
  · exact (steady_enter _).bind fun _ => steady_advance.bind fun _ => steady_pure _
  · exact (steady_reject _).bind fun _ => steady_pure _

theorem steady_programBody : Steady n programBody := by
  intro c
  refine .kind_bind ?_
  split
  · rename_i hk
    -- the fuel for statements within statements comes from the tokens in front
    have hc := consuming_statement (c.rest.length + 2)
    have hl := c.left_le_length
    have hbody := (opens_compoundOf (c := c) hc.2 hc.1 (by simp [hk])).steady.bind
      fun {node c'} _ => SteadyAt.of_ok (x := pure [node]) rfl (.refl c')
    exact ⟨hbody.follows, fun h _ => hbody.breaks h (by omega)⟩
  · exact ((steady_reject _).bind fun _ => steady_pure _) c

theorem steady_programEnd : Steady n programEnd := by
  refine steady_kind.bind fun k =>
    (Steady.budget fun k => (steady_skipSemicolons k).mono (Nat.min_le_right ..)).bind fun _ =>
      steady_kind.bind fun k' => ?_
  split
  · exact steady_advance
  · split
    · exact steady_reject _
    · exact steady_pure _

theorem steady_logProgram (name : Option Text) : Steady n (logProgram name) :=
  steady_of_still fun _ => ⟨_, _, rfl, follows_of_rest_eq rfl rfl ⟨[], by simp⟩⟩

theorem steady_program : Steady n program :=
  steady_advance.bind fun _ => steady_current.bind fun _ => (steady_expect _ _).bind fun _ =>
    steady_programName.bind fun _ => (steady_expect _ _).bind fun _ =>
      steady_programBody.bind fun _ => steady_programEnd.bind fun _ =>
        (steady_logProgram _).bind fun _ => steady_pure _

end MiniPascal.Reading

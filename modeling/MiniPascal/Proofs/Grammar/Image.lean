import MiniPascal.Proofs.Grammar.Acceptance
import MiniPascal.Proofs.Node.Shape

/-!
# The trees of programs

Which trees come out of the reader, if nothing is reported? Those whose nodes have the shape of their
kinds, in which every ELSE belongs to the nearest IF and every name is declared before it is used.

In one direction, every rule of the grammar makes nodes of the right shape. In the other, a tree of
that shape is written down as tokens, with parentheses around every operation, and the reader gives
it back.

* `MiniPascal.DerivesProgram.shaped`: derivations make trees of the right shape.
* `MiniPascal.Shaped.derivable`: trees of that shape have a derivation.
* `MiniPascal.exists_tokens_iff`: the trees that come out of the reader.
-/

namespace MiniPascal

open Node

/-! ### Lines do not matter -/

namespace Node

theorem endsOpen_of_kind {n : Node} (hc : n.kind ≠ .conditional) (hw : n.kind ≠ .whileLoop)
    (hf : n.kind ≠ .forLoop) : n.endsOpen = false := by
  obtain ⟨kind, line, text, value, slot, descending, children⟩ := n
  unfold endsOpen
  split <;> simp_all

@[simp] theorem endsOpen_onLine (line : Int) (n : Node) :
    (n.onLine line).endsOpen = n.endsOpen := by
  induction n using tree_induction with
  | h n ih =>
    obtain ⟨kind, k, text, value, slot, descending, children⟩ := n
    by_cases hc : kind = .conditional
    · subst hc
      rcases children with _ | ⟨a, _ | ⟨b, _ | ⟨c, _ | ⟨d, children⟩⟩⟩⟩
      · rfl
      · rfl
      · rfl
      · exact ih c (by simp)
      · rfl
    by_cases hw : kind = .whileLoop
    · subst hw
      rcases children with _ | ⟨a, _ | ⟨b, _ | ⟨c, children⟩⟩⟩
      · rfl
      · rfl
      · exact ih b (by simp)
      · rfl
    by_cases hf : kind = .forLoop
    · subst hf
      rcases children with _ | ⟨a, _ | ⟨b, _ | ⟨c, _ | ⟨d, children⟩⟩⟩⟩
      · rfl
      · rfl
      · rfl
      · exact ih c (by simp)
      · rfl
    exact (endsOpen_of_kind hc hw hf).trans (endsOpen_of_kind hc hw hf).symm

theorem ElseNearest.of_onLine_eq {line : Int} {n m : Node} (h : m.ElseNearest)
    (heq : n.onLine line = m.onLine line) : n.ElseNearest := by
  induction h generalizing n with
  | @intro m hm _ ih =>
    have hchildren : n.children.map (onLine line) = m.children.map (onLine line) :=
      (fields_of_onLine_eq heq).2
    refine .intro (fun hk c s e hcs => ?_) (forall_of_map_onLine_eq hchildren ih)
    have hkind : m.kind = .conditional := by
      have := congrArg kind heq
      simpa [hk] using this.symm
    rw [hcs] at hchildren
    obtain ⟨c', s', e', hcs', -, hs, -⟩ := children_of_onLine_three hchildren.symm
    have hclosed := hm hkind c' s' e' hcs'
    rw [← endsOpen_onLine line, ← hs, endsOpen_onLine]
    exact hclosed

end Node

/-! ### Derivations make shapes -/

theorem Token.shaped_variableNode (t : Token) : Shaped .variable t.variableNode := .var _ _

theorem Token.shaped_integerNode? {negative : Bool} {t : Token} {n : Node}
    (h : t.integerNode? negative = some n) : Shaped .integer n := by
  unfold integerNode? at h
  split at h <;> cases h
  exact .integer _ _ _

theorem DerivesSigned.shaped_integer {ts : List Token} {n : Node}
    (h : DerivesSigned Token.integerNode? ts n) : Shaped .integer n := by
  rcases h with ⟨h⟩ | ⟨-, h⟩ <;> exact Token.shaped_integerNode? h

theorem DerivesSigned.shaped_number {ts : List Token} {n : Node}
    (h : DerivesSigned Token.numberNode? ts n) : Shaped .constant n := by
  have node {negative : Bool} {t : Token} (h : t.numberNode? negative = some n) :
      Shaped .constant n := by
    unfold Token.numberNode? at h
    split at h
    · cases h
      exact .real _ _ _
    · exact .number (Token.shaped_integerNode? h)
  rcases h with ⟨h⟩ | ⟨-, h⟩ <;> exact node h

theorem DerivesConstant.shaped {ts : List Token} {n : Node} (h : DerivesConstant ts n) :
    Shaped .constant n := by
  cases h with
  | number h => exact h.shaped_number
  | string h =>
    unfold Token.stringNode? at h
    dsimp only at h
    split at h <;> cases h <;> exact .string _ _ _

theorem DerivesArgument.shaped {ts : List Token} {n : Node} (h : DerivesArgument ts n) :
    Shaped .leaf n := by
  cases h with
  | var => exact .ofVariable (Token.shaped_variableNode _)
  | constant h => exact .ofConstant h.shaped

theorem DerivesExpression.shaped {phrase : ExpressionPhrase} {ts : List Token} {n : Node}
    (h : DerivesExpression phrase ts n) : Shaped .expression n := by
  induction h with
  | var => exact .ofLeaf (.ofVariable (Token.shaped_variableNode _))
  | constant h => exact .ofLeaf (.ofConstant h.shaped)
  | not _ _ ih => exact .not _ ih
  | parens _ _ _ ih => exact ih
  | operand _ ih => exact ih
  | operator _ hop _ ihl ihr => exact .binary _ (Level.isBinary_of_operator? hop) ihl ihr
  | simple _ ih => exact ih
  | relation _ hop _ ihl ihr => exact .binary _ (Token.Kind.isBinary_of_relation? hop) ihl ihr

theorem DerivesAssignment.shaped {ts : List Token} {n : Node} (h : DerivesAssignment ts n) :
    Shaped .assignment n := by
  obtain ⟨-, -, he⟩ := h
  exact .assign _ (Token.shaped_variableNode _) he.shaped

theorem DerivesLabels.shaped {ts : List Token} {ns : List Node} (h : DerivesLabels ts ns) :
    ns ≠ [] ∧ ∀ n ∈ ns, Shaped .constant n := by
  induction h with
  | one hn => exact ⟨by simp, by simpa using hn.shaped⟩
  | more hn _ _ ih => exact ⟨by simp, by simpa using ⟨hn.shaped, ih.2⟩⟩

theorem DerivesFormat.shaped {ts : List Token} {ns : List Node} (h : DerivesFormat ts ns) :
    (∀ n ∈ ns, Shaped .integer n) ∧ ns.length ≤ 2 := by
  cases h with
  | none => simp
  | width _ hw => exact ⟨by simpa using hw.shaped_integer, by simp⟩
  | places _ hw _ hp => exact ⟨by simpa using ⟨hw.shaped_integer, hp.shaped_integer⟩, by simp⟩

theorem Token.isWriteName_iff {t : Token} : IsWriteName t.text ↔ t.writeKind? ≠ none := by
  unfold IsWriteName writeKind?
  split
  · simp [*]
  · split <;> simp [*]

/-- The role of the nodes of a phrase. -/
def StatementPhrase.role : StatementPhrase → Role
  | statement | nested | statements => .statement
  | branch | branches => .branch

theorem DerivesStatement.shaped {phrase : StatementPhrase} {next : Nat} {ts : List Token}
    {ns : List Node} (h : DerivesStatement phrase next ts ns) :
    ∀ n ∈ ns, Shaped phrase.role n := by
  induction h with
  | empty | noBranch => simp
  | assignment ha hw =>
    have hassign := ha.shaped
    obtain ⟨-, -, -⟩ := ha
    refine List.forall_mem_singleton.2 (.assignment hassign rfl ?_)
    rintro name ⟨⟩ hname
    exact Token.isWriteName_iff.1 hname hw
  | writeln => exact List.forall_mem_singleton.2 (.writeln _)
  | write _ hw _ hn hf =>
    exact List.forall_mem_singleton.2
      (.write _ (Token.writeKind?_cases hw) hn.shaped hf.shaped.1 hf.shaped.2)
  | compound _ _ _ ih => exact List.forall_mem_singleton.2 (.compound _ ih)
  | conditional _ hc _ _ ih =>
    exact List.forall_mem_singleton.2 (.conditional _ hc.shaped (List.forall_mem_singleton.1 ih))
  | alternative _ hc _ _ _ _ ihs ihe =>
    exact List.forall_mem_singleton.2 (.alternative _ hc.shaped
      (List.forall_mem_singleton.1 ihs) (List.forall_mem_singleton.1 ihe))
  | whileLoop _ hc _ _ ih =>
    exact List.forall_mem_singleton.2 (.whileLoop _ hc.shaped (List.forall_mem_singleton.1 ih))
  | loop _ _ _ hc ih => exact List.forall_mem_singleton.2 (.loop _ ih (.test _ hc.shaped))
  | forLoop _ ha _ hl _ _ ih =>
    exact List.forall_mem_singleton.2
      (.forLoop _ _ ha.shaped hl.shaped (List.forall_mem_singleton.1 ih))
  | select _ hc _ _ _ ih => exact List.forall_mem_singleton.2 (.select _ hc.shaped ih)
  | some _ ih => exact ih
  | none => exact List.forall_mem_singleton.2 (.compound _ (by simp))
  | one _ ih => exact ih
  | more _ _ _ ih ih' => exact List.forall_mem_append.2 ⟨ih, ih'⟩
  | branch hl _ _ ih =>
    exact List.forall_mem_singleton.2
      (.branch _ (.labels _ hl.shaped.1 hl.shaped.2) (List.forall_mem_singleton.1 ih))
  | noBranchMore _ _ ih => exact ih
  | oneBranch _ ih => exact ih
  | moreBranches _ _ _ ih ih' => exact List.forall_mem_append.2 ⟨ih, ih'⟩

/-- **Derivations make trees of the right shape.** -/
theorem DerivesProgram.shaped {ts : List Token} {tree : Node} (h : DerivesProgram ts tree) :
    Shaped .program tree := by
  obtain ⟨-, -, -, -, hd, -, -⟩ := h
  exact .program _ _ _ hd.shaped

/-! ### Shapes have derivations -/

/-- A token of the given kind on the first line. -/
def Token.ofKind (kind : Token.Kind) : Token := ⟨kind, 1, []⟩

theorem Token.kind_ofKind (kind : Token.Kind) : (Token.ofKind kind).kind = kind := rfl

/-- Every operator between two operands is written in some way. -/
theorem Node.Kind.exists_operator {kind : Node.Kind} (h : kind.isBinary = true) :
    (∃ k : Token.Kind, k.relation? = some kind) ∨
      ∃ (level : Level) (k : Token.Kind), level.operator? k = some kind := by
  cases kind with
  | add => exact .inr ⟨.simple, .symbol .plus, rfl⟩
  | subtract => exact .inr ⟨.simple, .symbol .minus, rfl⟩
  | multiply => exact .inr ⟨.term, .symbol .star, rfl⟩
  | divide => exact .inr ⟨.term, .symbol .slash, rfl⟩
  | intDivide => exact .inr ⟨.simple, .keyword .divKw, rfl⟩
  | equal => exact .inl ⟨.symbol .equals, rfl⟩
  | unequal => exact .inl ⟨.symbol .notEquals, rfl⟩
  | less => exact .inl ⟨.symbol .lessThan, rfl⟩
  | greater => exact .inl ⟨.symbol .greaterThan, rfl⟩
  | atMost => exact .inl ⟨.symbol .lessEquals, rfl⟩
  | atLeast => exact .inl ⟨.symbol .greaterEquals, rfl⟩
  | and => exact .inr ⟨.term, .keyword .andKw, rfl⟩
  | or => exact .inr ⟨.simple, .keyword .orKw, rfl⟩
  | _ => cases h

theorem DerivesExpression.operand_of_factor {ts : List Token} {n : Node}
    (h : DerivesExpression .factor ts n) (level : Level) :
    DerivesExpression level.operand ts n := by
  cases level with
  | term => exact h
  | simple => exact @DerivesExpression.operand .term ts n h

theorem DerivesExpression.chain_of_factor {ts : List Token} {n : Node}
    (h : DerivesExpression .factor ts n) (level : Level) :
    DerivesExpression (.chain level) ts n := .operand (h.operand_of_factor level)

/-- A chain of terms is an expression, and so is a chain of factors. -/
theorem DerivesExpression.of_chain {level : Level} {ts : List Token} {n : Node}
    (h : DerivesExpression (.chain level) ts n) : DerivesExpression .expression ts n := by
  cases level with
  | term => exact .simple (.operand h)
  | simple => exact .simple h

/-- An operation in parentheses. -/
theorem exists_parens {kind : Node.Kind} (hk : kind.isBinary = true) {ts us : List Token}
    {l r : Node} (hl : DerivesExpression .factor ts l) (hr : DerivesExpression .factor us r) :
    ∃ vs, DerivesExpression .factor vs { kind, line := 1, children := [l, r] } := by
  rcases kind.exists_operator hk with ⟨k, hop⟩ | ⟨level, k, hop⟩
  · have he : DerivesExpression .expression (ts ++ Token.ofKind k :: us)
        { kind, line := (Token.ofKind k).line, children := [l, r] } :=
      .relation (hl.chain_of_factor .simple) hop (hr.chain_of_factor .simple)
    exact ⟨_, .parens (Token.kind_ofKind _) he (Token.kind_ofKind _)⟩
  · have he : DerivesExpression (.chain level) (ts ++ Token.ofKind k :: us)
        { kind, line := (Token.ofKind k).line, children := [l, r] } :=
      .operator (hl.chain_of_factor level) hop (hr.operand_of_factor level)
    exact ⟨_, .parens (Token.kind_ofKind _) he.of_chain (Token.kind_ofKind _)⟩

/-- The node, put on the first line, can be written down in the given role. -/
def Derivable : Role → Node → Prop
  | .variable, n => ∃ t : Token, t.kind = .identifier ∧ n.onLine 1 = t.variableNode
  | .integer, n => ∃ t : Token, t.line = 1 ∧ t.integerNode? false = some (n.onLine 1)
  | .constant, n => ∃ t : Token, t.line = 1 ∧ DerivesConstant [t] (n.onLine 1)
  | .leaf, n => ∃ t, DerivesArgument [t] (n.onLine 1)
  | .expression, n => ∃ ts, DerivesExpression .factor ts (n.onLine 1)
  | .assignment, n => ∃ t ts, DerivesAssignment (t :: ts) (n.onLine 1)
  | .test, n => ∃ ts c, DerivesExpression .expression ts c ∧
    n.onLine 1 = { kind := .test, line := 1, children := [c] }
  | .statement, n => ∃ ts, DerivesStatement .statement 1 ts [n.onLine 1]
  | .labels, n => ∃ (t : Token) (ts : List Token) (ns : List Node), t.line = 1 ∧
    DerivesLabels (t :: ts) ns ∧ n.onLine 1 = { kind := .selectConstants, line := 1, children := ns }
  | .branch, n => ∃ ts, DerivesStatement .branch 1 ts [n.onLine 1]
  | .program, n => ∃ ts, DerivesProgram ts (n.onLine 1) ∧
    ∃ p, ts.getLast? = some p ∧ p.kind = .symbol .period

theorem exists_statements {ns : List Node} (h : ∀ n ∈ ns, Derivable .statement n) :
    ∃ ts, DerivesStatement .statements 1 ts (ns.map (onLine 1)) := by
  induction ns with
  | nil => exact ⟨[], .one .empty⟩
  | cons n ns ih =>
    obtain ⟨ts, hts⟩ := h n List.mem_cons_self
    obtain ⟨us, hus⟩ := ih fun m hm => h m (List.mem_cons_of_mem n hm)
    exact ⟨_, .more hts (Token.kind_ofKind (.symbol .semicolon)) hus⟩

theorem exists_branches {ns : List Node} (h : ∀ n ∈ ns, Derivable .branch n) :
    ∃ ts, DerivesStatement .branches 1 ts (ns.map (onLine 1)) := by
  induction ns with
  | nil => exact ⟨[], .noBranch⟩
  | cons n ns ih =>
    obtain ⟨ts, hts⟩ := h n List.mem_cons_self
    obtain ⟨us, hus⟩ := ih fun m hm => h m (List.mem_cons_of_mem n hm)
    exact ⟨_, .moreBranches hts (Token.kind_ofKind (.symbol .semicolon)) hus⟩

theorem exists_labels {n : Node} {ns : List Node} (h : ∀ m ∈ n :: ns, Derivable .constant m) :
    ∃ (t : Token) (ts : List Token), t.line = 1 ∧
      DerivesLabels (t :: ts) ((n :: ns).map (onLine 1)) := by
  induction ns generalizing n with
  | nil =>
    obtain ⟨t, hline, ht⟩ := h n List.mem_cons_self
    exact ⟨t, [], hline, .one ht⟩
  | cons m ns ih =>
    obtain ⟨t, hline, ht⟩ := h n List.mem_cons_self
    obtain ⟨u, us, -, hus⟩ := ih fun m' hm' => h m' (List.mem_cons_of_mem n hm')
    exact ⟨t, _, hline, .more ht (Token.kind_ofKind (.symbol .comma)) hus⟩

theorem exists_format {ns : List Node} (h : ∀ m ∈ ns, Derivable .integer m)
    (hlen : ns.length ≤ 2) : ∃ ts, DerivesFormat ts (ns.map (onLine 1)) := by
  match ns, hlen with
  | [], _ => exact ⟨[], .none⟩
  | [w], _ =>
    obtain ⟨t, -, ht⟩ := h w (by simp)
    exact ⟨_, .width (Token.kind_ofKind _) (.plain ht)⟩
  | [w, p], _ =>
    obtain ⟨t, -, ht⟩ := h w (by simp)
    obtain ⟨u, -, hu⟩ := h p (by simp)
    exact ⟨_, .places (Token.kind_ofKind _) (.plain ht) (Token.kind_ofKind _) (.plain hu)⟩

/-- **Every tree of the right shape can be written down.** -/
theorem Shaped.derivable {role : Role} {n : Node} (h : Shaped role n) : Derivable role n := by
  -- with parentheses around every operation, an expression is a factor wherever it stands
  induction h with
  | var _ name => exact ⟨⟨.identifier, 1, name⟩, rfl, rfl⟩
  | integer _ text k => exact ⟨⟨.integer k, 1, text⟩, rfl, rfl⟩
  | number _ ih =>
    obtain ⟨t, hline, ht⟩ := ih
    refine ⟨t, hline, .number (.plain ?_)⟩
    unfold Token.numberNode?
    split
    · rename_i hk
      simp [Token.integerNode?, hk] at ht
    · exact ht
  | real _ text x => exact ⟨⟨.real x, 1, text⟩, rfl, .number (.plain rfl)⟩
  | string _ text s => exact ⟨⟨.string s, 1, text⟩, rfl, .string rfl⟩
  | ofVariable _ ih =>
    obtain ⟨t, hk, ht⟩ := ih
    exact ⟨t, ht ▸ .var hk⟩
  | ofConstant _ ih =>
    obtain ⟨t, -, ht⟩ := ih
    exact ⟨t, .constant ht⟩
  | ofLeaf _ ih =>
    obtain ⟨t, ht⟩ := ih
    refine ⟨[t], ?_⟩
    generalize Node.onLine 1 _ = m at ht
    cases ht with
    | var hk => exact .var hk
    | constant hn => exact .constant hn
  | not _ _ ih =>
    obtain ⟨ts, hts⟩ := ih
    exact ⟨_, .not (Token.kind_ofKind _) hts⟩
  | binary _ hk _ _ ihl ihr =>
    obtain ⟨ts, hts⟩ := ihl
    obtain ⟨us, hus⟩ := ihr
    exact exists_parens hk hts hus
  | @assign _ v e _ _ ihv ihe =>
    obtain ⟨t, hk, ht⟩ := ihv
    obtain ⟨ts, hts⟩ := ihe
    have hline : (1 : Int) = t.line := by
      simpa [Token.variableNode] using congrArg Node.line ht
    have ha := DerivesAssignment.intro hk (Token.kind_ofKind (.symbol .becomes))
      (hts.chain_of_factor .simple).of_chain
    rw [← ht, ← hline] at ha
    exact ⟨t, _, ha⟩
  | @assignment n v e _ hvs hname ih =>
    -- at the start of a statement the target must not be taken for WRITE
    obtain ⟨t, ts, ha⟩ := ih
    have htext : v.text = .text t.text := by
      have hc : (n.onLine 1).children = [v.onLine 1, e.onLine 1] := by simp [hvs]
      generalize n.onLine 1 = m at ha hc
      obtain ⟨-, -, -⟩ := ha
      obtain ⟨hv, -⟩ := List.cons.inj hc
      simpa [Token.variableNode] using (congrArg Node.text hv).symm
    refine ⟨_, .assignment ha ?_⟩
    exact Decidable.not_not.1 fun hw => hname _ htext (Token.isWriteName_iff.2 hw)
  | compound _ _ ih =>
    obtain ⟨ts, hts⟩ := exists_statements ih
    have hd : DerivesStatement .statement 1 _ _ := .compound (e := .ofKind (.keyword .endKw))
      (Token.kind_ofKind (.keyword .beginKw)) hts rfl
    exact ⟨_, by rw [onLine_eq]; exact hd⟩
  | conditional _ _ _ ihc ihs =>
    obtain ⟨ts, hts⟩ := ihc
    obtain ⟨us, hus⟩ := ihs
    exact ⟨_, .conditional (Token.kind_ofKind _) (hts.chain_of_factor .simple).of_chain
      (Token.kind_ofKind _) (.some hus)⟩
  | alternative _ _ _ _ ihc ihs ihe =>
    obtain ⟨ts, hts⟩ := ihc
    obtain ⟨us, hus⟩ := ihs
    obtain ⟨vs, hvs⟩ := ihe
    -- all tokens are on the first line, also the one behind the statement
    have hthen : DerivesStatement .nested (Token.ofKind (.keyword .elseKw)).line us _ := .some hus
    exact ⟨_, .alternative (Token.kind_ofKind _) (hts.chain_of_factor .simple).of_chain
      (Token.kind_ofKind _) hthen rfl (.some hvs)⟩
  | whileLoop _ _ _ ihc ihs =>
    obtain ⟨ts, hts⟩ := ihc
    obtain ⟨us, hus⟩ := ihs
    exact ⟨_, .whileLoop (Token.kind_ofKind _) (hts.chain_of_factor .simple).of_chain
      (Token.kind_ofKind _) (.some hus)⟩
  | forLoop _ descending _ _ _ iha ihl ihs =>
    obtain ⟨t, ts, ha⟩ := iha
    obtain ⟨us, hus⟩ := ihl
    obtain ⟨vs, hvs⟩ := ihs
    have hl := (hus.chain_of_factor .simple).of_chain
    cases descending with
    | false =>
      exact ⟨_, .forLoop (Token.kind_ofKind _) ha (.inl (Token.kind_ofKind _)) hl
        (Token.kind_ofKind _) (.some hvs)⟩
    | true =>
      exact ⟨_, .forLoop (Token.kind_ofKind _) ha (.inr (Token.kind_ofKind _)) hl
        (Token.kind_ofKind _) (.some hvs)⟩
  | test _ _ ih =>
    obtain ⟨ts, hts⟩ := ih
    exact ⟨ts, _, (hts.chain_of_factor .simple).of_chain, by simp [onLine_eq]⟩
  | loop _ _ _ ihs iht =>
    obtain ⟨ts, hts⟩ := exists_statements ihs
    obtain ⟨us, c, hus, ht⟩ := iht
    have hd : DerivesStatement .statement 1 _ _ := .loop (u := .ofKind (.keyword .untilKw))
      (Token.kind_ofKind (.keyword .repeatKw)) hts rfl hus
    exact ⟨_, by rw [onLine_eq, List.map_append, List.map_singleton, ht]; exact hd⟩
  | select _ _ _ ihe ihs =>
    obtain ⟨ts, hts⟩ := ihe
    obtain ⟨us, hus⟩ := exists_branches ihs
    have hd : DerivesStatement .statement 1 _ _ := .select (e := .ofKind (.keyword .endKw))
      (Token.kind_ofKind (.keyword .caseKw)) (hts.chain_of_factor .simple).of_chain
      (Token.kind_ofKind (.keyword .ofKw)) hus rfl
    exact ⟨_, by rw [onLine_eq]; exact hd⟩
  | labels _ hne _ ih =>
    obtain ⟨n, ns, rfl⟩ := List.exists_cons_of_ne_nil hne
    obtain ⟨t, ts, hline, hts⟩ := exists_labels ih
    exact ⟨t, ts, _, hline, hts, by rw [onLine_eq]⟩
  | branch _ _ _ ihl ihs =>
    obtain ⟨t, ts, ns, hline, hts, hl⟩ := ihl
    obtain ⟨us, hus⟩ := ihs
    have hd := DerivesStatement.branch hts (Token.kind_ofKind (.symbol .colon)) (.some hus)
    rw [hline] at hd
    exact ⟨_, by rw [onLine_eq, List.map_cons, List.map_singleton, hl]; exact hd⟩
  | @write _ kind _ _ hk _ _ hlen ihn ihs =>
    obtain ⟨t, ht⟩ := ihn
    obtain ⟨us, hus⟩ := exists_format ihs hlen
    have hname : ∃ name : Text, (⟨.identifier, 1, name⟩ : Token).writeKind? = some kind := by
      rcases hk with rfl | rfl
      · exact ⟨"write", rfl⟩
      · exact ⟨"writeln", rfl⟩
    obtain ⟨name, hname⟩ := hname
    have hd : DerivesStatement .statement 1 _ _ := .write rfl hname
      (Token.kind_ofKind (.symbol .leftParen)) ht hus (Token.kind_ofKind (.symbol .rightParen))
    exact ⟨_, by rw [onLine_eq]; exact hd⟩
  | writeln => exact ⟨[⟨.identifier, 1, "writeln"⟩], .writeln rfl rfl⟩
  | program _ _ name _ ihs =>
    obtain ⟨ts, hts⟩ := exists_statements ihs
    have hperiod : DerivesEnding ([] ++ [Token.ofKind (.symbol .period)]) := .period (by simp) rfl
    have hd := DerivesProgram.intro (e := .ofKind (.keyword .endKw))
      (Token.kind_ofKind (.keyword .programKw)) (Eq.refl (Token.kind ⟨.identifier, 1, name⟩))
      (Token.kind_ofKind (.symbol .semicolon)) (Token.kind_ofKind (.keyword .beginKw)) hts rfl
      hperiod
    refine ⟨_, by rw [onLine_eq, List.map_cons, onLine_eq]; exact hd, .ofKind (.symbol .period), ?_⟩
    simp [List.getLast?_append, List.getLast?_cons, Token.ofKind]

/-! ### The tokens of derivations -/

/-- The token is neither an error token nor the end of the text. -/
def Token.Proper (t : Token) : Prop := t.isError = false ∧ t.kind ≠ .endOfFile

/-- **A sign** of statements: a semicolon or `:=`. -/
def Token.IsSign (t : Token) : Prop := t.kind = .symbol .semicolon ∨ t.kind = .symbol .becomes

/-- The token can be within a part of a statement: it is proper, and it is not a sign of statements. -/
structure Token.Inner (t : Token) : Prop where
  proper : t.Proper
  not_isSign : ¬t.IsSign

theorem Token.proper_of_keyword {t : Token} {w : Keyword} (h : t.kind = .keyword w) :
    t.Proper := by simp [Proper, isError, h]

theorem Token.proper_of_symbol {t : Token} {w : Symbol} (h : t.kind = .symbol w) :
    t.Proper := by simp [Proper, isError, h]

theorem Token.proper_of_identifier {t : Token} (h : t.kind = .identifier) :
    t.Proper := by simp [Proper, isError, h]

theorem Token.inner_of_keyword {t : Token} {w : Keyword} (h : t.kind = .keyword w) :
    t.Inner := ⟨proper_of_keyword h, by simp [IsSign, h]⟩

theorem Token.inner_of_symbol {t : Token} {w : Symbol} (h : t.kind = .symbol w)
    (hw : w ≠ .semicolon ∧ w ≠ .becomes) : t.Inner :=
  ⟨proper_of_symbol h, by simpa [IsSign, h] using hw⟩

theorem Token.inner_of_identifier {t : Token} (h : t.kind = .identifier) :
    t.Inner := ⟨proper_of_identifier h, by simp [IsSign, h]⟩

theorem Token.inner_of_integerNode? {negative : Bool} {t : Token} {n : Node}
    (h : t.integerNode? negative = some n) : t.Inner := by
  unfold integerNode? at h
  split at h
  · rename_i hk
    exact ⟨by simp [Proper, isError, hk], by simp [IsSign, hk]⟩
  · cases h

theorem Token.inner_of_numberNode? {negative : Bool} {t : Token} {n : Node}
    (h : t.numberNode? negative = some n) : t.Inner := by
  unfold numberNode? at h
  split at h
  · rename_i hk
    exact ⟨by simp [Proper, isError, hk], by simp [IsSign, hk]⟩
  · exact inner_of_integerNode? h

theorem DerivesSigned.inner {node? : Bool → Token → Option Node} {ts : List Token} {n : Node}
    (hn : ∀ {negative t}, node? negative t = some n → t.Inner) (h : DerivesSigned node? ts n) :
    ∀ t ∈ ts, t.Inner := by
  cases h with
  | plain h => exact List.forall_mem_singleton.2 (hn h)
  | negative hm h =>
    exact List.forall_mem_cons.2
      ⟨Token.inner_of_symbol hm (by decide), List.forall_mem_singleton.2 (hn h)⟩

theorem DerivesConstant.inner {ts : List Token} {n : Node} (h : DerivesConstant ts n) :
    ∀ t ∈ ts, t.Inner := by
  cases h with
  | number h => exact h.inner Token.inner_of_numberNode?
  | string h =>
    refine List.forall_mem_singleton.2 ?_
    rcases Reading.string_first h with ⟨x, hk⟩ | ⟨x, hk⟩ <;>
      exact ⟨by simp [Token.Proper, Token.isError, hk], by simp [Token.IsSign, hk]⟩

theorem Level.inner_of_operator? {level : Level} {op : Token} {kind : Node.Kind}
    (h : level.operator? op.kind = some kind) : op.Inner := by
  cases level <;>
    simp only [operator?, Token.Kind.multiplicative?, Token.Kind.additive?] at h <;>
    split at h <;> cases h <;>
    exact ⟨by simp [Token.Proper, Token.isError, *], by simp [Token.IsSign, *]⟩

theorem Token.inner_of_relation? {op : Token} {kind : Node.Kind}
    (h : op.kind.relation? = some kind) : op.Inner := by
  unfold Token.Kind.relation? at h
  split at h <;> cases h <;>
    exact ⟨by simp [Token.Proper, Token.isError, *], by simp [Token.IsSign, *]⟩

/-- There is no sign of statements in an expression. -/
theorem DerivesExpression.inner {phrase : ExpressionPhrase} {ts : List Token} {n : Node}
    (h : DerivesExpression phrase ts n) : ∀ t ∈ ts, t.Inner := by
  induction h with
  | var hk => exact List.forall_mem_singleton.2 (Token.inner_of_identifier hk)
  | constant h => exact h.inner
  | not hk _ ih => exact List.forall_mem_cons.2 ⟨Token.inner_of_keyword hk, ih⟩
  | parens hl _ hr ih =>
    rw [List.forall_mem_append, List.forall_mem_singleton]
    exact ⟨List.forall_mem_cons.2 ⟨Token.inner_of_symbol hl (by decide), ih⟩,
      Token.inner_of_symbol hr (by decide)⟩
  | operand _ ih => exact ih
  | operator _ hop _ ihl ihr =>
    simp only [List.forall_mem_append, List.forall_mem_cons]
    exact ⟨ihl, Level.inner_of_operator? hop, ihr⟩
  | simple _ ih => exact ih
  | relation _ hop _ ihl ihr =>
    simp only [List.forall_mem_append, List.forall_mem_cons]
    exact ⟨ihl, Token.inner_of_relation? hop, ihr⟩

theorem DerivesExpression.proper {phrase : ExpressionPhrase} {ts : List Token} {n : Node}
    (h : DerivesExpression phrase ts n) : ∀ t ∈ ts, t.Proper := fun t ht => (h.inner t ht).proper

theorem DerivesAssignment.proper {ts : List Token} {n : Node} (h : DerivesAssignment ts n) :
    ∀ t ∈ ts, t.Proper := by
  obtain ⟨hk, hb, he⟩ := h
  simp only [List.forall_mem_cons]
  exact ⟨Token.proper_of_identifier hk, Token.proper_of_symbol hb, he.proper⟩

theorem DerivesLabels.inner {ts : List Token} {ns : List Node} (h : DerivesLabels ts ns) :
    ∀ t ∈ ts, t.Inner := by
  induction h with
  | one hn => exact hn.inner
  | more hn hcomma _ ih =>
    simp only [List.forall_mem_append, List.forall_mem_cons]
    exact ⟨hn.inner, Token.inner_of_symbol hcomma (by decide), ih⟩

theorem DerivesArgument.inner {ts : List Token} {n : Node} (h : DerivesArgument ts n) :
    ∀ t ∈ ts, t.Inner := by
  cases h with
  | var hk => exact List.forall_mem_singleton.2 (Token.inner_of_identifier hk)
  | constant h => exact h.inner

theorem DerivesFormat.inner {ts : List Token} {ns : List Node} (h : DerivesFormat ts ns) :
    ∀ t ∈ ts, t.Inner := by
  cases h with
  | none => simp
  | width hcolon hw =>
    exact List.forall_mem_cons.2 ⟨Token.inner_of_symbol hcolon (by decide),
      hw.inner Token.inner_of_integerNode?⟩
  | places hcolon hw hcolon' hp =>
    simp only [List.forall_mem_append, List.forall_mem_cons]
    exact ⟨⟨Token.inner_of_symbol hcolon (by decide), hw.inner Token.inner_of_integerNode?⟩,
      Token.inner_of_symbol hcolon' (by decide), hp.inner Token.inner_of_integerNode?⟩

theorem DerivesStatement.proper {phrase : StatementPhrase} {next : Nat} {ts : List Token}
    {ns : List Node} (h : DerivesStatement phrase next ts ns) : ∀ t ∈ ts, t.Proper := by
  induction h with
  | empty | none | noBranch => simp
  | assignment ha => exact ha.proper
  | writeln hk => exact List.forall_mem_singleton.2 (Token.proper_of_identifier hk)
  | write hk _ hl hn hf hr =>
    rw [List.forall_mem_append, List.forall_mem_singleton]
    simp only [List.forall_mem_append, List.forall_mem_cons]
    exact ⟨⟨⟨Token.proper_of_identifier hk, Token.proper_of_symbol hl,
      fun t ht => (hn.inner t ht).proper⟩, fun t ht => (hf.inner t ht).proper⟩,
      Token.proper_of_symbol hr⟩
  | compound hb _ he ih =>
    rw [List.forall_mem_append, List.forall_mem_singleton]
    exact ⟨List.forall_mem_cons.2 ⟨Token.proper_of_keyword hb, ih⟩, Token.proper_of_keyword he⟩
  | conditional hi hc hth _ ih =>
    simp only [List.forall_mem_append, List.forall_mem_cons]
    exact ⟨⟨Token.proper_of_keyword hi, hc.proper⟩, Token.proper_of_keyword hth, ih⟩
  | alternative hi hc hth _ hel _ ihs ihe =>
    simp only [List.forall_mem_append, List.forall_mem_cons]
    exact ⟨⟨⟨Token.proper_of_keyword hi, hc.proper⟩, Token.proper_of_keyword hth, ihs⟩,
      Token.proper_of_keyword hel, ihe⟩
  | whileLoop hw hc hd _ ih =>
    simp only [List.forall_mem_append, List.forall_mem_cons]
    exact ⟨⟨Token.proper_of_keyword hw, hc.proper⟩, Token.proper_of_keyword hd, ih⟩
  | loop hr _ hu hc ih =>
    simp only [List.forall_mem_append, List.forall_mem_cons]
    exact ⟨⟨Token.proper_of_keyword hr, ih⟩, Token.proper_of_keyword hu, hc.proper⟩
  | forLoop hf ha hto hl hdo _ ih =>
    simp only [List.forall_mem_append, List.forall_mem_cons]
    exact ⟨⟨⟨Token.proper_of_keyword hf, ha.proper⟩,
      hto.elim Token.proper_of_keyword Token.proper_of_keyword, hl.proper⟩,
      Token.proper_of_keyword hdo, ih⟩
  | select hk hc ho _ he ih =>
    rw [List.forall_mem_append, List.forall_mem_singleton]
    simp only [List.forall_mem_append, List.forall_mem_cons]
    exact ⟨⟨⟨Token.proper_of_keyword hk, hc.proper⟩, Token.proper_of_keyword ho, ih⟩,
      Token.proper_of_keyword he⟩
  | some _ ih => exact ih
  | one _ ih => exact ih
  | more _ hs _ ih ih' =>
    simp only [List.forall_mem_append, List.forall_mem_cons]
    exact ⟨ih, Token.proper_of_symbol hs, ih'⟩
  | branch hl hc _ ih =>
    rw [List.forall_mem_append]
    exact ⟨fun t ht => (hl.inner t ht).proper,
      List.forall_mem_cons.2 ⟨Token.proper_of_symbol hc, ih⟩⟩
  | noBranchMore hs _ ih => exact List.forall_mem_cons.2 ⟨Token.proper_of_symbol hs, ih⟩
  | oneBranch _ ih => exact ih
  | moreBranches _ hs _ ih ih' =>
    simp only [List.forall_mem_append, List.forall_mem_cons]
    exact ⟨ih, Token.proper_of_symbol hs, ih'⟩

/-- There is neither an error token nor the end of the text in a program. -/
theorem DerivesProgram.proper {ts : List Token} {tree : Node} (h : DerivesProgram ts tree) :
    ∀ t ∈ ts, t.Proper := by
  obtain @⟨p, name, s, b, e, ts, ending, ns, hp, hname, hs, hb, hd, he, hending⟩ := h
  have hlast : ∀ t ∈ ending, t.Proper := by
    cases hending with
    | period hs hp =>
      rw [List.forall_mem_append, List.forall_mem_singleton]
      exact ⟨fun t ht => Token.proper_of_symbol (hs t ht), Token.proper_of_symbol hp⟩
    | bare hs => exact fun t ht => Token.proper_of_symbol (hs t ht)
  simp only [List.forall_mem_append, List.forall_mem_cons]
  exact ⟨⟨Token.proper_of_keyword hp, Token.proper_of_identifier hname, Token.proper_of_symbol hs,
    Token.proper_of_keyword hb, hd.proper⟩, Token.proper_of_keyword he, hlast⟩

/-! ### The image of the reader -/

/-- A tree of the right shape is read in quiet from the tokens of one of its derivations. -/
theorem Shaped.exists_program {tree : Node} (h : Shaped .program tree)
    (hnearest : tree.ElseNearest) (hdeclared : Declared .empty tree.mentions) :
    ∃ tokens c, (∀ t ∈ tokens, t.kind ≠ .endOfFile) ∧
      Reading.program (.start (.ofTokens tokens) .empty) = .ok (tree.onLine 1) c ∧
      c.reports.size = 0 := by
  obtain ⟨ts, hd, hlast⟩ := h.derivable
  have hproper : ∀ t ∈ ts ++ [], t.Proper := by simpa using hd.proper
  have hm : (tree.onLine 1).mentions = tree.mentions := mentions_onLine 1 tree
  have hstarts : StartsProgram .empty ts [] (tree.onLine 1) :=
    ⟨hd, .inl hlast, fun t ht => (hproper t (by simpa using ht)).1,
      (declared_iff _ _).1 (hm ▸ hdeclared)⟩
  have hfeed : (Feed.ofTokens ts).rest = (ts ++ []).map .token := by simp [Feed.ofTokens]
  obtain ⟨c, hc, hreports⟩ := program_of_startsProgram hfeed (fun t ht => (hproper t ht).2) hstarts
    (hnearest.of_onLine_eq (onLine_onLine 1 1 tree))
  exact ⟨ts, c, fun t ht => (hd.proper t ht).2, hc, by rw [hreports]; rfl⟩

/-- **The trees that come out of the reader.** Up to its lines, a tree is read from some tokens
without any error, with nothing declared at first, if and only if every node has the shape of its
kind, every ELSE belongs to the nearest IF, and every name is declared before it is used. -/
theorem exists_tokens_iff (tree : Node) :
    (∃ tokens tree', (∀ t ∈ tokens, t.kind ≠ .endOfFile) ∧
      (parseFeed (.ofTokens tokens) .empty).tree = .ok tree' ∧
      (parseFeed (.ofTokens tokens) .empty).errorCount = .ok 0 ∧
      tree'.onLine 1 = tree.onLine 1) ↔
    Shaped .program tree ∧ tree.ElseNearest ∧
      ∀ before name after, tree.mentions = before ++ .uses name :: after →
        ∃ other, .declares other ∈ before ∧ SymbolTable.key other = SymbolTable.key name := by
  have hempty : Declared .empty tree.mentions ↔ ∀ before name after,
      tree.mentions = before ++ .uses name :: after →
        ∃ other, .declares other ∈ before ∧ SymbolTable.key other = SymbolTable.key name := by
    simp [declared_iff]
  rw [← hempty]
  constructor
  · rintro ⟨tokens, tree', hinner, htree, hcount, hlines⟩
    obtain ⟨tree'', c, h, hq⟩ := errorCount_eq_ok.1 hcount
    obtain rfl : tree'' = tree' := by simpa [parseFeed_of_ok h] using htree
    obtain ⟨pre, post, -, hstarts, -⟩ := startsProgram_of_program hinner h hq
    have hm : tree''.mentions = tree.mentions := by
      rw [← mentions_onLine 1 tree'', hlines, mentions_onLine]
    exact ⟨hstarts.derives.shaped.of_onLine_eq hlines.symm,
      (elseNearest_of_program (fun u hu => hinner u (by simpa [Feed.ofTokens] using hu)) h
        hq).of_onLine_eq hlines.symm,
      hm ▸ (declared_iff _ _).2 hstarts.declared⟩
  · rintro ⟨hshaped, hnearest, hdeclared⟩
    obtain ⟨tokens, c, hinner, h, hq⟩ := hshaped.exists_program hnearest hdeclared
    exact ⟨tokens, _, hinner, by rw [parseFeed_of_ok h], errorCount_eq_ok.2 ⟨_, c, h, hq⟩,
      onLine_onLine 1 1 tree⟩

end MiniPascal

import MiniPascal.Proofs.Grammar.Soundness.Expression
import MiniPascal.Proofs.Node.Part

/-!
# Which IF an ELSE belongs to

The grammar leaves one thing open. Where an IF without ELSE ends the statement behind THEN, an ELSE
that follows may belong to it or to the IF around it. A tree in which it always belongs to the
nearest IF that has none yet is one in which no statement between THEN and ELSE **ends open**.

Whatever derivation a list of tokens has, it has another one with such a tree: where a statement
between THEN and ELSE ends open, the ELSE is handed down to the IF that it ends with. The names in
the tree and their order are those of the tokens, and thus remain the same.

* `MiniPascal.Node.endsOpen`: an ELSE behind the statement would belong to it.
* `MiniPascal.Node.ElseNearest`: every ELSE belongs to the nearest IF.
* `MiniPascal.DerivesStatement.disambiguate`: there is always a derivation of such trees.
-/

namespace MiniPascal

/-! ### Trees -/

namespace Node

/-- Whether a statement ends with an IF that has no ELSE. -/
def endsOpen : Node → Bool
  | ⟨.conditional, _, _, _, _, _, [_, _]⟩ => true
  | ⟨.conditional, _, _, _, _, _, [_, _, e]⟩ => endsOpen e
  | ⟨.whileLoop, _, _, _, _, _, [_, s]⟩ => endsOpen s
  | ⟨.forLoop, _, _, _, _, _, [_, _, s]⟩ => endsOpen s
  | _ => false

/-- The statement between THEN and ELSE does not end open. -/
def ElseClosed (n : Node) : Prop :=
  n.kind = .conditional → ∀ c s e, n.children = [c, s, e] → s.endsOpen = false

/-- **Every ELSE belongs to the nearest IF** that has none yet. -/
def ElseNearest (n : Node) : Prop := n.Everywhere ElseClosed

theorem ElseNearest.child {n m : Node} (h : n.ElseNearest) (hm : m ∈ n.children) :
    m.ElseNearest := Everywhere.child h hm

theorem ElseNearest.closed {n : Node} (h : n.ElseNearest) : n.ElseClosed := Everywhere.self h

/-- Nodes other than IF carry no condition of their own. -/
theorem elseNearest_of_kind {n : Node} (hk : n.kind ≠ .conditional)
    (hc : ∀ m ∈ n.children, m.ElseNearest) : n.ElseNearest :=
  .intro (fun h => absurd h hk) hc

end Node

open Node

theorem DerivesConstant.elseNearest {ts : List Token} {n : Node} (h : DerivesConstant ts n) :
    n.ElseNearest := by
  have hkind : n.kind ≠ .conditional ∧ n.children = [] := by
    rcases h with ⟨hn | ⟨-, hn⟩⟩ | hn
    · obtain ⟨hk | hk, hc, -⟩ := Token.kind_of_numberNode? hn <;> simp [hk, hc]
    · obtain ⟨hk | hk, hc, -⟩ := Token.kind_of_numberNode? hn <;> simp [hk, hc]
    · obtain ⟨hk, hc, -⟩ := Token.kind_of_stringNode? hn
      simp [hk, hc]
  exact elseNearest_of_kind hkind.1 (by simp [hkind.2])

theorem Token.elseNearest_variableNode (t : Token) : t.variableNode.ElseNearest :=
  elseNearest_of_kind (by simp [Token.variableNode]) (by simp [Token.variableNode])

theorem Node.elseNearest_binary {kind : Node.Kind} (hk : kind.isBinary = true) (line : Int)
    {l r : Node} (hl : l.ElseNearest) (hr : r.ElseNearest) :
    Node.ElseNearest { kind, line, children := [l, r] } := by
  refine elseNearest_of_kind ?_ (by simpa using ⟨hl, hr⟩)
  rintro rfl
  cases hk

/-- There is no ELSE in an expression. -/
theorem DerivesExpression.elseNearest {phrase : ExpressionPhrase} {ts : List Token} {n : Node}
    (h : DerivesExpression phrase ts n) : n.ElseNearest := by
  induction h with
  | var => exact Token.elseNearest_variableNode _
  | constant h => exact h.elseNearest
  | not _ _ ih => exact elseNearest_of_kind (by simp) (by simpa using ih)
  | parens _ _ _ ih => exact ih
  | operand _ ih => exact ih
  | operator _ hop _ ihl ihr =>
    exact elseNearest_binary (Level.isBinary_of_operator? hop) _ ihl ihr
  | simple _ ih => exact ih
  | relation _ hop _ ihl ihr =>
    exact elseNearest_binary (Token.Kind.isBinary_of_relation? hop) _ ihl ihr

theorem DerivesAssignment.elseNearest {ts : List Token} {n : Node} (h : DerivesAssignment ts n) :
    n.ElseNearest := by
  obtain ⟨-, -, he⟩ := h
  refine elseNearest_of_kind (by simp) ?_
  simpa using ⟨Token.elseNearest_variableNode _, he.elseNearest⟩

theorem DerivesLabels.elseNearest {ts : List Token} {ns : List Node} (h : DerivesLabels ts ns) :
    ∀ n ∈ ns, n.ElseNearest := by
  induction h with
  | one hn => simpa using hn.elseNearest
  | more hn _ _ ih => simpa using ⟨hn.elseNearest, ih⟩

theorem DerivesSigned.elseNearest {ts : List Token} {n : Node}
    (h : DerivesSigned Token.integerNode? ts n) : n.ElseNearest := by
  have leaf {negative : Bool} {t : Token} (ht : t.integerNode? negative = some n) :
      n.ElseNearest := by
    obtain ⟨hk, hc, -⟩ := Token.kind_of_integerNode? ht
    exact elseNearest_of_kind (by simp [hk]) (by simp [hc])
  rcases h with ⟨ht⟩ | ⟨-, ht⟩ <;> exact leaf ht

theorem DerivesArgument.elseNearest {ts : List Token} {n : Node} (h : DerivesArgument ts n) :
    n.ElseNearest := by
  cases h with
  | var => exact Token.elseNearest_variableNode _
  | constant h => exact h.elseNearest

theorem DerivesFormat.elseNearest {ts : List Token} {ns : List Node} (h : DerivesFormat ts ns) :
    ∀ n ∈ ns, n.ElseNearest := by
  cases h with
  | none => simp
  | width _ hw => simpa using hw.elseNearest
  | places _ hw _ hp => simpa using ⟨hw.elseNearest, hp.elseNearest⟩

/-! ### Handing an ELSE down -/

/-- **An ELSE can be handed down.** Behind a statement that ends open, an ELSE with its statement
goes to the last IF. -/
theorem DerivesStatement.attach {next : Nat} {el : Token} {vs : List Token} {e : Node}
    (hel : el.kind = .keyword .elseKw) (hv : DerivesStatement .nested next vs [e])
    (he : e.ElseNearest) {phrase : StatementPhrase} {us : List Token} {s : Node}
    (h : DerivesStatement phrase el.line us [s])
    (hphrase : phrase = .statement ∨ phrase = .nested) (hs : s.ElseNearest)
    (hopen : s.endsOpen = true) :
    ∃ s', DerivesStatement phrase next (us ++ el :: vs) [s'] ∧ s'.ElseNearest ∧
      s'.mentions = s.mentions ++ e.mentions := by
  generalize hline : el.line = line at h
  generalize hns : [s] = ns at h
  -- the induction goes down to the IF that the statement ends with, which is the one without ELSE
  induction h generalizing s with
  | empty | one | more | branch | noBranch | noBranchMore | oneBranch | moreBranches =>
    simp at hphrase hns
  | assignment h =>
    cases hns
    obtain ⟨-, -, -⟩ := h
    simp [endsOpen] at hopen
  | writeln | compound | loop | select | none =>
    cases hns
    simp [endsOpen] at hopen
  | write _ hw =>
    cases hns
    rcases Token.writeKind?_cases hw with rfl | rfl <;> simp [endsOpen] at hopen
  | @conditional _ i th ts us c s₁ hi hc hth hd ih =>
    cases hns
    have hs₁ : s₁.ElseNearest := hs.child (by simp)
    have hcn : c.ElseNearest := hs.child (by simp)
    cases ho : s₁.endsOpen with
    | false =>
      -- there is no other IF without ELSE behind THEN, so that this one takes the ELSE
      refine ⟨_, .alternative hi hc hth (hline ▸ hd) hel hv, .intro ?_ ?_, ?_⟩
      · rintro - c' s' e' ⟨⟩
        exact ho
      · simpa using ⟨hcn, hs₁, he⟩
      · simp [Node.mentions_operator]
    | true =>
      obtain ⟨s', hd', hs', hm⟩ := ih (.inr rfl) hs₁ ho hline rfl
      refine ⟨{ kind := .conditional, line := i.line, children := [c, s'] }, ?_, .intro ?_ ?_, ?_⟩
      · simpa using DerivesStatement.conditional hi hc hth hd'
      · rintro - c' s' e' ⟨⟩
      · simpa using ⟨hcn, hs'⟩
      · simp [Node.mentions_operator, hm]
  | @alternative _ i th el' ts us vs' c s₁ e₁ hi hc hth hd hel' hd' _ ih =>
    cases hns
    have hcn : c.ElseNearest := hs.child (by simp)
    have hs₁ : s₁.ElseNearest := hs.child (by simp)
    have he₁ : e₁.ElseNearest := hs.child (by simp)
    obtain ⟨e', hd'', he', hm⟩ := ih (.inr rfl) he₁ (by simpa [endsOpen] using hopen) hline rfl
    refine ⟨{ kind := .conditional, line := i.line, children := [c, s₁, e'] }, ?_, .intro ?_ ?_, ?_⟩
    · simpa using DerivesStatement.alternative hi hc hth hd hel' hd''
    · rintro - c' s' e'' ⟨⟩
      exact hs.closed rfl _ _ _ rfl
    · simpa using ⟨hcn, hs₁, he'⟩
    · simp [Node.mentions_operator, hm]
  | @whileLoop _ w d ts us c s₁ hw hc hdo hd ih =>
    cases hns
    have hcn : c.ElseNearest := hs.child (by simp)
    have hs₁ : s₁.ElseNearest := hs.child (by simp)
    obtain ⟨s', hd', hs', hm⟩ := ih (.inr rfl) hs₁ (by simpa [endsOpen] using hopen) hline rfl
    refine ⟨{ kind := .whileLoop, line := w.line, children := [c, s'] }, ?_,
      elseNearest_of_kind (by simp) (by simpa using ⟨hcn, hs'⟩), ?_⟩
    · simpa using DerivesStatement.whileLoop hw hc hdo hd'
    · simp [Node.mentions_operator, hm]
  | @forLoop _ f way d ts us vs' a l s₁ hf ha hto hl hdo hd ih =>
    cases hns
    have han : a.ElseNearest := hs.child (by simp)
    have hln : l.ElseNearest := hs.child (by simp)
    have hs₁ : s₁.ElseNearest := hs.child (by simp)
    obtain ⟨s', hd', hs', hm⟩ := ih (.inr rfl) hs₁ (by simpa [endsOpen] using hopen) hline rfl
    refine ⟨_, by simpa using DerivesStatement.forLoop hf ha hto hl hdo hd',
      elseNearest_of_kind (by simp) (by simpa using ⟨han, hln, hs'⟩), ?_⟩
    simp [Node.mentions_operator, hm]
  | some hd ih =>
    cases hns
    obtain ⟨s', hd', hs', hm⟩ := ih (.inl rfl) hs hopen hline rfl
    exact ⟨s', .some hd', hs', hm⟩

/-- The same tokens have a derivation of trees in which every ELSE belongs to the nearest IF. The
names in the trees are the same. -/
def Disambiguates (phrase : StatementPhrase) (next : Nat) (ts : List Token) (ns : List Node) :
    Prop :=
  ∃ ns', DerivesStatement phrase next ts ns' ∧ (∀ n ∈ ns', n.ElseNearest) ∧
    Node.mentionsAll ns' = Node.mentionsAll ns ∧ ns'.length = ns.length

theorem Disambiguates.single {phrase : StatementPhrase} {next : Nat} {ts : List Token} {n : Node}
    (h : Disambiguates phrase next ts [n]) :
    ∃ n', DerivesStatement phrase next ts [n'] ∧ n'.ElseNearest ∧ n'.mentions = n.mentions := by
  obtain ⟨ns', hd, hn, hm, hl⟩ := h
  obtain ⟨n', rfl⟩ := List.length_eq_one_iff.1 hl
  exact ⟨n', hd, hn n' (by simp), by simpa using hm⟩

theorem Disambiguates.of_single {phrase : StatementPhrase} {next : Nat} {ts : List Token}
    {n n' : Node} (hd : DerivesStatement phrase next ts [n']) (hn : n'.ElseNearest)
    (hm : n'.mentions = n.mentions) : Disambiguates phrase next ts [n] :=
  ⟨[n'], hd, by simpa using hn, by simpa using hm, rfl⟩

/-- A derivation of a tree that is unambiguous already. -/
theorem Disambiguates.refl {phrase : StatementPhrase} {next : Nat} {ts : List Token}
    {ns : List Node} (hd : DerivesStatement phrase next ts ns) (hn : ∀ n ∈ ns, n.ElseNearest) :
    Disambiguates phrase next ts ns := ⟨ns, hd, hn, rfl, rfl⟩

/-- **Every derivation can be made unambiguous**: an ELSE that does not belong to the nearest IF is
handed down to it. -/
theorem DerivesStatement.disambiguate {phrase : StatementPhrase} {next : Nat} {ts : List Token}
    {ns : List Node} (h : DerivesStatement phrase next ts ns) :
    Disambiguates phrase next ts ns := by
  induction h with
  | empty => exact .refl .empty (by simp)
  | assignment ha hw => exact .refl (.assignment ha hw) (by simpa using ha.elseNearest)
  | writeln hk hw =>
    exact .refl (.writeln hk hw) (by simpa using elseNearest_of_kind (by simp) (by simp))
  | write hk hw hl hn hf hr =>
    refine .refl (.write hk hw hl hn hf hr) ?_
    have hkind := Token.writeKind?_cases hw
    simpa using elseNearest_of_kind (by rcases hkind with rfl | rfl <;> simp)
      (by simpa using ⟨hn.elseNearest, hf.elseNearest⟩)
  | compound hb _ he ih =>
    obtain ⟨ns', hd, hn, hm, -⟩ := ih
    refine .of_single (.compound hb hd he) (elseNearest_of_kind (by simp) hn) ?_
    simpa [Node.mentions_operator] using hm
  | conditional hi hc hth _ ih =>
    obtain ⟨s', hd, hs, hm⟩ := ih.single
    refine .of_single (.conditional hi hc hth hd) (.intro ?_ ?_) ?_
    · rintro - c s e ⟨⟩
    · simpa using ⟨hc.elseNearest, hs⟩
    · simp [Node.mentions_operator, hm]
  | @alternative _ i th el ts us vs c s e hi hc hth _ hel _ ihs ihe =>
    obtain ⟨s', hds, hs, hms⟩ := ihs.single
    obtain ⟨e', hde, he, hme⟩ := ihe.single
    cases hopen : s'.endsOpen with
    | false =>
      refine .of_single (.alternative hi hc hth hds hel hde) (.intro ?_ ?_) ?_
      · rintro - c s e ⟨⟩
        exact hopen
      · simpa using ⟨hc.elseNearest, hs, he⟩
      · simp [Node.mentions_operator, hms, hme]
    | true =>
      -- the ELSE leaves this IF and goes to the one that the statement behind THEN ends with
      obtain ⟨s'', hd, hs'', hm⟩ := attach hel hde he hds (.inr rfl) hs hopen
      have hd' := DerivesStatement.conditional hi hc hth hd
      rw [← List.cons_append, ← List.append_assoc] at hd'
      refine .of_single hd' (.intro ?_ ?_) ?_
      · rintro - c s e ⟨⟩
      · simpa using ⟨hc.elseNearest, hs''⟩
      · simp [Node.mentions_operator, hm, hms, hme]
  | whileLoop hw hc hdo _ ih =>
    obtain ⟨s', hd, hs, hm⟩ := ih.single
    refine .of_single (.whileLoop hw hc hdo hd)
      (elseNearest_of_kind (by simp) (by simpa using ⟨hc.elseNearest, hs⟩)) ?_
    simp [Node.mentions_operator, hm]
  | loop hr _ hu hc ih =>
    obtain ⟨ns', hd, hn, hm, -⟩ := ih
    refine .of_single (.loop hr hd hu hc) (elseNearest_of_kind (by simp) fun m hmem => ?_) ?_
    · rcases List.mem_append.1 hmem with hmem | hmem
      · exact hn m hmem
      · obtain rfl := List.mem_singleton.1 hmem
        exact elseNearest_of_kind (by simp) (by simpa using hc.elseNearest)
    · simp [Node.mentions_operator, hm]
  | forLoop hf ha hto hl hdo _ ih =>
    obtain ⟨s', hd, hs, hm⟩ := ih.single
    refine .of_single (.forLoop hf ha hto hl hdo hd) (elseNearest_of_kind (by simp)
      (by simpa using ⟨ha.elseNearest, hl.elseNearest, hs⟩)) ?_
    simp [Node.mentions_operator, hm]
  | select hk hc ho _ he ih =>
    obtain ⟨ns', hd, hn, hm, -⟩ := ih
    refine .of_single (.select hk hc ho hd he)
      (elseNearest_of_kind (by simp) (by simpa using ⟨hc.elseNearest, hn⟩)) ?_
    simp [Node.mentions_operator, hm]
  | some _ ih =>
    obtain ⟨n', hd, hn, hm⟩ := ih.single
    exact .of_single (.some hd) hn hm
  | none => exact .refl .none (by simpa using elseNearest_of_kind (by simp) (by simp))
  | one _ ih =>
    obtain ⟨ns', hd, hn, hm, hl⟩ := ih
    exact ⟨ns', .one hd, hn, hm, hl⟩
  | more _ hs _ ih ih' =>
    obtain ⟨ns', hd, hn, hm, hl⟩ := ih
    obtain ⟨ms', hd', hn', hm', hl'⟩ := ih'
    refine ⟨ns' ++ ms', .more hd hs hd', fun n hmem => ?_, by simp [hm, hm'], by simp [hl, hl']⟩
    exact (List.mem_append.1 hmem).elim (hn n) (hn' n)
  | branch hl hc _ ih =>
    obtain ⟨s', hd, hs, hm⟩ := ih.single
    refine .of_single (.branch hl hc hd) (elseNearest_of_kind (by simp) ?_) ?_
    · simpa using ⟨elseNearest_of_kind (by simp) hl.elseNearest, hs⟩
    · simp [Node.mentions_operator, hm]
  | noBranch => exact .refl .noBranch (by simp)
  | noBranchMore hs _ ih =>
    obtain ⟨ns', hd, hn, hm, hl⟩ := ih
    exact ⟨ns', .noBranchMore hs hd, hn, hm, hl⟩
  | oneBranch _ ih =>
    obtain ⟨ns', hd, hn, hm, hl⟩ := ih
    exact ⟨ns', .oneBranch hd, hn, hm, hl⟩
  | moreBranches _ hs _ ih ih' =>
    obtain ⟨ns', hd, hn, hm, hl⟩ := ih
    obtain ⟨ms', hd', hn', hm', hl'⟩ := ih'
    refine ⟨ns' ++ ms', .moreBranches hd hs hd', fun n hmem => ?_, by simp [hm, hm'],
      by simp [hl, hl']⟩
    exact (List.mem_append.1 hmem).elim (hn n) (hn' n)

end MiniPascal

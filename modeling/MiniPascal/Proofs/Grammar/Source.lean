import MiniPascal.Proofs.Grammar.Image

/-!
# Trees of program texts

A text is cut into lexemes, each of which knows the line on which it starts. Lines count from one,
and no lexeme of a text is the end of the text. The nodes of a derivation start on lines of its
tokens, or on that of the token behind it if a nested statement is left out. In the tree of a text
that is read without any error, every node thus is on a line of the text, and every variable is
bound to a name of the symbol table.

* `MiniPascal.DerivesProgram.onLines`: the nodes of a derivation start on lines of its tokens.
* `MiniPascal.exists_tree_of_errorCount`: what is known of the tree of a text without errors.
-/

namespace MiniPascal

open Node

/-! ### The lines of derivations -/

/-- All nodes of the tree start on lines as asked for. -/
def Node.OnLines (p : Nat → Prop) (n : Node) : Prop :=
  n.Everywhere fun m => ∃ line : Nat, m.line = line ∧ p line

section Lines

variable {p : Nat → Prop} {ts : List Token} {n : Node} {ns : List Node}

theorem Node.onLines_intro {kind : Node.Kind} {line : Nat} {text value : Datum}
    {slot : Option Text} {descending : Bool} (hline : p line) (hns : ∀ m ∈ ns, m.OnLines p) :
    OnLines p ⟨kind, line, text, value, slot, descending, ns⟩ :=
  .intro ⟨line, rfl, hline⟩ hns

theorem Token.onLines_variableNode {t : Token} (h : p t.line) : t.variableNode.OnLines p :=
  onLines_intro h (by simp)

theorem Token.onLines_integerNode? {negative : Bool} {t : Token}
    (h : t.integerNode? negative = some n) (ht : p t.line) : n.OnLines p := by
  unfold integerNode? at h
  split at h <;> cases h
  exact onLines_intro ht (by simp)

theorem Token.onLines_numberNode? {negative : Bool} {t : Token}
    (h : t.numberNode? negative = some n) (ht : p t.line) : n.OnLines p := by
  unfold numberNode? at h
  split at h
  · cases h
    exact onLines_intro ht (by simp)
  · exact onLines_integerNode? h ht

theorem DerivesSigned.onLines {node? : Bool → Token → Option Node}
    (hnode : ∀ {negative t}, node? negative t = some n → p t.line → n.OnLines p)
    (h : DerivesSigned node? ts n) (ht : ∀ t ∈ ts, p t.line) : n.OnLines p := by
  rcases h with ⟨h⟩ | ⟨-, h⟩
  · exact hnode h (ht _ (by simp))
  · exact hnode h (ht _ (by simp))

theorem DerivesConstant.onLines (h : DerivesConstant ts n) (ht : ∀ t ∈ ts, p t.line) :
    n.OnLines p := by
  cases h with
  | number h => exact h.onLines Token.onLines_numberNode? ht
  | string h =>
    unfold Token.stringNode? at h
    dsimp only at h
    split at h <;> cases h <;> exact onLines_intro (ht _ (by simp)) (by simp)

theorem DerivesExpression.onLines {phrase : ExpressionPhrase} (h : DerivesExpression phrase ts n)
    (ht : ∀ t ∈ ts, p t.line) : n.OnLines p := by
  induction h with
  | var => exact Token.onLines_variableNode (ht _ (by simp))
  | constant h => exact h.onLines ht
  | not _ _ ih =>
    rw [List.forall_mem_cons] at ht
    exact onLines_intro ht.1 (List.forall_mem_singleton.2 (ih ht.2))
  | parens _ _ _ ih => exact ih fun t hmem => ht t (by simp [hmem])
  | operand _ ih => exact ih ht
  | operator _ _ _ ihl ihr =>
    rw [List.forall_mem_append, List.forall_mem_cons] at ht
    exact onLines_intro ht.2.1 (by simpa using ⟨ihl ht.1, ihr ht.2.2⟩)
  | simple _ ih => exact ih ht
  | relation _ _ _ ihl ihr =>
    rw [List.forall_mem_append, List.forall_mem_cons] at ht
    exact onLines_intro ht.2.1 (by simpa using ⟨ihl ht.1, ihr ht.2.2⟩)

theorem DerivesAssignment.onLines (h : DerivesAssignment ts n) (ht : ∀ t ∈ ts, p t.line) :
    n.OnLines p := by
  obtain ⟨-, -, he⟩ := h
  simp only [List.forall_mem_cons] at ht
  exact onLines_intro ht.1
    (by simpa using ⟨Token.onLines_variableNode ht.1, he.onLines ht.2.2⟩)

theorem DerivesLabels.onLines (h : DerivesLabels ts ns) (ht : ∀ t ∈ ts, p t.line) :
    ∀ n ∈ ns, n.OnLines p := by
  induction h with
  | one hn => exact List.forall_mem_singleton.2 (hn.onLines ht)
  | more hn _ _ ih =>
    rw [List.forall_mem_append, List.forall_mem_cons] at ht
    exact List.forall_mem_cons.2 ⟨hn.onLines ht.1, ih ht.2.2⟩

theorem DerivesArgument.onLines (h : DerivesArgument ts n) (ht : ∀ t ∈ ts, p t.line) :
    n.OnLines p := by
  cases h with
  | var => exact Token.onLines_variableNode (ht _ (by simp))
  | constant h => exact h.onLines ht

theorem DerivesFormat.onLines (h : DerivesFormat ts ns) (ht : ∀ t ∈ ts, p t.line) :
    ∀ n ∈ ns, n.OnLines p := by
  cases h with
  | none => simp
  | width _ hw =>
    rw [List.forall_mem_cons] at ht
    exact List.forall_mem_singleton.2 (hw.onLines Token.onLines_integerNode? ht.2)
  | places _ hw _ hp =>
    simp only [List.forall_mem_append, List.forall_mem_cons] at ht
    simpa using ⟨hw.onLines Token.onLines_integerNode? ht.1.2,
      hp.onLines Token.onLines_integerNode? ht.2.2⟩

theorem DerivesStatement.onLines {phrase : StatementPhrase} {next : Nat}
    (h : DerivesStatement phrase next ts ns) (ht : ∀ t ∈ ts, p t.line) (hnext : p next) :
    ∀ n ∈ ns, n.OnLines p := by
  -- the statement that is left out is on the line of the next token, which is behind the phrase
  induction h with
  | empty | noBranch => simp
  | assignment ha => exact List.forall_mem_singleton.2 (ha.onLines ht)
  | writeln => exact List.forall_mem_singleton.2 (onLines_intro (ht _ (by simp)) (by simp))
  | write _ _ _ hn hf =>
    rw [List.forall_mem_append] at ht
    simp only [List.forall_mem_append, List.forall_mem_cons] at ht
    obtain ⟨⟨⟨hline, -, hts⟩, hus⟩, -⟩ := ht
    exact List.forall_mem_singleton.2
      (onLines_intro hline (List.forall_mem_cons.2 ⟨hn.onLines hts, hf.onLines hus⟩))
  | compound _ _ _ ih =>
    rw [List.forall_mem_append, List.forall_mem_cons, List.forall_mem_singleton] at ht
    obtain ⟨⟨hline, hts⟩, he⟩ := ht
    exact List.forall_mem_singleton.2 (onLines_intro hline (ih hts he))
  | conditional _ hc _ _ ih =>
    simp only [List.forall_mem_append, List.forall_mem_cons] at ht
    obtain ⟨⟨hline, hts⟩, -, hus⟩ := ht
    exact List.forall_mem_singleton.2
      (onLines_intro hline (List.forall_mem_cons.2 ⟨hc.onLines hts, ih hus hnext⟩))
  | alternative _ hc _ _ _ _ ihs ihe =>
    simp only [List.forall_mem_append, List.forall_mem_cons] at ht
    obtain ⟨⟨⟨hline, hts⟩, -, hus⟩, hel, hvs⟩ := ht
    exact List.forall_mem_singleton.2 (onLines_intro hline
      (List.forall_mem_cons.2 ⟨hc.onLines hts,
        List.forall_mem_cons.2 ⟨List.forall_mem_singleton.1 (ihs hus hel), ihe hvs hnext⟩⟩))
  | whileLoop _ hc _ _ ih =>
    simp only [List.forall_mem_append, List.forall_mem_cons] at ht
    obtain ⟨⟨hline, hts⟩, -, hus⟩ := ht
    exact List.forall_mem_singleton.2
      (onLines_intro hline (List.forall_mem_cons.2 ⟨hc.onLines hts, ih hus hnext⟩))
  | loop _ _ _ hc ih =>
    simp only [List.forall_mem_append, List.forall_mem_cons] at ht
    obtain ⟨⟨hline, hts⟩, hu, hus⟩ := ht
    refine List.forall_mem_singleton.2 (onLines_intro hline (List.forall_mem_append.2 ⟨ih hts hu, ?_⟩))
    exact List.forall_mem_singleton.2
      (onLines_intro hu (List.forall_mem_singleton.2 (hc.onLines hus)))
  | forLoop _ ha _ hl _ _ ih =>
    simp only [List.forall_mem_append, List.forall_mem_cons] at ht
    obtain ⟨⟨⟨hline, hts⟩, -, hus⟩, -, hvs⟩ := ht
    exact List.forall_mem_singleton.2 (onLines_intro hline
      (List.forall_mem_cons.2 ⟨ha.onLines hts,
        List.forall_mem_cons.2 ⟨hl.onLines hus, ih hvs hnext⟩⟩))
  | select _ hc _ _ _ ih =>
    rw [List.forall_mem_append, List.forall_mem_singleton] at ht
    simp only [List.forall_mem_append, List.forall_mem_cons] at ht
    obtain ⟨⟨⟨hline, hts⟩, -, hus⟩, he⟩ := ht
    exact List.forall_mem_singleton.2
      (onLines_intro hline (List.forall_mem_cons.2 ⟨hc.onLines hts, ih hus he⟩))
  | some _ ih => exact ih ht hnext
  | none => exact List.forall_mem_singleton.2 (onLines_intro hnext (by simp))
  | one _ ih => exact ih ht hnext
  | more _ _ _ ih ih' =>
    rw [List.forall_mem_append, List.forall_mem_cons] at ht
    obtain ⟨hts, hs, hus⟩ := ht
    exact List.forall_mem_append.2 ⟨ih hts hs, ih' hus hnext⟩
  | branch hl _ _ ih =>
    rw [List.forall_mem_append] at ht
    obtain ⟨hts, hus⟩ := ht
    -- a branch and its list of labels start at the first label
    have hline := hts _ List.mem_cons_self
    exact List.forall_mem_singleton.2 (onLines_intro hline (List.forall_mem_cons.2
      ⟨onLines_intro hline (hl.onLines hts), ih (List.forall_mem_cons.1 hus).2 hnext⟩))
  | noBranchMore _ _ ih => exact ih (List.forall_mem_cons.1 ht).2 hnext
  | oneBranch _ ih => exact ih ht hnext
  | moreBranches _ _ _ ih ih' =>
    rw [List.forall_mem_append, List.forall_mem_cons] at ht
    obtain ⟨hts, hs, hus⟩ := ht
    exact List.forall_mem_append.2 ⟨ih hts hs, ih' hus hnext⟩

/-- **The nodes of a program start on lines of its tokens.** -/
theorem DerivesProgram.onLines (h : DerivesProgram ts n) (ht : ∀ t ∈ ts, p t.line) :
    n.OnLines p := by
  obtain ⟨-, -, -, -, hd, -, -⟩ := h
  simp only [List.forall_mem_append, List.forall_mem_cons] at ht
  obtain ⟨⟨hline, -, -, hb, hts⟩, he, -⟩ := ht
  exact onLines_intro hline (List.forall_mem_singleton.2 (onLines_intro hb (hd.onLines hts he)))

end Lines

/-! ### The tree of a text without errors -/

theorem SymbolTable.contains_enterAll_of_contains {table : SymbolTable} {name : Text}
    {ms : List Mention} (h : table.contains name = true) :
    (table.enterAll ms).contains name = true := by
  induction ms generalizing table with
  | nil => exact h
  | cons m ms ih =>
    cases m with
    | declares other => exact ih (by rw [contains_enter, h, Bool.true_or])
    | uses other => exact ih h

/-- Behind a text in which every name is declared before it is used, all its names are in the
table. -/
theorem contains_of_declared {table : SymbolTable} {ms : List Mention} {name : Text}
    (h : Declared table ms) (hm : .declares name ∈ ms ∨ .uses name ∈ ms) :
    (table.enterAll ms).contains name = true := by
  induction ms generalizing table with
  | nil => simp at hm
  | cons m ms ih =>
    cases m with
    | declares other =>
      by_cases hname : name = other
      · subst hname
        have hentered : (table.enter name).contains name = true := by
          simp [SymbolTable.contains_enter]
        rw [SymbolTable.enterAll]
        exact SymbolTable.contains_enterAll_of_contains hentered
      · exact ih h (by simpa [hname] using hm)
    | uses other =>
      obtain ⟨hother, htail⟩ := h
      by_cases hname : name = other
      · subst hname
        exact SymbolTable.contains_enterAll_of_contains hother
      · exact ih htail (by simpa [hname] using hm)

/-- **What is known of the tree of a text without errors**: it has the shape of a program, and it is
anchored in the text and in the symbol table behind it. -/
theorem exists_tree_of_errorCount {source : Text} {table : SymbolTable}
    (h : (parse source table #[]).errorCount = .ok 0) :
    ∃ tree, (parse source table #[]).tree = .ok tree ∧ Shaped .program tree ∧
      tree.Anchored (parse source table #[]).table.names ∧
      (parse source table #[]).table = table.enterAll tree.mentions := by
  obtain ⟨tree, c, hprogram, hq⟩ := errorCount_eq_ok.1 h
  obtain ⟨ts, haccepts⟩ :=
    Reading.sound_program (fun t ht => (token_of_mem_lexemes ht).2.1) hprogram hq
  have hparse := parseFeed_of_ok hprogram
  have hshaped := haccepts.derives.shaped
  have hmem : ∀ t ∈ ts, .token t ∈ lexemes source := fun t ht => by
    have hrest : lexemes source = ts.map .token ++ c.ahead := haccepts.rest
    simp [hrest, ht]
  have hlines : tree.OnLines (1 ≤ ·) :=
    haccepts.derives.onLines fun t ht => (token_of_mem_lexemes (hmem t ht)).1
  refine ⟨tree, by rw [parse, hparse], hshaped, ⟨fun n hn => ?_, fun n key hn hslot => ?_⟩, ?_⟩
  · obtain ⟨line, hline, hone⟩ := hlines.of_hasNode hn
    omega
  · obtain ⟨name, rfl, hname⟩ := hshaped.exists_name hn hslot
    rw [← SymbolTable.contains_iff, parse, hparse, haccepts.table]
    exact contains_of_declared haccepts.declared hname
  · rw [parse, hparse]
    exact haccepts.table

end MiniPascal

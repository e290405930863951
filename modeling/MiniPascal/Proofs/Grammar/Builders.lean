import MiniPascal.Proofs.Grammar.Building

/-!
# What the readers of the grammar build

Every reader of the grammar builds the trees of its result, in the sense of
`MiniPascal.Reading.Builds`. Each of its paths puts together what was built on the way, in order,
also those that stop in front of an error or pass over what they cannot read.

Three actions meet names. A variable that is used is looked up and, if it is not there, complained
about. An assignment enters its target and a program its name, both before what follows is read.
Until the right-hand side of an assignment is built, one that has nothing but its target stands for
it.

* `MiniPascal.Reading.builds_variableUse`, `MiniPascal.Reading.builds_assignment`,
  `MiniPascal.Reading.meets_programName`: the actions that meet names.
* `MiniPascal.Reading.builds_expression`, `MiniPascal.Reading.builds_statement`,
  `MiniPascal.Reading.meets_program`: the phrases.
-/

namespace MiniPascal

open Node

/-! ### Constants -/

/-- A constant is built and says nothing about a name. -/
structure Node.IsConstant (n : Node) : Prop where
  built : Built n
  occurrences : n.occurrences = []

theorem Token.isConstant_of_integerNode? {negative : Bool} {t : Token} {n : Node}
    (h : t.integerNode? negative = some n) : n.IsConstant := by
  unfold integerNode? at h
  split at h
  · cases h
    exact ⟨.integer .., rfl⟩
  · cases h

theorem Token.isConstant_of_numberNode? {negative : Bool} {t : Token} {n : Node}
    (ht : t.kind ≠ .real .nan) (h : t.numberNode? negative = some n) : n.IsConstant := by
  unfold numberNode? at h
  split at h
  · rename_i x hx
    cases h
    refine ⟨.real _ _ ?_, rfl⟩
    -- a number behind a minus sign is none the less a number
    cases x with
    | nan => exact absurd hx ht
    | _ => cases negative <;> simp [Binary64.neg]
  · exact isConstant_of_integerNode? h

theorem Token.isConstant_of_stringNode? {t : Token} {n : Node} (h : t.stringNode? = some n) :
    n.IsConstant := by
  unfold stringNode? at h
  split at h <;> cases h <;> exact ⟨.string .., rfl⟩

namespace Reading

open Cursor

variable {α β : Type} {c : Cursor} {inner operand factor : Reading (Option Node)}

/-! ### Leaves -/

theorem builds_none : Builds [] (pure none) Option.toList := builds_return rfl

theorem builds_reject {w : Complaint} (hw : w ≠ .undeclared) :
    Builds [] (do reject w; return none) Option.toList :=
  (silent_reject hw).builds_bind fun _ => builds_none

theorem builds_constant {n : Node} (h : n.IsConstant) :
    Builds [] (do advance; return some n) Option.toList :=
  silent_advance.builds_bind fun _ =>
    builds_pure (by simp [h.occurrences]) fun _ => by simp [h.built]

/-- The complaint about a variable that is not there. -/
theorem meets_undeclared (hn : c.Numeric) (h : c.table.contains c.current.text ≠ true) {u : Unit}
    {c' : Cursor} (hc : complain .undeclared c = .ok u c') :
    c.Meets [.refers c.current.line c.current.text none] c' := by
  cases hc
  exact ⟨rfl, ⟨(if_neg h).symm, trivial⟩, ⟨[_], Array.toList_push, rfl⟩, ⟨hn.inHand, hn.inFront⟩⟩

/-- **A variable that is used** is bound if its name is there, and complained about if not. -/
theorem builds_variableUse : Builds [] variableUse fun n => [n] := by
  refine fun c => .current_bind ?_
  by_cases h : c.table.contains c.current.text = true
  · refine .of_meets [{ kind := .var, line := c.current.line, text := .text c.current.text,
                        slot := some (SymbolTable.key c.current.text) }]
      ((get_bind _).trans (congrFun (if_pos h) c)) (fun hn => meets_bound hn h _)
      (List.forall_mem_singleton.2 (.var _ _ fun key hkey => (Option.some.inj hkey).symm)) ?_
    exact silent_advance.builds_bind fun _ => builds_return rfl
  · obtain ⟨c₁, hc⟩ : ∃ c₁, complain .undeclared c = .ok () c₁ := ⟨_, rfl⟩
    refine .of_meets [{ kind := .var, line := c.current.line, text := .text c.current.text }]
      ((get_bind _).trans ((congrFun (if_neg h) c).trans (bind_of_ok hc)))
      (fun hn => meets_undeclared hn h hc)
      (List.forall_mem_singleton.2 (.var _ _ nofun)) ?_
    exact silent_advance.builds_bind fun _ => builds_return rfl

theorem builds_constantBehind {node? : Bool → Token → Option Node} {w : Complaint} {negative : Bool}
    (hnode : ∀ {t n}, t.kind ≠ .real .nan → node? negative t = some n → n.IsConstant)
    (hw : w ≠ .undeclared) : Builds [] (constantBehind node? w negative) Option.toList := by
  refine fun c => .of_numeric fun hn => .current_bind ?_
  split
  · rename_i h
    exact builds_constant (hnode hn.inHand h) c
  · exact builds_reject hw c

theorem builds_signedConstant {node? : Bool → Token → Option Node} {w : Complaint}
    (hnode : ∀ {negative t n}, t.kind ≠ .real .nan → node? negative t = some n → n.IsConstant)
    (hw : w ≠ .undeclared) : Builds [] (signedConstant node? w) Option.toList := by
  refine silent_kind.builds_bind fun _ => ?_
  dsimp only
  split
  · exact silent_advance.builds_bind fun _ => builds_constantBehind hnode hw
  · exact builds_constantBehind hnode hw

theorem builds_signedNumber {w : Complaint} (hw : w ≠ .undeclared) :
    Builds [] (signedNumber w) Option.toList :=
  builds_signedConstant Token.isConstant_of_numberNode? hw

theorem builds_signedInteger {w : Complaint} (hw : w ≠ .undeclared) :
    Builds [] (signedInteger w) Option.toList :=
  builds_signedConstant (fun _ => Token.isConstant_of_integerNode?) hw

/-! ### Expressions -/

theorem isBare_of_multiplicative? {k : Token.Kind} {kind : Node.Kind}
    (h : k.multiplicative? = some kind) : kind.isBare = true := by
  unfold Token.Kind.multiplicative? at h
  split at h <;> cases h <;> rfl

theorem isBare_of_additive? {k : Token.Kind} {kind : Node.Kind} (h : k.additive? = some kind) :
    kind.isBare = true := by
  unfold Token.Kind.additive? at h
  split at h <;> cases h <;> rfl

theorem isBare_of_relation? {k : Token.Kind} {kind : Node.Kind} (h : k.relation? = some kind) :
    kind.isBare = true := by
  unfold Token.Kind.relation? at h
  split at h <;> cases h <;> rfl

/-- **A chain** puts an operator over what is built already, and goes on from that. -/
theorem builds_chain {operator? : Token.Kind → Option Node.Kind}
    (hop : ∀ k kind, operator? k = some kind → kind.isBare = true)
    (ho : Builds [] operand Option.toList) :
    ∀ k left, Builds left.toList (chain operator? operand k left) Option.toList
  | 0, _ => builds_throw
  | k + 1, left => by
    refine silent_current.builds_bind fun t => ?_
    split
    · exact builds_return rfl
    · rename_i hkind
      exact silent_advance.builds_bind fun _ => ho.bind fun right =>
        .bare (builds_chain hop ho k (some _)) (hop _ _ hkind)

theorem builds_termOf (hf : Builds [] factor Option.toList) :
    Builds [] (termOf factor) Option.toList :=
  hf.bind fun left => silent_budget.builds_bind fun k =>
    builds_chain (fun _ _ => isBare_of_multiplicative?) hf k left

theorem builds_simpleOf (hf : Builds [] factor Option.toList) :
    Builds [] (simpleOf factor) Option.toList :=
  (builds_termOf hf).bind fun left => silent_budget.builds_bind fun k =>
    builds_chain (fun _ _ => isBare_of_additive?) (builds_termOf hf) k left

theorem builds_expressionOf (hf : Builds [] factor Option.toList) :
    Builds [] (expressionOf factor) Option.toList := by
  refine (builds_simpleOf hf).bind fun left => silent_current.builds_bind fun t => ?_
  split
  · exact builds_return rfl
  · rename_i hkind
    exact silent_advance.builds_bind fun _ => (builds_simpleOf hf).bind fun right =>
      builds_node rfl (isBare_of_relation? hkind)

theorem builds_factorOf (hi : Builds [] inner Option.toList) :
    Builds [] (factorOf inner) Option.toList := by
  refine silent_current.builds_bind fun t => ?_
  split
  · exact silent_advance.builds_bind fun _ => hi.bind fun operand => builds_node rfl rfl
  · exact builds_variableUse.map
  · exact builds_signedNumber (by decide)
  · exact builds_signedNumber (by decide)
  · exact builds_signedNumber (by decide)
  · exact silent_advance.builds_bind fun _ => (builds_expressionOf hi).bind fun node =>
      (silent_expect _ (by decide)).builds_bind fun _ => builds_return rfl
  · split
    · rename_i h
      exact builds_constant (Token.isConstant_of_stringNode? h)
    · exact builds_reject (by decide)

theorem builds_factor : ∀ k, Builds [] (Reading.factor k) Option.toList
  | 0 => builds_throw
  | k + 1 => builds_factorOf (builds_factor k)

theorem builds_expression : Builds [] expression Option.toList :=
  silent_budget.builds_bind fun k => builds_expressionOf (builds_factor k)

/-! ### Lists of statements -/

theorem builds_nested (hi : Builds [] inner Option.toList) :
    Builds [] (nested inner) fun n => [n] := by
  refine silent_current.builds_bind fun t => hi.bind fun node => ?_
  cases node with
  | some node => exact builds_return rfl
  | none => exact builds_node rfl rfl

theorem silent_separator (terminal : Token.Kind) (start : Cursor) :
    Silent (separator terminal start) := by
  refine silent_get.bind fun now => ?_
  dsimp only
  split
  · exact silent_budget.bind silent_skipSemicolons
  · split
    · exact silent_complain (by decide)
    · split
      · split
        · exact (silent_complain (by decide)).bind fun _ => silent_advance
        · exact silent_advance
      · exact silent_pure _

theorem builds_statementRound (hi : Builds [] inner Option.toList) (terminal : Token.Kind) :
    Builds [] (statementRound inner terminal) Option.toList :=
  silent_get.builds_bind fun start => hi.bind fun _ =>
    (silent_separator terminal start).builds_bind fun _ => builds_return rfl

theorem builds_statements (hi : Builds [] inner Option.toList) (terminal : Token.Kind) :
    ∀ k, Builds [] (statements inner terminal k) id
  | 0 => builds_throw
  | k + 1 => by
    refine silent_kind.builds_bind fun _ => ?_
    split
    · exact builds_return rfl
    · exact (builds_statementRound hi terminal).bind fun _ =>
        (builds_statements hi terminal k).bind fun _ => builds_return rfl

theorem builds_compoundOf (hi : Builds [] inner Option.toList) :
    Builds [] (compoundOf inner) fun n => [n] :=
  silent_current.builds_bind fun _ => silent_advance.builds_bind fun _ =>
    silent_budget.builds_bind fun k => (builds_statements hi _ k).bind fun _ =>
      (silent_expect _ (by decide)).builds_bind fun _ => builds_node rfl rfl

/-! ### Assignments -/

theorem builds_rightSide : Builds [] rightSide Option.toList := by
  refine (silent_expect _ (by decide)).builds_bind fun _ => ?_
  split
  · exact builds_expression
  · exact builds_none

/-- **An assignment** enters its target before its right-hand side is read. -/
theorem builds_assignment : Builds [] assignment fun n => [n] := by
  refine fun c => .current_bind ?_
  -- what is entered stands for itself and for the target, which is bound to it
  have hmeets (hn : c.Numeric) := (meets_enter hn c.current.text).trans <|
    meets_bound (meets_enter hn c.current.text).numeric
      (show (c.table.enter c.current.text).contains c.current.text = true by
        simp [SymbolTable.contains_enter]) c.current.line
  refine .of_meets [{ kind := .assign, line := c.current.line, children := [_] }] (modify_bind ..)
    (fun hn => ?_) (List.forall_mem_singleton.2 (.assign _ c.current.line c.current.text nofun)) ?_
  · simpa [occurrences_assign] using hmeets hn
  · refine silent_advance.builds_bind fun _ => builds_rightSide.bind fun value => ?_
    exact builds_pure (by simp [occurrences_assign]) fun h => by simp_all [Built.assign]

/-! ### Choices and loops -/

theorem builds_alternative (hi : Builds [] inner Option.toList) :
    Builds [] (alternative inner) id := by
  refine silent_kind.builds_bind fun _ => ?_
  split
  · exact silent_advance.builds_bind fun _ => (builds_nested hi).bind fun _ => builds_return rfl
  · exact builds_return rfl

theorem builds_thenPart (hi : Builds [] inner Option.toList) : Builds [] (thenPart inner) id := by
  refine silent_kind.builds_bind fun _ => ?_
  split
  · exact silent_advance.builds_bind fun _ => (builds_nested hi).bind fun _ =>
      (builds_alternative hi).bind fun _ => builds_return rfl
  · exact builds_return rfl

theorem builds_consequences (hi : Builds [] inner Option.toList) :
    Builds [] (consequences inner) id := by
  refine silent_kind.builds_bind fun _ => ?_
  dsimp only
  split
  · exact (silent_reject (by decide)).builds_bind fun _ => builds_thenPart hi
  · exact builds_thenPart hi

theorem builds_conditionalOf (hi : Builds [] inner Option.toList) :
    Builds [] (conditionalOf inner) fun n => [n] :=
  silent_current.builds_bind fun _ => silent_advance.builds_bind fun _ =>
    builds_expression.bind fun _ => (builds_consequences hi).bind fun _ => builds_node rfl rfl

theorem builds_body (hi : Builds [] inner Option.toList) : Builds [] (body inner) id := by
  refine silent_kind.builds_bind fun _ => ?_
  split
  · exact silent_advance.builds_bind fun _ => (builds_nested hi).bind fun _ => builds_return rfl
  · exact builds_return rfl

theorem builds_whileOf (hi : Builds [] inner Option.toList) :
    Builds [] (whileOf inner) fun n => [n] := by
  refine silent_current.builds_bind fun _ => silent_advance.builds_bind fun _ =>
    builds_expression.bind fun _ => silent_kind.builds_bind fun _ => ?_
  dsimp only
  split
  · exact (silent_reject (by decide)).builds_bind fun _ => (builds_body hi).bind fun _ =>
      builds_node rfl rfl
  · exact (builds_body hi).bind fun _ => builds_node rfl rfl

theorem builds_untilTest : Builds [] untilTest id := by
  refine silent_current.builds_bind fun _ => (silent_expect _ (by decide)).builds_bind fun _ => ?_
  split
  · exact builds_expression.bind fun _ => builds_node rfl rfl
  · exact builds_return rfl

theorem builds_repeatOf (hi : Builds [] inner Option.toList) :
    Builds [] (repeatOf inner) fun n => [n] :=
  silent_current.builds_bind fun _ => silent_advance.builds_bind fun _ =>
    silent_budget.builds_bind fun k => (builds_statements hi _ k).bind fun _ =>
      builds_untilTest.bind fun _ => builds_node rfl rfl

theorem builds_controlAssignment : Builds [] controlAssignment id := by
  refine silent_kind.builds_bind fun _ => ?_
  split
  · exact builds_assignment.bind fun _ => builds_return rfl
  · exact (silent_reject (by decide)).builds_bind fun _ => builds_return rfl

theorem builds_limit (reports : Nat) : Builds [] (limit reports) id := by
  refine silent_kind.builds_bind fun _ => ?_
  split
  · exact silent_advance.builds_bind fun _ => builds_expression.bind fun _ => builds_return rfl
  · exact silent_advance.builds_bind fun _ => builds_expression.bind fun _ => builds_return rfl
  · refine silent_reportCount.builds_bind fun _ => ?_
    dsimp only
    split
    · exact (silent_reject (by decide)).builds_bind fun _ => builds_return rfl
    · exact builds_return rfl

theorem builds_forOf (hi : Builds [] inner Option.toList) :
    Builds [] (forOf inner) fun n => [n] := by
  refine silent_current.builds_bind fun _ => silent_advance.builds_bind fun _ =>
    silent_reportCount.builds_bind fun reports => builds_controlAssignment.bind fun _ =>
      silent_kind.builds_bind fun _ => (builds_limit reports).bind fun _ =>
        silent_kind.builds_bind fun _ => silent_reportCount.builds_bind fun _ => ?_
  dsimp only
  split
  · exact (silent_reject (by decide)).builds_bind fun _ => (builds_body hi).bind fun _ =>
      builds_node rfl rfl
  · exact (builds_body hi).bind fun _ => builds_node rfl rfl

/-! ### CASE statements -/

theorem builds_label : Builds [] label Option.toList := by
  refine silent_current.builds_bind fun _ => ?_
  split
  · rename_i h
    exact builds_constant (Token.isConstant_of_stringNode? h)
  · exact builds_signedNumber (by decide)

theorem builds_moreLabels : ∀ k, Builds [] (moreLabels k) id
  | 0 => builds_throw
  | k + 1 => by
    refine silent_kind.builds_bind fun _ => ?_
    split
    · have hround : Builds [] labelRound Option.toList :=
        silent_advance.builds_bind fun _ => builds_label
      exact hround.bind fun _ => (builds_moreLabels k).bind fun _ => builds_return rfl
    · exact builds_return rfl

theorem builds_labels : Builds [] labels fun n => [n] :=
  silent_current.builds_bind fun _ => builds_label.bind fun _ =>
    silent_budget.builds_bind fun k => (builds_moreLabels k).bind fun _ => builds_node rfl rfl

theorem builds_branchStatement (hi : Builds [] inner Option.toList) (reports : Nat) :
    Builds [] (branchStatement inner reports) id := by
  refine silent_kind.builds_bind fun _ => ?_
  split
  · exact silent_advance.builds_bind fun _ => (builds_nested hi).bind fun _ => builds_return rfl
  · refine silent_reportCount.builds_bind fun _ => ?_
    dsimp only
    split
    · exact (silent_reject (by decide)).builds_bind fun _ => builds_return rfl
    · exact builds_return rfl

theorem silent_branchSeparator (start : Cursor) : Silent (branchSeparator start) := by
  refine silent_get.bind fun now => ?_
  have pass (b : Bool) : Silent (if b then advance else pure ()) := by
    split
    · exact silent_advance
    · exact silent_pure _
  dsimp only
  split
  · exact silent_budget.bind silent_skipSemicolons
  · split
    · exact silent_pure _
    · split
      · exact (silent_complain (by decide)).bind fun _ => pass _
      · exact pass _

theorem builds_branchRound (hi : Builds [] inner Option.toList) :
    Builds [] (branchRound inner) id := by
  refine silent_get.builds_bind fun start => ?_
  split
  · exact silent_advance.builds_bind fun _ => builds_return rfl
  · exact builds_labels.bind fun _ => (builds_branchStatement hi _).bind fun _ =>
      (silent_branchSeparator start).builds_bind fun _ => builds_node rfl rfl

theorem builds_branches (hi : Builds [] inner Option.toList) :
    ∀ k, Builds [] (branches inner k) id
  | 0 => builds_throw
  | k + 1 => by
    refine silent_kind.builds_bind fun _ => ?_
    split
    · exact builds_return rfl
    · exact (builds_branchRound hi).bind fun _ => (builds_branches hi k).bind fun _ =>
        builds_return rfl

theorem builds_ofPart (hi : Builds [] inner Option.toList) : Builds [] (ofPart inner) id := by
  refine silent_kind.builds_bind fun _ => ?_
  split
  · exact silent_advance.builds_bind fun _ => silent_budget.builds_bind fun k =>
      (builds_branches hi k).bind fun _ => (silent_expect _ (by decide)).builds_bind fun _ =>
        builds_return rfl
  · exact builds_return rfl

theorem builds_branchesPart (hi : Builds [] inner Option.toList) :
    Builds [] (branchesPart inner) id := by
  refine silent_kind.builds_bind fun _ => ?_
  dsimp only
  split
  · exact (silent_reject (by decide)).builds_bind fun _ => builds_ofPart hi
  · exact builds_ofPart hi

theorem builds_selectOf (hi : Builds [] inner Option.toList) :
    Builds [] (selectOf inner) fun n => [n] :=
  silent_current.builds_bind fun _ => silent_advance.builds_bind fun _ =>
    builds_expression.bind fun _ => (builds_branchesPart hi).bind fun _ => builds_node rfl rfl

/-! ### WRITE statements -/

theorem builds_writeArgument : Builds [] writeArgument Option.toList := by
  refine silent_current.builds_bind fun _ => ?_
  split
  · exact builds_variableUse.map
  · exact builds_signedNumber (by decide)
  · exact builds_signedNumber (by decide)
  · exact builds_signedNumber (by decide)
  · split
    · rename_i h
      exact builds_constant (Token.isConstant_of_stringNode? h)
    · exact builds_reject (by decide)

theorem builds_formatPart {w : Complaint} (hw : w ≠ .undeclared) :
    Builds [] (formatPart w) fun part => part.join.toList := by
  refine silent_kind.builds_bind fun _ => ?_
  split
  · exact silent_advance.builds_bind fun _ => (builds_signedInteger hw).bind fun _ =>
      builds_return rfl
  · exact builds_return rfl

theorem builds_writeFormat : Builds [] writeFormat Prod.fst := by
  refine (builds_formatPart (by decide)).bind fun _ => ?_
  split
  · exact builds_return rfl
  · exact builds_return rfl
  · refine (builds_formatPart (by decide)).bind fun _ => ?_
    split <;> exact builds_return rfl

theorem builds_writeArguments : Builds [] writeArguments id := by
  refine (silent_expect _ (by decide)).builds_bind fun _ => ?_
  split
  · refine builds_writeArgument.bind fun _ => ?_
    split
    · exact builds_return rfl
    · refine builds_writeFormat.bind fun _ => ?_
      dsimp only
      split
      · exact (silent_expect _ (by decide)).builds_bind fun _ => builds_return rfl
      · exact builds_return rfl
  · exact builds_return rfl

theorem builds_writeStatement {kind : Node.Kind} (hk : kind.isBare = true) :
    Builds [] (writeStatement kind) fun n => [n] := by
  refine silent_current.builds_bind fun _ => silent_advance.builds_bind fun _ =>
    silent_kind.builds_bind fun _ => ?_
  split
  · exact builds_node rfl hk
  · exact builds_writeArguments.bind fun _ => builds_node rfl hk

/-! ### All statements -/

theorem builds_identifierStatement (name : Text) :
    Builds [] (identifierStatement name) fun n => [n] := by
  unfold identifierStatement
  split
  · exact builds_writeStatement rfl
  · split
    · exact builds_writeStatement rfl
    · exact builds_assignment

theorem builds_statementOf (hi : Builds [] inner Option.toList) :
    Builds [] (statementOf inner) Option.toList := by
  refine silent_current.builds_bind fun _ => ?_
  split
  · exact (builds_identifierStatement _).map
  · exact (builds_compoundOf hi).map
  · exact (builds_repeatOf hi).map
  · exact (builds_conditionalOf hi).map
  · exact (builds_whileOf hi).map
  · exact (builds_forOf hi).map
  · exact (builds_selectOf hi).map
  · split
    · exact builds_none
    · exact builds_reject (by decide)

theorem builds_statement : ∀ k, Builds [] (statement k) Option.toList
  | 0 => builds_throw
  | k + 1 => builds_statementOf (builds_statement k)

/-! ### Programs -/

/-- **The name of a program** is entered before its statements are read. -/
theorem meets_programName {name : Option Text} {c' : Cursor} (h : programName c = .ok name c')
    (hn : c.Numeric) : c.Meets (name.toList.map .declares) c' := by
  rw [programName, current_bind] at h
  split at h
  · rw [modify_bind] at h
    obtain ⟨_, c₁, hadvance, hpure⟩ := bind_eq_ok.1 h
    obtain ⟨rfl, rfl⟩ := pure_eq_ok.1 hpure
    have hmeets := meets_enter hn c.current.text
    exact hmeets.trans (silent_advance hadvance hmeets.numeric)
  · obtain ⟨_, c₁, hreject, hpure⟩ := bind_eq_ok.1 h
    obtain ⟨rfl, rfl⟩ := pure_eq_ok.1 hpure
    exact silent_reject (by decide) hreject hn

theorem builds_programBody : Builds [] programBody id := by
  refine silent_kind.builds_bind fun _ => ?_
  split
  · exact silent_budget.builds_bind fun k =>
      (builds_compoundOf (builds_statement k)).bind fun _ => builds_return rfl
  · exact (silent_reject (by decide)).builds_bind fun _ => builds_return rfl

theorem silent_programEnd : Silent programEnd := by
  refine silent_kind.bind fun _ => (silent_budget.bind silent_skipSemicolons).bind fun _ => ?_
  refine silent_kind.bind fun _ => ?_
  split
  · exact silent_advance
  · split
    · exact silent_reject (by decide)
    · exact silent_pure _

/-- **Reading a program builds its tree.** -/
theorem meets_program {tree : Node} {c' : Cursor} (h : program c = .ok tree c') (hn : c.Numeric) :
    BuiltProgram tree ∧ c.Meets tree.occurrences c' := by
  rw [program] at h
  obtain ⟨_, c₁, hadvance, h⟩ := bind_eq_ok.1 h
  rw [current_bind] at h
  obtain ⟨_, c₂, hkeyword, h⟩ := bind_eq_ok.1 h
  obtain ⟨name, c₃, hname, h⟩ := bind_eq_ok.1 h
  obtain ⟨_, c₄, hsemicolon, h⟩ := bind_eq_ok.1 h
  obtain ⟨children, c₅, hbody, h⟩ := bind_eq_ok.1 h
  obtain ⟨_, c₆, hend, h⟩ := bind_eq_ok.1 h
  obtain ⟨_, c₇, hlog, h⟩ := bind_eq_ok.1 h
  obtain ⟨rfl, rfl⟩ := pure_eq_ok.1 h
  -- nothing is met but the name and what is in the statements
  have h₁ := silent_advance hadvance hn
  have h₂ := h₁.trans (silent_expect _ (by decide) hkeyword h₁.numeric)
  have h₃ := h₂.trans (meets_programName hname h₂.numeric)
  have h₄ := h₃.trans (silent_expect _ (by decide) hsemicolon h₃.numeric)
  obtain ⟨hbuilt, os, hos, hmeets⟩ := builds_programBody c₄ hbody h₄.numeric nofun
  have h₅ := h₄.trans hmeets
  have h₆ := h₅.trans (silent_programEnd hend h₅.numeric)
  have h₇ := h₆.trans (silent_logProgram name hlog h₆.numeric)
  refine ⟨.intro _ name hbuilt, ?_⟩
  rw [List.flatMap_nil, List.nil_append] at hos
  simpa only [occurrences_program, id_eq, ← hos, List.nil_append, List.append_nil] using h₇

end Reading

end MiniPascal

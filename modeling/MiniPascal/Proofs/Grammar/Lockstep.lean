import MiniPascal.Grammar.Program
import MiniPascal.Proofs.Alike

/-!
# Reading two alike texts

A reader looks at nothing but the kinds of tokens, their values, how many of them are left, how many
errors were reported, and the keys of names. Lines and spellings it only passes on. So two texts whose
tokens are alike are read in step: at every point the cursors are alike, and both readings go on in
the same way.

The readers of the grammar are put together from a few actions, and so is the proof. One action is
**in step** with another (`MiniPascal.Reading.InStep`) if they lead from alike cursors to alike
cursors and related results; every part of the grammar that is made from actions in step is in step
with its counterpart.

* `MiniPascal.Cursor.Alike`: cursors that are alike.
* `MiniPascal.Reading.InStep.bind`: actions in step, one after the other.
* `MiniPascal.parseFeed_alike`: reading alike feeds.
-/

namespace MiniPascal

/-- **Cursors that are alike**: all but the log goes together. -/
structure Cursor.Alike (A : Likeness) (c c' : Cursor) : Prop where
  rest : List.Forall₂ (Lexeme.Alike A) c.rest c'.rest
  lastLine : A.line c.lastLine c'.lastLine
  reports : List.Forall₂ (Report.Alike A) c.reports.toList c'.reports.toList
  current : c.current.Alike A c'.current
  table : c.table = c'.table

namespace Cursor.Alike

variable {A : Likeness} {c c' : Cursor}

theorem kind_eq (h : c.Alike A c') : c.current.kind = c'.current.kind := h.current.kind

theorem length_eq (h : c.Alike A c') : c.rest.length = c'.rest.length := h.rest.length_eq

theorem size_eq (h : c.Alike A c') : c.reports.size = c'.reports.size := by
  simpa using h.reports.length_eq

end Cursor.Alike

namespace Reading

variable {A : Likeness} {α β γ δ : Type}

/-! ### Actions in step -/

/-- Outcomes that agree: related results with alike cursors, or the same halt. -/
inductive Agree (A : Likeness) (R : α → β → Prop) :
    EStateM.Result Halt Cursor α → EStateM.Result Halt Cursor β → Prop
  | ok {a : α} {b : β} {c c' : Cursor} : R a b → c.Alike A c' → Agree A R (.ok a c) (.ok b c')
  | error {halt : Halt} {c c' : Cursor} : c.Alike A c' →
    Agree A R (.error halt c) (.error halt c')

/-- **Two actions are in step** if they lead from alike cursors to outcomes that agree. -/
def InStep (A : Likeness) (R : α → β → Prop) (act : Reading α) (act' : Reading β) : Prop :=
  ∀ ⦃c c' : Cursor⦄, c.Alike A c' → Agree A R (act c) (act' c')

section Rules

variable {R : α → β → Prop} {S : γ → δ → Prop} {act : Reading α} {act' : Reading β}
  {next : α → Reading γ} {next' : β → Reading δ}

theorem inStep_pure {a : α} {b : β} (h : R a b) : InStep A R (pure a) (pure b) :=
  fun _ _ hc => .ok h hc

/-- **Actions in step, one after the other**, are in step. -/
theorem InStep.bind (h : InStep A R act act')
    (h' : ∀ a b, R a b → InStep A S (next a) (next' b)) :
    InStep A S (act >>= next) (act' >>= next') := by
  intro c c' hc
  have hact := h hc
  simp only [Bind.bind, EStateM.bind]
  generalize act c = result, act' c' = result' at hact ⊢
  cases hact with
  | ok hab hc₁ => exact h' _ _ hab hc₁
  | error hc₁ => exact .error hc₁

/-- Both actions give the same result. -/
theorem InStep.bind_eq {act act' : Reading α} {next : α → Reading γ} {next' : α → Reading δ}
    (h : InStep A Eq act act') (h' : ∀ a, InStep A S (next a) (next' a)) :
    InStep A S (act >>= next) (act' >>= next') := by
  refine h.bind ?_
  rintro a _ rfl
  exact h' a

theorem InStep.map {f : α → γ} {g : β → δ} (h : InStep A R act act')
    (hfg : ∀ a b, R a b → S (f a) (g b)) : InStep A S (f <$> act) (g <$> act') := by
  rw [map_eq_pure_bind, map_eq_pure_bind]
  exact h.bind fun a b hab => inStep_pure (hfg a b hab)

theorem InStep.ite {act₁ act₂ : Reading α} {act₁' act₂' : Reading β} {p : Prop} [Decidable p]
    (h₁ : InStep A R act₁ act₁') (h₂ : InStep A R act₂ act₂') :
    InStep A R (if p then act₁ else act₂) (if p then act₁' else act₂') := by
  split
  · exact h₁
  · exact h₂

theorem inStep_exhausted : InStep A R (throw .exhausted) (throw .exhausted) :=
  fun _ _ hc => .error hc

theorem inStep_get : InStep A (Cursor.Alike A) (get : Reading Cursor) (get : Reading Cursor) :=
  fun _ _ hc => .ok hc hc

theorem inStep_current : InStep A (Token.Alike A) current current := fun _ _ hc => .ok hc.current hc

theorem inStep_kind : InStep A Eq kind kind := fun _ _ hc => .ok hc.kind_eq hc

theorem inStep_reportCount : InStep A Eq reportCount reportCount := fun _ _ hc => .ok hc.size_eq hc

theorem inStep_budget : InStep A Eq budget budget :=
  fun _ _ hc => .ok (congrArg (· + 2) hc.length_eq) hc

/-- Alike names are entered alike. -/
theorem inStep_enter {name name' : Text} (h : A.text name name') :
    InStep A Eq (modify fun c => { c with table := c.table.enter name } : Reading Unit)
      (modify fun c => { c with table := c.table.enter name' }) := by
  intro c c' hc
  refine .ok rfl ⟨hc.rest, hc.lastLine, hc.reports, hc.current, ?_⟩
  simp only [SymbolTable.enter, A.key_eq h, hc.table]

end Rules

/-! ### Single steps -/

theorem inStep_advance : InStep A Eq advance advance := by
  intro c c' hc
  unfold advance Feed.next
  have hrest := hc.rest
  cases hr : c.rest with
  | nil =>
    rw [hr, List.forall₂_nil_left_iff] at hrest
    rw [hrest]
    exact .ok rfl ⟨by rw [hr, hrest]; exact .nil, hc.lastLine, hc.reports,
      ⟨rfl, hc.lastLine, A.text_refl _⟩, hc.table⟩
  | cons l rest =>
    rw [hr, List.forall₂_cons_left_iff] at hrest
    obtain ⟨l', rest', hl, hrest', hr'⟩ := hrest
    rw [hr']
    cases hl with
    | overlong => exact .error ⟨hrest', hc.lastLine, hc.reports, hc.current, hc.table⟩
    | token ht =>
      refine .ok rfl ⟨hrest', ht.line, ?_, ht, hc.table⟩
      simpa [Feed.note] using List.rel_append hc.reports ht.reports

theorem inStep_complain (w : Complaint) : InStep A Eq (complain w) (complain w) := by
  intro c c' hc
  have hreport : Report.Alike A ⟨w.reportKind, c.current.line, w.message, c.current.text⟩
      ⟨w.reportKind, c'.current.line, w.message, c'.current.text⟩ :=
    ⟨rfl, hc.current.line, rfl, hc.current.text⟩
  refine .ok rfl ⟨hc.rest, hc.lastLine, ?_, hc.current, hc.table⟩
  simpa using List.rel_append hc.reports (.cons hreport .nil)

theorem inStep_skip : ∀ k, InStep A Eq (skip k) (skip k)
  | 0 => inStep_exhausted
  | k + 1 => inStep_kind.bind_eq fun _ =>
    .ite (inStep_pure rfl) (inStep_advance.bind_eq fun _ => inStep_skip k)

theorem inStep_reject (w : Complaint) : InStep A Eq (reject w) (reject w) :=
  (inStep_complain w).bind_eq fun _ => inStep_budget.bind_eq fun k => inStep_skip k

theorem inStep_expect (expected : Token.Kind) (w : Complaint) :
    InStep A Eq (expect expected w) (expect expected w) :=
  inStep_kind.bind_eq fun _ =>
    .ite (inStep_advance.bind_eq fun _ => inStep_pure rfl)
      ((inStep_reject w).bind_eq fun _ => inStep_pure rfl)

theorem inStep_skipSemicolons : ∀ k, InStep A Eq (skipSemicolons k) (skipSemicolons k)
  | 0 => inStep_exhausted
  | k + 1 => inStep_kind.bind_eq fun _ =>
    .ite (inStep_advance.bind_eq fun _ => inStep_skipSemicolons k) (inStep_pure rfl)

/-! ### Leaves -/

/-- A reader of nodes that may be missing is in step with itself. -/
abbrev Steps (A : Likeness) (act : Reading (Option Node)) : Prop :=
  InStep A (Option.Rel (Node.Alike A)) act act

/-- A reader of lists of nodes is in step with itself. -/
abbrev StepsAll (A : Likeness) (act : Reading (List Node)) : Prop :=
  InStep A (List.Forall₂ (Node.Alike A)) act act

/-- A reader of nodes is in step with itself. -/
abbrev StepsNode (A : Likeness) (act : Reading Node) : Prop := InStep A (Node.Alike A) act act

/-- A node of its own, without children. -/
theorem alike_leaf {kind : Node.Kind} {t t' : Token} {text text' value : Datum}
    {slot slot' : Option Text} (h : t.Alike A t') (ht : text.Alike A text') (hs : slot = slot') :
    Node.Alike A { kind, line := t.line, text, value, slot }
      { kind, line := t'.line, text := text', value, slot := slot' } :=
  .intro rfl h.line ht rfl hs rfl .nil

/-- A node with alike children. -/
theorem alike_bare {kind : Node.Kind} {t t' : Token} {descending : Bool} {ns ns' : List Node}
    (h : t.Alike A t') (hns : List.Forall₂ (Node.Alike A) ns ns') :
    Node.Alike A { kind, line := t.line, descending, children := ns }
      { kind, line := t'.line, descending, children := ns' } :=
  .intro rfl h.line .null rfl rfl rfl hns

theorem alike_stringNode? {t t' : Token} (h : t.Alike A t') :
    Option.Rel (Node.Alike A) t.stringNode? t'.stringNode? := by
  obtain ⟨kind, line, text⟩ := t
  obtain ⟨kind', line', text'⟩ := t'
  obtain ⟨rfl, hline, htext⟩ := h
  cases kind with
  | character c => exact .some (.intro rfl hline (.text htext) rfl rfl rfl .nil)
  | string s => exact .some (.intro rfl hline (.text htext) rfl rfl rfl .nil)
  | _ => exact .none

/-- The text of a number behind its sign. -/
theorem alike_signed {negative : Bool} {s s' : Text} (h : A.text s s') :
    A.text (if negative then "-" ++ s else s) (if negative then "-" ++ s' else s') := by
  cases negative with
  | true => exact A.text_minus h
  | false => exact h

theorem alike_integerNode? {negative : Bool} {t t' : Token} (h : t.Alike A t') :
    Option.Rel (Node.Alike A) (t.integerNode? negative) (t'.integerNode? negative) := by
  obtain ⟨kind, line, text⟩ := t
  obtain ⟨kind', line', text'⟩ := t'
  obtain ⟨rfl, hline, htext⟩ := h
  cases kind with
  | integer n => exact .some (.intro rfl hline (.text (alike_signed htext)) rfl rfl rfl .nil)
  | _ => exact .none

theorem alike_numberNode? {negative : Bool} {t t' : Token} (h : t.Alike A t') :
    Option.Rel (Node.Alike A) (t.numberNode? negative) (t'.numberNode? negative) := by
  obtain ⟨kind, line, text⟩ := t
  obtain ⟨kind', line', text'⟩ := t'
  obtain ⟨rfl, hline, htext⟩ := h
  cases kind with
  | integer n => exact .some (.intro rfl hline (.text (alike_signed htext)) rfl rfl rfl .nil)
  | real x => exact .some (.intro rfl hline (.text (alike_signed htext)) rfl rfl rfl .nil)
  | _ => exact .none

theorem steps_variableUse : StepsNode A variableUse := by
  refine inStep_current.bind fun t t' ht => inStep_get.bind fun c c' hc => ?_
  have hcontains : c.table.contains t.text = c'.table.contains t'.text := by
    simp only [SymbolTable.contains, A.key_eq ht.text, hc.table]
  rw [hcontains]
  refine .ite (inStep_advance.bind_eq fun _ => inStep_pure ?_)
    ((inStep_complain _).bind_eq fun _ => inStep_advance.bind_eq fun _ => inStep_pure ?_)
  · exact alike_leaf ht (.text ht.text) (by rw [A.key_eq ht.text])
  · exact alike_leaf ht (.text ht.text) rfl

/-- A node that the current token makes, if it makes one. -/
theorem inStep_ofNode? {n n' : Option Node} {other : Reading (Option Node)} :
    Option.Rel (Node.Alike A) n n' → Steps A other → InStep A (Option.Rel (Node.Alike A))
      (match n with
        | some node => do
          advance
          return some node
        | none => other)
      (match n' with
        | some node => do
          advance
          return some node
        | none => other) := by
  intro h ho
  cases h with
  | some h => exact inStep_advance.bind_eq fun _ => inStep_pure (.some h)
  | none => exact ho

theorem steps_reject (w : Complaint) : Steps A (do reject w; return none) :=
  (inStep_reject w).bind_eq fun _ => inStep_pure .none

theorem steps_signedConstant {node? : Bool → Token → Option Node} (w : Complaint)
    (hnode : ∀ {negative t t'}, Token.Alike A t t' →
      Option.Rel (Node.Alike A) (node? negative t) (node? negative t')) :
    Steps A (signedConstant node? w) := by
  have behind (negative : Bool) : Steps A (constantBehind node? w negative) :=
    inStep_current.bind fun t t' ht => inStep_ofNode? (hnode ht) (steps_reject w)
  refine inStep_kind.bind_eq fun k => ?_
  exact .ite (inStep_advance.bind_eq fun _ => behind _) (behind _)

theorem steps_signedNumber (w : Complaint) : Steps A (signedNumber w) :=
  steps_signedConstant w alike_numberNode?

theorem steps_signedInteger (w : Complaint) : Steps A (signedInteger w) :=
  steps_signedConstant w alike_integerNode?

/-! ### Expressions -/

section Expressions

variable {operand inner : Reading (Option Node)}

theorem inStep_chain (operator? : Token.Kind → Option Node.Kind) (ho : Steps A operand) :
    ∀ k {left left' : Option Node}, Option.Rel (Node.Alike A) left left' →
      InStep A (Option.Rel (Node.Alike A)) (chain operator? operand k left)
        (chain operator? operand k left')
  | 0, _, _, _ => inStep_exhausted
  | k + 1, left, left', hleft => by
    refine inStep_current.bind fun t t' ht => ?_
    rw [ht.kind]
    split
    · exact inStep_pure hleft
    · refine inStep_advance.bind_eq fun _ => ho.bind fun right right' hright => ?_
      exact inStep_chain operator? ho k
        (.some (alike_bare ht (List.rel_append (forall₂_toList hleft) (forall₂_toList hright))))

theorem steps_termOf (h : Steps A inner) : Steps A (termOf inner) :=
  h.bind fun _ _ hleft => inStep_budget.bind_eq fun k => inStep_chain _ h k hleft

theorem steps_simpleOf (h : Steps A inner) : Steps A (simpleOf inner) :=
  (steps_termOf h).bind fun _ _ hleft => inStep_budget.bind_eq fun k =>
    inStep_chain _ (steps_termOf h) k hleft

theorem steps_expressionOf (h : Steps A inner) : Steps A (expressionOf inner) := by
  refine (steps_simpleOf h).bind fun left left' hleft => inStep_current.bind fun t t' ht => ?_
  rw [ht.kind]
  split
  · exact inStep_pure hleft
  · refine inStep_advance.bind_eq fun _ => (steps_simpleOf h).bind fun right right' hright => ?_
    exact inStep_pure
      (.some (alike_bare ht (List.rel_append (forall₂_toList hleft) (forall₂_toList hright))))

theorem steps_factorOf (h : Steps A inner) : Steps A (factorOf inner) := by
  refine inStep_current.bind fun t t' ht => ?_
  have other := inStep_ofNode? (alike_stringNode? ht) (steps_reject .unexpectedToken)
  rw [ht.kind]
  cases t'.kind with
  | keyword word =>
    cases word with
    | notKw =>
      refine inStep_advance.bind_eq fun _ => h.bind fun operand operand' ho => inStep_pure ?_
      exact .some (alike_bare ht (forall₂_toList ho))
    | _ => exact other
  | symbol s =>
    cases s with
    | minus => exact steps_signedNumber _
    | leftParen =>
      exact inStep_advance.bind_eq fun _ => (steps_expressionOf h).bind fun node node' hnode =>
        (inStep_expect _ _).bind_eq fun _ => inStep_pure hnode
    | _ => exact other
  | identifier => exact steps_variableUse.map fun _ _ hn => .some hn
  | integer | real => exact steps_signedNumber _
  | character | string | endOfFile | error => exact other

theorem steps_factor : ∀ k, Steps A (factor k)
  | 0 => inStep_exhausted
  | k + 1 => steps_factorOf (steps_factor k)

theorem steps_expression : Steps A expression :=
  inStep_budget.bind_eq fun k => steps_expressionOf (steps_factor k)

end Expressions

/-! ### Lists of statements -/

section Statements

variable {inner : Reading (Option Node)}

theorem steps_nested (h : Steps A inner) : StepsNode A (nested inner) := by
  refine inStep_current.bind fun t t' ht => h.bind fun node node' hnode => ?_
  cases hnode with
  | some hn => exact inStep_pure hn
  | none => exact inStep_pure (alike_bare ht .nil)

theorem inStep_separator (terminal : Token.Kind) {start start' : Cursor}
    (h : start.Alike A start') :
    InStep A Eq (separator terminal start) (separator terminal start') := by
  refine inStep_get.bind fun now now' hnow => ?_
  dsimp only
  rw [hnow.kind_eq, hnow.length_eq, hnow.size_eq, h.length_eq, h.size_eq]
  refine .ite (inStep_budget.bind_eq fun k => inStep_skipSemicolons k) ?_
  refine .ite (inStep_complain _) (.ite ?_ (inStep_pure rfl))
  exact .ite ((inStep_complain _).bind_eq fun _ => inStep_advance) inStep_advance

theorem steps_statementRound (h : Steps A inner) (terminal : Token.Kind) :
    Steps A (statementRound inner terminal) :=
  inStep_get.bind fun _ _ hc => h.bind fun _ _ hnode =>
    (inStep_separator terminal hc).bind_eq fun _ => inStep_pure hnode

theorem steps_statements (h : Steps A inner) (terminal : Token.Kind) :
    ∀ k, StepsAll A (statements inner terminal k)
  | 0 => inStep_exhausted
  | k + 1 => by
    refine inStep_kind.bind_eq fun kind => .ite (inStep_pure .nil) ?_
    refine (steps_statementRound h terminal).bind fun node node' hnode => ?_
    exact (steps_statements h terminal k).bind fun rest rest' hrest =>
      inStep_pure (List.rel_append (forall₂_toList hnode) hrest)

theorem steps_compoundOf (h : Steps A inner) : StepsNode A (compoundOf inner) :=
  inStep_current.bind fun _ _ ht => inStep_advance.bind_eq fun _ => inStep_budget.bind_eq fun k =>
    (steps_statements h _ k).bind fun _ _ hns => (inStep_expect _ _).bind_eq fun _ =>
      inStep_pure (alike_bare ht hns)

/-! ### Assignments -/

theorem steps_rightSide : Steps A rightSide :=
  (inStep_expect _ _).bind_eq fun _ => .ite steps_expression (inStep_pure .none)

theorem steps_assignment : StepsNode A assignment := by
  refine inStep_current.bind fun t t' ht => (inStep_enter ht.text).bind_eq fun _ =>
    inStep_advance.bind_eq fun _ => steps_rightSide.bind fun value value' hvalue => inStep_pure ?_
  refine alike_bare ht (.cons ?_ (forall₂_toList hvalue))
  exact alike_leaf ht (.text ht.text) (congrArg some (A.key_eq ht.text))

/-! ### Choices and loops -/

theorem steps_alternative (h : Steps A inner) : StepsAll A (alternative inner) :=
  inStep_kind.bind_eq fun _ => .ite
    (inStep_advance.bind_eq fun _ => (steps_nested h).bind fun _ _ hn => inStep_pure (.cons hn .nil))
    (inStep_pure .nil)

theorem steps_thenPart (h : Steps A inner) : StepsAll A (thenPart inner) :=
  inStep_kind.bind_eq fun _ => .ite
    (inStep_advance.bind_eq fun _ => (steps_nested h).bind fun _ _ hn =>
      (steps_alternative h).bind fun _ _ hns => inStep_pure (.cons hn hns))
    (inStep_pure .nil)

theorem steps_consequences (h : Steps A inner) : StepsAll A (consequences inner) :=
  inStep_kind.bind_eq fun _ => .ite
    ((inStep_reject _).bind_eq fun _ => steps_thenPart h) (steps_thenPart h)

theorem steps_conditionalOf (h : Steps A inner) : StepsNode A (conditionalOf inner) :=
  inStep_current.bind fun _ _ ht => inStep_advance.bind_eq fun _ =>
    steps_expression.bind fun _ _ hc => (steps_consequences h).bind fun _ _ hns =>
      inStep_pure (alike_bare ht (List.rel_append (forall₂_toList hc) hns))

theorem steps_body (h : Steps A inner) : StepsAll A (body inner) :=
  inStep_kind.bind_eq fun _ => .ite
    (inStep_advance.bind_eq fun _ => (steps_nested h).bind fun _ _ hn => inStep_pure (.cons hn .nil))
    (inStep_pure .nil)

theorem steps_whileOf (h : Steps A inner) : StepsNode A (whileOf inner) := by
  refine inStep_current.bind fun t t' ht => inStep_advance.bind_eq fun _ =>
    steps_expression.bind fun condition condition' hc => inStep_kind.bind_eq fun k => ?_
  refine .ite ((inStep_reject _).bind_eq fun _ => ?_) ?_ <;>
    exact (steps_body h).bind fun _ _ hns =>
      inStep_pure (alike_bare ht (List.rel_append (forall₂_toList hc) hns))

theorem steps_untilTest : StepsAll A untilTest :=
  inStep_current.bind fun _ _ ht => (inStep_expect _ _).bind_eq fun _ => .ite
    (steps_expression.bind fun _ _ hc =>
      inStep_pure (.cons (alike_bare ht (forall₂_toList hc)) .nil))
    (inStep_pure .nil)

theorem steps_repeatOf (h : Steps A inner) : StepsNode A (repeatOf inner) :=
  inStep_current.bind fun _ _ ht => inStep_advance.bind_eq fun _ => inStep_budget.bind_eq fun k =>
    (steps_statements h _ k).bind fun _ _ hns => steps_untilTest.bind fun _ _ htest =>
      inStep_pure (alike_bare ht (List.rel_append hns htest))

theorem steps_controlAssignment : StepsAll A controlAssignment :=
  inStep_kind.bind_eq fun _ => .ite
    (steps_assignment.bind fun _ _ hn => inStep_pure (.cons hn .nil))
    ((inStep_reject _).bind_eq fun _ => inStep_pure .nil)

theorem steps_limit (reports : Nat) : StepsAll A (limit reports) := by
  refine inStep_kind.bind_eq fun k => ?_
  split
  · exact inStep_advance.bind_eq fun _ => steps_expression.bind fun _ _ hn =>
      inStep_pure (forall₂_toList hn)
  · exact inStep_advance.bind_eq fun _ => steps_expression.bind fun _ _ hn =>
      inStep_pure (forall₂_toList hn)
  · exact inStep_reportCount.bind_eq fun _ => .ite
      ((inStep_reject _).bind_eq fun _ => inStep_pure .nil) (inStep_pure .nil)

theorem steps_forOf (h : Steps A inner) : StepsNode A (forOf inner) := by
  refine inStep_current.bind fun t t' ht => inStep_advance.bind_eq fun _ =>
    inStep_reportCount.bind_eq fun reports =>
      steps_controlAssignment.bind fun control control' hcontrol => inStep_kind.bind_eq fun k => ?_
  refine (steps_limit reports).bind fun limit limit' hlimit => inStep_kind.bind_eq fun k' =>
    inStep_reportCount.bind_eq fun m => ?_
  refine .ite ((inStep_reject _).bind_eq fun _ => ?_) ?_ <;>
    exact (steps_body h).bind fun _ _ hns =>
      inStep_pure (alike_bare ht (List.rel_append (List.rel_append hcontrol hlimit) hns))

/-! ### CASE statements -/

theorem steps_label : Steps A label :=
  inStep_current.bind fun _ _ ht => inStep_ofNode? (alike_stringNode? ht) (steps_signedNumber _)

theorem steps_labelRound : Steps A labelRound := inStep_advance.bind_eq fun _ => steps_label

theorem steps_moreLabels : ∀ k, StepsAll A (moreLabels k)
  | 0 => inStep_exhausted
  | k + 1 => inStep_kind.bind_eq fun _ => .ite
    (steps_labelRound.bind fun _ _ hnode => (steps_moreLabels k).bind fun _ _ hrest =>
      inStep_pure (List.rel_append (forall₂_toList hnode) hrest))
    (inStep_pure .nil)

theorem steps_labels : StepsNode A labels :=
  inStep_current.bind fun _ _ ht => steps_label.bind fun _ _ hfirst =>
    inStep_budget.bind_eq fun k => (steps_moreLabels k).bind fun _ _ hrest =>
      inStep_pure (alike_bare ht (List.rel_append (forall₂_toList hfirst) hrest))

theorem steps_branchStatement (h : Steps A inner) (reports : Nat) :
    StepsAll A (branchStatement inner reports) :=
  inStep_kind.bind_eq fun _ => .ite
    (inStep_advance.bind_eq fun _ => (steps_nested h).bind fun _ _ hn => inStep_pure (.cons hn .nil))
    (inStep_reportCount.bind_eq fun _ => .ite
      ((inStep_reject _).bind_eq fun _ => inStep_pure .nil) (inStep_pure .nil))

theorem inStep_branchSeparator {start start' : Cursor} (h : start.Alike A start') :
    InStep A Eq (branchSeparator start) (branchSeparator start') := by
  refine inStep_get.bind fun now now' hnow => ?_
  dsimp only
  rw [hnow.kind_eq, hnow.length_eq, hnow.size_eq, h.length_eq, h.size_eq]
  refine .ite (inStep_budget.bind_eq fun k => inStep_skipSemicolons k) (.ite (inStep_pure rfl) ?_)
  have pass (b : Bool) :
      InStep A Eq (if b then advance else pure ()) (if b then advance else pure ()) :=
    .ite inStep_advance (inStep_pure rfl)
  exact .ite ((inStep_complain _).bind_eq fun _ => pass _) (pass _)

theorem steps_branchRound (h : Steps A inner) : StepsAll A (branchRound inner) := by
  refine inStep_get.bind fun start start' hstart => ?_
  rw [hstart.kind_eq, hstart.size_eq]
  refine .ite (inStep_advance.bind_eq fun _ => inStep_pure .nil) ?_
  refine steps_labels.bind fun constants constants' hconstants =>
    (steps_branchStatement h _).bind fun statement statement' hstatement => ?_
  exact (inStep_branchSeparator hstart).bind_eq fun _ =>
    inStep_pure (.cons (alike_bare hstart.current (.cons hconstants hstatement)) .nil)

theorem steps_branches (h : Steps A inner) : ∀ k, StepsAll A (branches inner k)
  | 0 => inStep_exhausted
  | k + 1 => inStep_kind.bind_eq fun _ => .ite (inStep_pure .nil)
    ((steps_branchRound h).bind fun _ _ hfirst => (steps_branches h k).bind fun _ _ hrest =>
      inStep_pure (List.rel_append hfirst hrest))

theorem steps_ofPart (h : Steps A inner) : StepsAll A (ofPart inner) :=
  inStep_kind.bind_eq fun _ => .ite
    (inStep_advance.bind_eq fun _ => inStep_budget.bind_eq fun k =>
      (steps_branches h k).bind fun _ _ hns => (inStep_expect _ _).bind_eq fun _ => inStep_pure hns)
    (inStep_pure .nil)

theorem steps_branchesPart (h : Steps A inner) : StepsAll A (branchesPart inner) :=
  inStep_kind.bind_eq fun _ => .ite
    ((inStep_reject _).bind_eq fun _ => steps_ofPart h) (steps_ofPart h)

theorem steps_selectOf (h : Steps A inner) : StepsNode A (selectOf inner) :=
  inStep_current.bind fun _ _ ht => inStep_advance.bind_eq fun _ =>
    steps_expression.bind fun _ _ hselector => (steps_branchesPart h).bind fun _ _ hns =>
      inStep_pure (alike_bare ht (List.rel_append (forall₂_toList hselector) hns))

/-! ### WRITE statements -/

theorem steps_writeArgument : Steps A writeArgument := by
  refine inStep_current.bind fun t t' ht => ?_
  have other := inStep_ofNode? (alike_stringNode? ht) (steps_reject .invalidWrite)
  rw [ht.kind]
  cases t'.kind with
  | identifier => exact steps_variableUse.map fun _ _ hn => .some hn
  | integer | real => exact steps_signedNumber _
  | symbol s =>
    cases s with
    | minus => exact steps_signedNumber _
    | _ => exact other
  | keyword | character | string | endOfFile | error => exact other

theorem inStep_formatPart (w : Complaint) :
    InStep A (Option.Rel (Option.Rel (Node.Alike A))) (formatPart w) (formatPart w) :=
  inStep_kind.bind_eq fun _ => .ite
    (inStep_advance.bind_eq fun _ => (steps_signedInteger w).bind fun _ _ hn =>
      inStep_pure (.some hn))
    (inStep_pure .none)

theorem inStep_writeFormat :
    InStep A (fun r r' => List.Forall₂ (Node.Alike A) r.1 r'.1 ∧ r.2 = r'.2) writeFormat
      writeFormat := by
  refine (inStep_formatPart _).bind fun width width' hwidth => ?_
  cases hwidth with
  | none => exact inStep_pure ⟨.nil, rfl⟩
  | some hwidth =>
    cases hwidth with
    | none => exact inStep_pure ⟨.nil, rfl⟩
    | some hwidth =>
      refine (inStep_formatPart _).bind fun places places' hplaces => ?_
      cases hplaces with
      | none => exact inStep_pure ⟨.cons hwidth .nil, rfl⟩
      | some hplaces =>
        cases hplaces with
        | none => exact inStep_pure ⟨.cons hwidth .nil, rfl⟩
        | some hplaces => exact inStep_pure ⟨.cons hwidth (.cons hplaces .nil), rfl⟩

theorem steps_writeArguments : StepsAll A writeArguments := by
  refine (inStep_expect _ _).bind_eq fun b => .ite ?_ (inStep_pure .nil)
  refine steps_writeArgument.bind fun argument argument' hargument => ?_
  cases hargument with
  | none => exact inStep_pure .nil
  | some hargument =>
    refine inStep_writeFormat.bind ?_
    rintro ⟨ns, complete⟩ ⟨ns', _⟩ ⟨hns, rfl⟩
    have done := inStep_pure (A := A) (List.Forall₂.cons hargument hns)
    exact .ite ((inStep_expect _ _).bind_eq fun _ => done) done

theorem steps_writeStatement (statement : Node.Kind) : StepsNode A (writeStatement statement) :=
  inStep_current.bind fun _ _ ht => inStep_advance.bind_eq fun _ => inStep_kind.bind_eq fun _ =>
    .ite (inStep_pure (alike_bare ht .nil))
      (steps_writeArguments.bind fun _ _ hns => inStep_pure (alike_bare ht hns))

/-! ### All statements -/

theorem inStep_identifierStatement {name name' : Text} (h : A.text name name') :
    InStep A (Node.Alike A) (identifierStatement name) (identifierStatement name') := by
  have hkey : Text.lowercase name = Text.lowercase name' := A.key_eq h
  unfold identifierStatement
  rw [hkey]
  exact .ite (steps_writeStatement _) (.ite (steps_writeStatement _) steps_assignment)

theorem steps_statementOf (h : Steps A inner) : Steps A (statementOf inner) := by
  have some' {act act' : Reading Node} (hact : InStep A (Node.Alike A) act act') :
      InStep A (Option.Rel (Node.Alike A)) (some <$> act) (some <$> act') :=
    hact.map fun _ _ hn => .some hn
  have other (kind : Token.Kind) : Steps A (if kind.followsEmptyStatement then return none
      else do
        reject .unexpectedToken
        return none) :=
    .ite (inStep_pure .none) (steps_reject _)
  refine inStep_current.bind fun t t' ht => ?_
  rw [ht.kind]
  cases t'.kind with
  | identifier => exact some' (inStep_identifierStatement ht.text)
  | keyword word =>
    cases word with
    | beginKw => exact some' (steps_compoundOf h)
    | repeatKw => exact some' (steps_repeatOf h)
    | ifKw => exact some' (steps_conditionalOf h)
    | whileKw => exact some' (steps_whileOf h)
    | forKw => exact some' (steps_forOf h)
    | caseKw => exact some' (steps_selectOf h)
    | _ => exact other _
  | _ => exact other _

theorem steps_statement : ∀ k, Steps A (statement k)
  | 0 => inStep_exhausted
  | k + 1 => steps_statementOf (steps_statement k)

end Statements

/-! ### Programs -/

theorem inStep_programName : InStep A (Option.Rel A.text) programName programName := by
  refine inStep_current.bind fun t t' ht => ?_
  rw [ht.kind]
  exact .ite
    ((inStep_enter ht.text).bind_eq fun _ => inStep_advance.bind_eq fun _ =>
      inStep_pure (.some ht.text))
    ((inStep_reject _).bind_eq fun _ => inStep_pure .none)

theorem steps_programBody : StepsAll A programBody :=
  inStep_kind.bind_eq fun _ => .ite
    (inStep_budget.bind_eq fun k => (steps_compoundOf (steps_statement k)).bind fun _ _ hn =>
      inStep_pure (.cons hn .nil))
    ((inStep_reject _).bind_eq fun _ => inStep_pure .nil)

theorem inStep_programEnd : InStep A Eq programEnd programEnd :=
  inStep_kind.bind_eq fun _ => inStep_budget.bind_eq fun k =>
    (inStep_skipSemicolons k).bind_eq fun _ => inStep_kind.bind_eq fun _ =>
      .ite inStep_advance (.ite (inStep_reject _) (inStep_pure rfl))

theorem inStep_logProgram (name name' : Option Text) :
    InStep A Eq (logProgram name) (logProgram name') :=
  fun _ _ hc => .ok rfl ⟨hc.rest, hc.lastLine, hc.reports, hc.current, hc.table⟩

/-- **Programs are read in step.** -/
theorem steps_program : StepsNode A program := by
  refine inStep_advance.bind_eq fun _ => inStep_current.bind fun t t' ht =>
    (inStep_expect _ _).bind_eq fun _ => inStep_programName.bind fun name name' hname =>
      (inStep_expect _ _).bind_eq fun _ => steps_programBody.bind fun ns ns' hns =>
        inStep_programEnd.bind_eq fun _ => (inStep_logProgram name name').bind_eq fun _ =>
          inStep_pure (.intro rfl ht.line ?_ rfl rfl rfl hns)
  cases hname with
  | some hname => exact .text hname
  | none => exact .null

end Reading

/-! ### Outcomes -/

/-- **Outcomes of reading that are alike**: the same halt or alike trees, the same symbol table, and
alike reports, one by one. -/
structure Parse.Alike (A : Likeness) (p p' : Parse) : Prop where
  tree : (∃ halt, p.tree = .error halt ∧ p'.tree = .error halt) ∨
    ∃ tree tree', p.tree = .ok tree ∧ p'.tree = .ok tree' ∧ tree.Alike A tree'
  table : p.table = p'.table
  reports : List.Forall₂ (Report.Alike A) p.reports.toList p'.reports.toList

theorem Parse.Alike.errorCount_eq {A : Likeness} {p p' : Parse} (h : p.Alike A p') :
    p.errorCount = p'.errorCount := by
  have hsize : p.reports.size = p'.reports.size := by simpa using h.reports.length_eq
  rcases h.tree with ⟨halt, hp, hp'⟩ | ⟨tree, tree', hp, hp', -⟩
  · rw [errorCount, errorCount, hp, hp']
    rfl
  · rw [errorCount, errorCount, hp, hp', hsize]
    rfl

/-- The trees of alike outcomes are alike. -/
theorem Parse.Alike.tree_alike {A : Likeness} {p p' : Parse} {tree tree' : Node} (h : p.Alike A p')
    (ht : p.tree = .ok tree) (ht' : p'.tree = .ok tree') : tree.Alike A tree' := by
  rcases h.tree with ⟨halt, hhalt, -⟩ | ⟨t, t', hp, hp', halike⟩
  · cases ht.symm.trans hhalt
  · obtain rfl := Except.ok.inj (ht.symm.trans hp)
    obtain rfl := Except.ok.inj (ht'.symm.trans hp')
    exact halike

/-- **Alike feeds are read with alike outcomes**, whatever their errors. -/
theorem parseFeed_alike {A : Likeness} {feed feed' : Feed} {table : SymbolTable}
    (hrest : List.Forall₂ (Lexeme.Alike A) feed.rest feed'.rest)
    (hline : A.line feed.lastLine feed'.lastLine)
    (hreports : List.Forall₂ (Report.Alike A) feed.reports.toList feed'.reports.toList) :
    (parseFeed feed table).Alike A (parseFeed feed' table) := by
  have hstart : (Cursor.start feed table).Alike A (.start feed' table) :=
    ⟨hrest, hline, hreports, ⟨rfl, A.line_refl _, A.text_refl _⟩, rfl⟩
  have hprogram := Reading.steps_program hstart
  unfold parseFeed
  generalize Reading.program (.start feed table) = result,
    Reading.program (.start feed' table) = result' at hprogram ⊢
  cases hprogram with
  | ok htree hc => exact ⟨.inr ⟨_, _, rfl, rfl, htree⟩, hc.table, hc.reports⟩
  | error hc => exact ⟨.inl ⟨_, rfl, rfl⟩, hc.table, hc.reports⟩

/-- Texts with alike lexemes are read alike. -/
theorem parse_alike {A : Likeness} {source source' : Text} (table : SymbolTable)
    (h : List.Forall₂ (Lexeme.Alike A) (lexemes source) (lexemes source')) :
    (parse source table #[]).Alike A (parse source' table #[]) :=
  parseFeed_alike h (A.line_refl _) .nil

end MiniPascal

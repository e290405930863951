import MiniPascal.Proofs.Grammar.Declaration
import MiniPascal.Proofs.Grammar.Echo

/-!
# Errors of meaning do not steer the reading, but for two places

An undeclared variable is complained about, and the reading goes on as if it were declared. So two
symbol tables should make no difference to what is read of a text. They make none wherever a reader
looks at tokens only. But some readers ask whether anything was reported in a part that was read, in
order to complain once and not twice, and they count errors of meaning, too:

* The header of a FOR statement. If its TO or its DO is missing, that is complained about and tokens
  are skipped only if nothing else was wrong with the header. An undeclared variable in the header
  thus hides the error and changes what is read next (`MiniPascal.header_hides_missing_do`).
* A branch of a CASE statement. If no semicolon is behind it, that is complained about only if
  nothing else was wrong with the branch. What is read next is the same.
* A list of statements. But there only what has consumed no token is looked at, and in that there is
  no variable. The labels of a branch are constants.

Where the two places have no undeclared variables, every reader echoes itself
(`MiniPascal.Reading.Echoes`). It is enough to look at the tree that the text has with the names
that both tables have in common.

* `MiniPascal.Reading.echoes_forOf`, `MiniPascal.Reading.echoes_branchRound`: the two places.
* `MiniPascal.Reading.echoes_program`: programs.
* `MiniPascal.agreement_of_tree`: what this means for two symbol tables.
-/

namespace MiniPascal

open Node

namespace Reading

open Cursor

variable {strict : Bool} {c c' d : Cursor} {inner operand factor : Reading (Option Node)}

/-! ### Constants -/

/-- A node that the current token makes, if it makes one. -/
theorem repeats_ofNode? {other : Reading (Option Node)} (n : Option Node)
    (ho : Repeats strict other) :
    Repeats strict
      (match n with
        | some node => do
          advance
          return some node
        | none => other) := by
  cases n with
  | some node => exact repeats_advance.seq_eq fun _ => echoes_same
  | none => exact ho

theorem repeats_signedConstant (node? : Bool → Token → Option Node) (w : Complaint) :
    Repeats strict (signedConstant node? w) := by
  have behind (negative : Bool) : Repeats strict (constantBehind node? w negative) :=
    .current_bind fun t => repeats_ofNode? _ (echoes_reject_pure w)
  exact .kind_bind fun _ => .ite (repeats_advance.seq_eq fun _ => behind _) (behind _)

theorem repeats_label : Repeats strict label :=
  .current_bind fun _ => repeats_ofNode? _ (repeats_signedConstant _ _)

theorem repeats_moreLabels : ∀ k, Repeats strict (moreLabels k)
  | 0 => echoes_throw
  | k + 1 => .kind_bind fun _ => .ite
    (Echoes.seq_eq (repeats_advance.seq_eq fun _ => repeats_label) fun _ =>
      (repeats_moreLabels k).seq_eq fun _ => echoes_same)
    echoes_same

theorem repeats_labels : Repeats strict labels :=
  .current_bind fun _ => repeats_label.seq_eq fun _ => .budget_bind fun k =>
    (repeats_moreLabels k).seq_eq fun _ => echoes_same

theorem repeats_formatPart (w : Complaint) : Repeats strict (formatPart w) :=
  .kind_bind fun _ => .ite
    (repeats_advance.seq_eq fun _ => (repeats_signedConstant _ w).seq_eq fun _ =>
      echoes_same)
    echoes_same

theorem repeats_writeFormat : Repeats strict writeFormat := by
  refine (repeats_formatPart _).seq_eq fun width => ?_
  match width with
  | none | some none => exact echoes_same
  | some (some width) =>
    refine (repeats_formatPart _).seq_eq fun places => ?_
    match places with
    | none | some none | some (some _) => exact echoes_same

/-! ### Expressions -/

/-- A constant stays the same if variables are forgotten. -/
theorem Echoes.freely {act : Reading (Option Node)} (h : Repeats strict act) :
    EchoesFreely strict act := by
  intro c c' a d hact ha
  refine ⟨trivial, fun hc => ?_⟩
  obtain ⟨a', d', hact', hid, hecho⟩ := (h c c').exists hact ha hc
  obtain rfl : a' = a := hid
  exact ⟨a', d', hact', rfl, hecho⟩

/-- **A variable** may be bound with more names. It is read all the same, but there is nothing to
complain about. -/
theorem echoes_variableUse : Echoes strict True (fun _ => True) unbind variableUse variableUse := by
  refine .current_bind fun t => fun c c' n d h _ => ⟨trivial, fun hc => ?_⟩
  have behind (slot slot' : Option Text) : Echoes strict True (fun _ => True) unbind
      (do advance; return { kind := .var, line := t.line, text := .text t.text, slot })
      (do advance; return { kind := .var, line := t.line, text := .text t.text, slot := slot' }) :=
    repeats_advance.seq_eq fun _ => echoes_pure (by simp) fun _ => trivial
  rw [get_bind] at h
  simp only [get_bind]
  by_cases hin : c.table.contains t.text = true
  · rw [if_pos hin] at h
    rw [if_pos (hc.contains hin)]
    exact (behind _ _ c c').exists h trivial hc
  · rw [if_neg hin] at h
    by_cases hin' : c'.table.contains t.text = true
    · rw [if_pos hin']
      obtain ⟨_, c₁, hcomplain, h⟩ := bind_eq_ok.1 h
      have hecho : Echo strict (c.NoSemantic c₁) c c' c₁ c' := echo_of_undeclared hc hcomplain
      obtain ⟨n', d', hact', hn, hecho'⟩ := (behind _ _ c₁ c').exists h trivial hecho.beside
      exact ⟨n', d', hact', hn, hecho.trans hecho'⟩
    · rw [if_neg hin']
      exact (((repeats_complain _).seq_eq fun _ => behind _ _) c c').exists h trivial hc

theorem echoes_some_variableUse : EchoesFreely strict (some <$> variableUse) :=
  echoes_variableUse.map (fun _ => id) fun _ _ h => congrArg some h

theorem echoes_chain (operator? : Token.Kind → Option Node.Kind)
    (ho : EchoesFreely strict operand) :
    ∀ k {left left' : Option Node}, left'.map unbind = left.map unbind →
      Echoes strict True (fun _ => True) (Option.map unbind) (chain operator? operand k left)
        (chain operator? operand k left')
  | 0, _, _, _ => echoes_throw
  | k + 1, left, left', hleft => by
    refine .current_bind fun t => ?_
    split
    · exact echoes_pure hleft fun _ => trivial
    · refine repeats_advance.seq_eq fun _ => ho.seq fun right right' hright => ?_
      refine echoes_chain operator? ho k ?_
      simp [map_toList_unbind hleft, map_toList_unbind hright]

theorem echoes_termOf (h : EchoesFreely strict factor) : EchoesFreely strict (termOf factor) :=
  h.seq fun _ _ hleft => .budget_bind fun k => echoes_chain _ h k hleft

theorem echoes_simpleOf (h : EchoesFreely strict factor) : EchoesFreely strict (simpleOf factor) :=
  (echoes_termOf h).seq fun _ _ hleft => .budget_bind fun k =>
    echoes_chain _ (echoes_termOf h) k hleft

theorem echoes_expressionOf (h : EchoesFreely strict factor) :
    EchoesFreely strict (expressionOf factor) := by
  refine (echoes_simpleOf h).seq fun left left' hleft => .current_bind fun t => ?_
  split
  · exact echoes_pure hleft fun _ => trivial
  · refine repeats_advance.seq_eq fun _ => (echoes_simpleOf h).seq fun right right' hright => ?_
    exact echoes_pure (by simp [map_toList_unbind hleft, map_toList_unbind hright]) fun _ => trivial

theorem echoes_factorOf (h : EchoesFreely strict inner) : EchoesFreely strict (factorOf inner) := by
  refine .current_bind fun t => ?_
  split
  · exact repeats_advance.seq_eq fun _ => h.seq fun _ _ ho =>
      echoes_pure (by simp [map_toList_unbind ho]) fun _ => trivial
  · exact echoes_some_variableUse
  · exact .freely (repeats_signedConstant _ _)
  · exact .freely (repeats_signedConstant _ _)
  · exact .freely (repeats_signedConstant _ _)
  · exact repeats_advance.seq_eq fun _ => (echoes_expressionOf h).seq fun _ _ hnode =>
      (repeats_expect _ _).seq_eq fun _ => echoes_pure hnode fun _ => trivial
  · exact .freely (repeats_ofNode? _ (echoes_reject_pure _))

theorem echoes_factor : ∀ k, EchoesFreely strict (Reading.factor k)
  | 0 => echoes_throw
  | k + 1 => echoes_factorOf (echoes_factor k)

theorem echoes_expression : EchoesFreely strict expression :=
  .budget_bind fun k => echoes_expressionOf (echoes_factor k)

/-! ### Lists of statements -/

/-- **What is known of a reader of statements** within another: it echoes itself, it builds its
tree, and where it consumes nothing it gives none. -/
structure Faithful (strict : Bool) (inner : Reading (Option Node)) : Prop where
  echoes : EchoesOption strict inner
  builds : Builds [] inner Option.toList
  still : ∀ {c node d}, inner c = .ok node d → d.rest.length = c.rest.length →
    d.current.kind ≠ .endOfFile → node = none

/-- A node over trees. -/
theorem echoes_node {Q : Prop} {kind : Node.Kind} {line : Int} {descending : Bool}
    {ns ns' : List Node} (hns : ns'.map unbind = ns.map unbind)
    (hQ : (∀ n ∈ ns, n.Undisturbed strict) → Q) :
    Echoes strict Q (Undisturbed strict) unbind
      (pure { kind, line, descending, children := ns })
      (pure { kind, line, descending, children := ns' }) :=
  echoes_pure (by simp [hns]) fun h => hQ h.children

theorem echoes_nested (h : EchoesOption strict inner) : EchoesNode strict (nested inner) := by
  refine .current_bind fun t => h.bind fun node node' hnode => ?_
  match node, node', hnode with
  | some n, some n', hnode =>
    exact echoes_pure (Option.some.inj hnode) fun hn => ⟨trivial, by simpa using hn⟩
  | none, none, _ => exact echoes_pure rfl fun _ => ⟨trivial, by simp⟩

/-- Behind a statement of a list nothing depends on the names, if it does not depend on them whether
anything was reported where nothing was read. -/
theorem echoes_separator (terminal : Token.Kind) {start start' : Cursor}
    (hrest : start'.rest = start.rest)
    (hgate : c.rest.length = start.rest.length → c.current.kind ≠ .endOfFile →
      (c'.reports.size = start'.reports.size ↔ c.reports.size = start.reports.size)) :
    EchoesAt strict c c' True (fun _ => True) id (separator terminal start)
      (separator terminal start') := by
  refine .get_bind (.of_beside fun hc => ?_)
  dsimp only
  rw [hc.current, hc.rest, hrest]
  refine .ite (fun _ => Echoes.budget_bind repeats_skipSemicolons c c') fun _ => ?_
  refine .ite (fun _ => repeats_complain _ c c') fun _ =>
    .ite (fun hstay => ?_) fun _ => echoes_same c c'
  obtain ⟨⟨hlength, -⟩, heof⟩ : (c.rest.length = start.rest.length ∧ c.current.kind ≠ terminal) ∧
      c.current.kind ≠ .endOfFile := by simpa using hstay
  simp only [hgate hlength heof]
  exact Echoes.ite ((repeats_complain _).seq_eq fun _ => repeats_advance) repeats_advance c c'

theorem echoes_statementRound (hi : Faithful strict inner) (terminal : Token.Kind) :
    EchoesOption strict (statementRound inner terminal) := by
  intro c c' a d h ha
  rw [statementRound, get_bind] at h
  obtain ⟨node, c₁, hinner, h⟩ := bind_eq_ok.1 h
  obtain ⟨_, c₂, hsep, h⟩ := bind_eq_ok.1 h
  obtain ⟨rfl, rfl⟩ := pure_eq_ok.1 h
  refine ⟨trivial, fun hc => ?_⟩
  obtain ⟨node', c₁', hinner', hnode, hecho⟩ := (hi.echoes c c').exists hinner ha hc
  -- where nothing was read there is no variable
  have hgate (hlength : c₁.rest.length = c.rest.length) (heof : c₁.current.kind ≠ .endOfFile) :
      c₁'.reports.size = c'.reports.size ↔ c₁.reports.size = c.reports.size := by
    obtain rfl := hi.still hinner hlength heof
    exact hecho.size_iff (noSemantic_of_builds hi.builds hinner hc.numeric (by simp))
  obtain ⟨_, d', hsep', -, hecho'⟩ :=
    (echoes_separator terminal hc.rest hgate).exists hsep trivial hecho.beside
  refine ⟨node', d', ?_, hnode, hecho.trans hecho'⟩
  rw [statementRound, get_bind, bind_of_ok hinner', bind_of_ok hsep']
  rfl

theorem echoes_statements (hi : Faithful strict inner) (terminal : Token.Kind) :
    ∀ k, EchoesAll strict (statements inner terminal k)
  | 0 => echoes_throw
  | k + 1 => .kind_bind fun _ => .ite echoes_same
    ((echoes_statementRound hi terminal).bind fun node node' hnode =>
      (echoes_statements hi terminal k).bind fun rest rest' hrest =>
        echoes_pure (by simp [map_toList_unbind hnode, hrest]) fun hns => by
          simpa [or_imp, forall_and] using hns)

theorem echoes_compoundOf (hi : Faithful strict inner) : EchoesNode strict (compoundOf inner) :=
  .current_bind fun _ => repeats_advance.seq_eq fun _ => .budget_bind fun k =>
    (echoes_statements hi _ k).bind fun _ _ hns => (repeats_expect _ _).seq_eq fun _ =>
      echoes_node hns fun h => ⟨trivial, h⟩

/-! ### Assignments -/

theorem echoes_rightSide : EchoesFreely strict rightSide :=
  (repeats_expect _ _).seq_eq fun _ => .ite echoes_expression echoes_same

theorem echoes_assignment : Echoes strict True (fun _ => True) unbind assignment assignment :=
  .current_bind fun t => (repeats_enter t.text).seq_eq fun _ => repeats_advance.seq_eq fun _ =>
    echoes_rightSide.seq fun _ _ hvalue =>
      echoes_pure (by simp [map_toList_unbind hvalue]) fun _ => trivial

/-! ### Choices and loops -/

theorem echoes_alternative (hi : EchoesOption strict inner) :
    EchoesAll strict (alternative inner) :=
  .kind_bind fun _ => .ite
    (repeats_advance.seq_eq fun _ => (echoes_nested hi).bind fun _ _ hn =>
      echoes_pure (by simp [hn]) fun h => by simpa using h)
    echoes_same

theorem echoes_thenPart (hi : EchoesOption strict inner) : EchoesAll strict (thenPart inner) :=
  .kind_bind fun _ => .ite
    (repeats_advance.seq_eq fun _ => (echoes_nested hi).bind fun _ _ hn =>
      (echoes_alternative hi).bind fun _ _ hns =>
        echoes_pure (by simp [hn, hns]) fun h => by simpa using h)
    echoes_same

theorem echoes_consequences (hi : EchoesOption strict inner) :
    EchoesAll strict (consequences inner) :=
  .kind_bind fun _ => .ite ((repeats_reject _).seq_eq fun _ => echoes_thenPart hi)
    (echoes_thenPart hi)

theorem echoes_conditionalOf (hi : EchoesOption strict inner) :
    EchoesNode strict (conditionalOf inner) :=
  .current_bind fun _ => repeats_advance.seq_eq fun _ => echoes_expression.seq fun _ _ hc =>
    (echoes_consequences hi).bind fun _ _ hns =>
      echoes_node (by simp [map_toList_unbind hc, hns]) fun h =>
        ⟨trivial, fun n hn => h n (List.mem_append_right _ hn)⟩

theorem echoes_body (hi : EchoesOption strict inner) : EchoesAll strict (body inner) :=
  .kind_bind fun _ => .ite
    (repeats_advance.seq_eq fun _ => (echoes_nested hi).bind fun _ _ hn =>
      echoes_pure (by simp [hn]) fun h => by simpa using h)
    echoes_same

/-- What ends with the statement behind DO, in front of which the first trees were read. -/
theorem echoes_body_bind (hi : EchoesOption strict inner) {kind : Node.Kind} {line : Int}
    {descending : Bool} {ns ns' : List Node} (hns : ns'.map unbind = ns.map unbind) :
    Echoes strict True (Undisturbed strict) unbind
      (do
        let statement ← body inner
        return { kind, line, descending, children := ns ++ statement })
      (do
        let statement ← body inner
        return { kind, line, descending, children := ns' ++ statement }) :=
  (echoes_body hi).bind fun _ _ hstatement =>
    echoes_node (by simp [hns, hstatement]) fun h =>
      ⟨trivial, fun n hn => h n (List.mem_append_right _ hn)⟩

theorem echoes_whileOf (hi : EchoesOption strict inner) : EchoesNode strict (whileOf inner) :=
  .current_bind fun _ => repeats_advance.seq_eq fun _ => echoes_expression.seq fun _ _ hc =>
    .kind_bind fun _ => .ite
      ((repeats_reject _).seq_eq fun _ => echoes_body_bind hi (map_toList_unbind hc))
      (echoes_body_bind hi (map_toList_unbind hc))

theorem echoes_untilTest : EchoesAll strict untilTest :=
  .current_bind fun _ => (repeats_expect _ _).seq_eq fun _ => .ite
    (echoes_expression.bind fun _ _ hc =>
      echoes_pure (by simp [map_toList_unbind hc]) fun _ => ⟨trivial, trivial⟩)
    echoes_same

theorem echoes_repeatOf (hi : Faithful strict inner) : EchoesNode strict (repeatOf inner) :=
  .current_bind fun _ => repeats_advance.seq_eq fun _ => .budget_bind fun k =>
    (echoes_statements hi _ k).bind fun _ _ hns => echoes_untilTest.bind fun _ _ htest =>
      echoes_node (by simp [hns, htest]) fun h => by simpa [or_imp, forall_and] using h

/-! ### FOR statements -/

theorem echoes_controlAssignment (strict : Bool) :
    Echoes strict True (fun _ => True) (List.map unbind) controlAssignment controlAssignment :=
  .kind_bind fun _ => .ite
    (echoes_assignment.seq fun _ _ hn => echoes_pure (by simp [hn]) fun _ => trivial)
    (echoes_reject_pure _)

/-- What is given behind a complaint does not depend on what was skipped. -/
theorem eq_of_reject_pure {α : Type} {w : Complaint} {a b : α}
    (h : (do reject w; return a : Reading α) c = .ok b d) : b = a := by
  obtain ⟨_, _, -, h⟩ := bind_eq_ok.1 h
  exact (pure_eq_ok.1 h).1.symm

theorem length_le_of_controlAssignment {ns : List Node} (h : controlAssignment c = .ok ns d) :
    ns.length ≤ 1 := by
  rw [controlAssignment, kind_bind] at h
  split at h
  · obtain ⟨n, _, -, h⟩ := bind_eq_ok.1 h
    obtain ⟨rfl, -⟩ := pure_eq_ok.1 h
    simp
  · rw [eq_of_reject_pure h]
    simp

/-- The word in front of a limit. -/
def OpensLimit (k : Token.Kind) : Prop := k = .keyword .toKw ∨ k = .keyword .downtoKw

theorem limit_of_opensLimit {r : Nat} (h : OpensLimit c.current.kind) :
    limit r c = (do advance; return (← expression).toList : Reading (List Node)) c := by
  rw [limit, kind_bind]
  rcases h with h | h <;> rw [h]

theorem limit_of_not_opensLimit {r : Nat} (h : ¬OpensLimit c.current.kind) :
    limit r c = (do
      if (← reportCount) = r then reject .expectingTo
      return [] : Reading (List Node)) c := by
  rw [limit, kind_bind]
  cases hk : c.current.kind with
  | keyword word =>
    rw [hk] at h
    cases word with
    | toKw => exact absurd (.inl rfl) h
    | downtoKw => exact absurd (.inr rfl) h
    | _ => rfl
  | _ => rfl

/-- The limit is read in the same way, if it does not depend on the names whether anything is wrong
with the header where the limit is missing. -/
theorem echoes_limit (strict : Bool) {r r' : Nat}
    (hgate : ¬OpensLimit c.current.kind → (c'.reports.size = r' ↔ c.reports.size = r)) :
    EchoesAt strict c c' True (fun _ => True) (List.map unbind) (limit r) (limit r') := by
  refine .of_beside fun hc => ?_
  by_cases hk : OpensLimit c.current.kind
  · refine .congr (limit_of_opensLimit hk) (limit_of_opensLimit (by rwa [hc.current])) ?_
    exact Echoes.seq_eq repeats_advance (fun _ => echoes_expression.seq fun _ _ hn =>
      echoes_pure (map_toList_unbind hn) fun _ => trivial) c c'
  · refine .congr (limit_of_not_opensLimit hk) (limit_of_not_opensLimit (by rwa [hc.current])) ?_
    refine .reportCount_bind ?_
    simp only [hgate hk]
    exact Echoes.ite (echoes_reject_pure _)
      echoes_same c c'

/-- There is one limit at most, and none without TO or DOWNTO. -/
theorem length_le_of_limit {r : Nat} {ns : List Node} (h : limit r c = .ok ns d) :
    ns.length ≤ 1 ∧ (¬OpensLimit c.current.kind → ns = []) := by
  by_cases hk : OpensLimit c.current.kind
  · rw [limit_of_opensLimit hk] at h
    obtain ⟨_, _, -, h⟩ := bind_eq_ok.1 h
    obtain ⟨n, _, -, h⟩ := bind_eq_ok.1 h
    obtain ⟨rfl, -⟩ := pure_eq_ok.1 h
    exact ⟨Option.length_toList_le, fun hno => absurd hk hno⟩
  · rw [limit_of_not_opensLimit hk, reportCount_bind] at h
    dsimp only at h
    split at h
    · rw [eq_of_reject_pure h]
      simp
    · obtain ⟨rfl, -⟩ := pure_eq_ok.1 h
      simp

/-- There is one statement at most, and none without DO. -/
theorem length_le_of_body {ns : List Node} (h : body inner c = .ok ns d) :
    ns.length ≤ 1 ∧ (c.current.kind ≠ .keyword .doKw → ns = []) := by
  rw [body, kind_bind] at h
  split at h
  · rename_i hk
    obtain ⟨_, _, -, h⟩ := bind_eq_ok.1 h
    obtain ⟨n, _, -, h⟩ := bind_eq_ok.1 h
    obtain ⟨rfl, -⟩ := pure_eq_ok.1 h
    exact ⟨by simp, fun hdo => absurd hk hdo⟩
  · obtain ⟨rfl, -⟩ := pure_eq_ok.1 h
    simp

/-- What is behind the header of a FOR statement, of which the given trees were read; whether a
missing DO is complained about. -/
def forEnd (inner : Reading (Option Node)) (line : Int) (descending complains : Bool)
    (ns : List Node) : Reading Node := do
  if complains then reject .expectingDo
  let statement ← body inner
  return { kind := .forLoop, line, descending, children := ns ++ statement }

theorem echoes_forEnd (hi : EchoesOption strict inner) {line : Int} {descending complains : Bool}
    {ns ns' : List Node} (hns : ns'.map unbind = ns.map unbind) :
    Echoes strict True (Undisturbed strict) unbind (forEnd inner line descending complains ns)
      (forEnd inner line descending complains ns') :=
  .ite ((repeats_reject _).seq_eq fun _ => echoes_body_bind hi hns) (echoes_body_bind hi hns)

/-- Where DO is missing and nothing is complained about, there is no statement. -/
theorem exists_statement_of_forEnd {line : Int} {descending complains : Bool} {ns : List Node}
    {n : Node} (h : forEnd inner line descending complains ns c = .ok n d) :
    ∃ statement, n = { kind := .forLoop, line, descending, children := ns ++ statement } ∧
      statement.length ≤ 1 ∧
      (c.current.kind ≠ .keyword .doKw → complains = false → statement = []) := by
  unfold forEnd at h
  cases complains with
  | true =>
    obtain ⟨_, _, -, h⟩ := bind_eq_ok.1 h
    obtain ⟨statement, _, hbody, h⟩ := bind_eq_ok.1 h
    obtain ⟨rfl, -⟩ := pure_eq_ok.1 h
    exact ⟨statement, rfl, (length_le_of_body hbody).1, nofun⟩
  | false =>
    obtain ⟨statement, _, hbody, h⟩ := bind_eq_ok.1 h
    obtain ⟨rfl, -⟩ := pure_eq_ok.1 h
    exact ⟨statement, rfl, (length_le_of_body hbody).1, fun hdo _ =>
      (length_le_of_body hbody).2 hdo⟩

/-- **A FOR statement** with all its parts echoes itself, because what depends on the reports of its
header is read only if a part is missing. One that lacks a part echoes itself if its variables are
bound. -/
theorem echoes_forOf (hi : EchoesOption strict inner) : EchoesNode strict (forOf inner) := by
  refine .current_bind fun t => repeats_advance.seq_eq fun _ c c' =>
    .reportCount_bind (.of_beside fun hc n d h hn => ⟨trivial, fun _ => ?_⟩)
  obtain ⟨control, c₁, hcontrol, h⟩ := bind_eq_ok.1 h
  rw [kind_bind] at h
  obtain ⟨limit, c₂, hlimit, h⟩ := bind_eq_ok.1 h
  rw [kind_bind, reportCount_bind] at h
  obtain ⟨statement, rfl, hlength, hstatement⟩ := exists_statement_of_forEnd h
  obtain ⟨hlength', hlimit₀⟩ := length_le_of_limit hlimit
  -- without a limit or a statement all variables are bound
  have lacking (hl : limit = [] ∨ statement = []) : ∀ m ∈ control ++ limit, m.Bound := by
    refine fun m hm => (hn.bound_of_lacking rfl ?_).child (List.mem_append_left _ hm)
    have := length_le_of_controlAssignment hcontrol
    rcases hl with rfl | rfl <;> simp only [List.length_append, List.length_nil] <;> omega
  have noSemantic₁ (hl : limit = [] ∨ statement = []) : c.NoSemantic c₁ :=
    noSemantic_of_builds builds_controlAssignment hcontrol hc.numeric fun m hm =>
      lacking hl m (List.mem_append_left _ hm)
  obtain ⟨control', c₁', hcontrol', hc₁, hecho⟩ :=
    (echoes_controlAssignment strict c c').exists hcontrol trivial hc
  obtain ⟨limit', c₂', hlimit', hc₂, hecho'⟩ := EchoesAt.exists
    (echoes_limit strict fun hk => hecho.size_iff (noSemantic₁ (.inl (hlimit₀ hk))))
    hlimit trivial hecho.beside
  have hheader := hecho.trans hecho'
  -- a missing DO is complained about in both readings, or there is no statement
  have noSemantic₂ (hdo : c₂.current.kind ≠ .keyword .doKw) : c.NoSemantic c₂ := by
    by_cases hsize : c₂.reports.size = c.reports.size
    · exact noSemantic_of_size_eq (((steady_controlAssignment (n := 0) c).follows hcontrol).trans
        ((steady_limit (n := 0) _ c₁).follows hlimit)) hsize
    · have hl : statement = [] := hstatement hdo (by simp [hsize])
      exact (noSemantic₁ (.inr hl)).trans <|
        noSemantic_of_builds (builds_limit _) hlimit hecho.beside.numeric fun m hm =>
          lacking (.inr hl) m (List.mem_append_right _ hm)
  have hcomplains : (decide (c₂.current.kind ≠ .keyword .doKw) &&
        decide (c₂'.reports.size = c'.reports.size)) =
      (decide (c₂.current.kind ≠ .keyword .doKw) && decide (c₂.reports.size = c.reports.size)) := by
    by_cases hdo : c₂.current.kind = .keyword .doKw
    · simp [hdo]
    · simp [hdo, hheader.size_iff (noSemantic₂ hdo)]
  have hns : (control' ++ limit').map unbind = (control ++ limit).map unbind := by
    simp [hc₁, hc₂]
  obtain ⟨n', d', hend, hn', hecho''⟩ := (echoes_forEnd hi hns c₂ c₂').exists h hn hheader.beside
  refine ⟨n', d', ?_, hn', hheader.trans hecho''⟩
  rw [bind_of_ok hcontrol', kind_bind, bind_of_ok hlimit', kind_bind, reportCount_bind,
    hecho.beside.current, hecho'.beside.current]
  exact (congrFun (congrArg (forEnd inner t.line _ · _) hcomplains) c₂').trans hend

/-! ### CASE statements -/

section Labels

variable {node? : Bool → Token → Option Node} {w : Complaint}

theorem silent_ofNode? {other : Reading (Option Node)} (n : Option Node) (ho : Silent other) :
    Silent
      (match n with
        | some node => do
          advance
          return some node
        | none => other) := by
  cases n with
  | some node => exact silent_advance.bind fun _ => silent_pure _
  | none => exact ho

theorem silent_signedConstant (hw : w ≠ .undeclared) : Silent (signedConstant node? w) := by
  have behind (negative : Bool) : Silent (constantBehind node? w negative) :=
    silent_current.bind fun _ => silent_ofNode? _ ((silent_reject hw).bind fun _ => silent_pure _)
  refine silent_kind.bind fun _ => ?_
  dsimp only
  split
  · exact silent_advance.bind fun _ => behind _
  · exact behind _

theorem silent_label : Silent label :=
  silent_current.bind fun _ => silent_ofNode? _ (silent_signedConstant (by decide))

theorem silent_moreLabels : ∀ k, Silent (moreLabels k)
  | 0 => silent_throw
  | k + 1 => by
    refine silent_kind.bind fun _ => ?_
    split
    · exact Silent.bind (silent_advance.bind fun _ => silent_label) fun _ =>
        (silent_moreLabels k).bind fun _ => silent_pure _
    · exact silent_pure _

theorem silent_labels : Silent labels :=
  silent_current.bind fun _ => silent_label.bind fun _ => silent_budget.bind fun k =>
    (silent_moreLabels k).bind fun _ => silent_pure _

end Labels

theorem echoes_branchStatement (hi : EchoesOption strict inner) {r r' : Nat}
    (hgate : c'.reports.size = r' ↔ c.reports.size = r) :
    EchoesAt strict c c' True (fun ns => ∀ n ∈ ns, n.Undisturbed strict) (List.map unbind)
      (branchStatement inner r) (branchStatement inner r') := by
  refine .of_beside fun hc => .congr (kind_bind _) (kind_bind _) ?_
  rw [hc.current]
  refine .ite (fun _ => ?_) fun _ => .reportCount_bind ?_
  · exact Echoes.seq_eq repeats_advance (fun _ => (echoes_nested hi).bind fun _ _ hn =>
      echoes_pure (by simp [hn]) fun h => by simpa using h) c c'
  · simp only [hgate]
    exact Echoes.ite (echoes_reject_pure _)
      echoes_same c c'

/-- A complaint about a missing semicolon need not last, unless strictly asked for. -/
theorem echo_missingSemicolon {m p p' : Prop} [Decidable p] [Decidable p'] (hc : c.Beside c')
    (hgate : m ∨ strict = true → (p' ↔ p)) {u : Unit}
    (h : (if p then complain .missingSemicolon else pure ()) c = .ok u d) :
    ∃ d', (if p' then complain .missingSemicolon else pure ()) c' = .ok () d' ∧
      Echo strict m c c' d d' := by
  by_cases hpp : p' ↔ p
  · simp only [hpp]
    obtain ⟨_, d', h', -, hecho⟩ :=
      (Echoes.ite (repeats_complain _) echoes_same c c').exists h trivial hc
    refine ⟨d', h', hecho.imp fun _ => noSemantic_of_silent ?_ h hc.numeric⟩
    split
    · exact silent_complain (by decide)
    · exact silent_pure _
  · -- the complaint is made in one of the readings only
    obtain ⟨hm, hstrict⟩ := not_or.1 fun hor => hpp (hgate hor)
    obtain rfl : strict = false := by simpa using hstrict
    by_cases hp : p
    · rw [if_pos hp] at h
      obtain ⟨⟩ := h
      refine ⟨c', by rw [if_neg fun hp' => hpp (iff_of_true hp' hp)]; rfl,
        ⟨hc.current, hc.rest, hc.lastLine, hc.contains, hc.numeric.inHand, hc.numeric.inFront⟩,
        [_], [], Array.toList_push, by simp, rfl, fun h => absurd h hm⟩
    · rw [if_neg hp] at h
      obtain ⟨⟩ := h
      have hp' : p' := by_contra fun hp' => hpp (iff_of_false hp' hp)
      obtain ⟨d', hd'⟩ : ∃ d', complain .missingSemicolon c' = .ok () d' := ⟨_, rfl⟩
      refine ⟨d', by rw [if_pos hp', hd'], ?_⟩
      obtain ⟨⟩ := hd'
      exact ⟨⟨hc.current, hc.rest, hc.lastLine, hc.contains, hc.numeric⟩,
        [], [_], by simp, Array.toList_push, rfl, fun h => absurd h hm⟩

/-- Behind a branch, complaining about a missing semicolon and passing over a token are two
steps. -/
theorem branchSeparator_eq (start c : Cursor) :
    branchSeparator start c =
      (if c.current.kind = .symbol .semicolon then budget >>= skipSemicolons
      else if c.current.kind = .keyword .endKw || c.current.kind = .endOfFile then pure ()
      else do
        (if c.reports.size = start.reports.size then complain .missingSemicolon else pure ())
        (if c.rest.length = start.rest.length || c.current.kind.followsStatement then advance
          else pure ())) c := by
  rw [branchSeparator, get_bind]
  dsimp only
  split
  · rfl
  · split
    · rfl
    · split <;> rfl

/-- What follows a branch is passed over in the same way. Only a complaint about a missing semicolon
may depend on what was reported before. -/
theorem echo_branchSeparator {m : Prop} {start start' : Cursor} (hc : c.Beside c')
    (hrest : start'.rest = start.rest)
    (hgate : m ∨ strict = true →
      (c'.reports.size = start'.reports.size ↔ c.reports.size = start.reports.size)) {u : Unit}
    (h : branchSeparator start c = .ok u d) :
    ∃ d', branchSeparator start' c' = .ok () d' ∧ Echo strict m c c' d d' := by
  have same {c c' : Cursor} {x : Reading Unit} (hc : c.Beside c') (hsilent : Silent x)
      (hx : Repeats strict x) (h : x c = .ok u d) :
      ∃ d', x c' = .ok () d' ∧ Echo strict m c c' d d' := by
    obtain ⟨_, d', h', -, hecho⟩ := (hx c c').exists h trivial hc
    exact ⟨d', h', hecho.imp fun _ => noSemantic_of_silent hsilent h hc.numeric⟩
  rw [branchSeparator_eq] at h
  rw [branchSeparator_eq, hc.current, hc.rest, hrest]
  by_cases hsemi : c.current.kind = .symbol .semicolon
  · rw [if_pos hsemi] at h ⊢
    exact same hc (silent_budget.bind silent_skipSemicolons) (.budget_bind repeats_skipSemicolons) h
  rw [if_neg hsemi] at h ⊢
  by_cases hend : (c.current.kind = .keyword .endKw || c.current.kind = .endOfFile) = true
  · rw [if_pos hend] at h ⊢
    exact same hc (silent_pure ()) echoes_same h
  rw [if_neg hend] at h ⊢
  obtain ⟨_, c₁, hcomplain, h⟩ := bind_eq_ok.1 h
  obtain ⟨c₁', hcomplain', hecho⟩ := echo_missingSemicolon hc hgate hcomplain
  rw [bind_of_ok hcomplain']
  obtain ⟨d', h', hecho'⟩ := same hecho.beside
    (by split; exacts [silent_advance, silent_pure ()])
    (.ite repeats_advance echoes_same) h
  exact ⟨d', h', (hecho.append hecho').imp fun hm => ⟨hm, hm⟩⟩

/-- **A branch of a CASE statement** echoes itself but for the complaint about a missing semicolon
behind it, and for that, too, if its variables are bound. -/
theorem echoes_branchRound (hi : Faithful strict inner) : EchoesAll strict (branchRound inner) := by
  refine fun c c' => .get_bind (.of_beside fun hc => ?_)
  rw [hc.current]
  refine .ite (fun _ => Echoes.seq_eq repeats_advance
    (fun _ => echoes_same) c c') fun _ ns d h hns => ⟨trivial, fun _ => ?_⟩
  obtain ⟨constants, c₁, hlabels, h⟩ := bind_eq_ok.1 h
  obtain ⟨statement, c₂, hstatement, h⟩ := bind_eq_ok.1 h
  obtain ⟨_, _, hseparator, h⟩ := bind_eq_ok.1 h
  obtain ⟨rfl, rfl⟩ := pure_eq_ok.1 h
  have hbranch := List.forall_mem_singleton.1 hns
  -- labels are constants, and so nothing depends on the names before the statement
  obtain ⟨constants', c₁', hlabels', hid, hecho⟩ :=
    (repeats_labels c c').exists hlabels trivial hc
  obtain rfl : constants' = constants := hid
  have hno : c.NoSemantic c₁ := noSemantic_of_silent silent_labels hlabels hc.numeric
  obtain ⟨statement', c₂', hstatement', hunbind, hecho'⟩ :=
    (echoes_branchStatement hi.echoes (hecho.size_iff hno)).exists hstatement
      (fun n hn => hbranch.children n (List.mem_cons_of_mem _ hn)) hecho.beside
  have hway := hecho.trans hecho'
  have hgate (h : c.NoSemantic c₂ ∨ strict = true) :
      c₂'.reports.size = c'.reports.size ↔ c₂.reports.size = c.reports.size := by
    rcases h with hno' | rfl
    · exact hway.size_iff hno'
    · have hbound := hbranch.bound_of_branch rfl
      exact hway.size_iff <| hno.trans <| noSemantic_of_builds (builds_branchStatement hi.builds _)
        hstatement hecho.beside.numeric fun n hn => hbound.child (List.mem_cons_of_mem _ hn)
  obtain ⟨d', hseparator', hecho''⟩ := echo_branchSeparator hway.beside hc.rest hgate hseparator
  refine ⟨[{ kind := .selectBranch, line := c.current.line, children := constants' :: statement' }],
    d', ?_, ?_, (hway.append hecho'').imp fun h => ?_⟩
  · rw [bind_of_ok hlabels', bind_of_ok hstatement', bind_of_ok hseparator']
    rfl
  · simp [hunbind]
  · have hno' := ((hway.noSemantic_iff hecho'').1 h).1
    exact ⟨hno', hno'⟩

theorem echoes_branches (hi : Faithful strict inner) : ∀ k, EchoesAll strict (branches inner k)
  | 0 => echoes_throw
  | k + 1 => .kind_bind fun _ => .ite echoes_same
    ((echoes_branchRound hi).bind fun _ _ hfirst => (echoes_branches hi k).bind fun _ _ hrest =>
      echoes_pure (by simp [hfirst, hrest]) fun h => by simpa [or_imp, forall_and] using h)

theorem echoes_ofPart (hi : Faithful strict inner) : EchoesAll strict (ofPart inner) :=
  .kind_bind fun _ => .ite
    (repeats_advance.seq_eq fun _ => .budget_bind fun k =>
      (echoes_branches hi k).bind fun _ _ hns => (repeats_expect _ _).seq_eq fun _ =>
        echoes_pure hns fun h => ⟨trivial, h⟩)
    echoes_same

theorem echoes_branchesPart (hi : Faithful strict inner) : EchoesAll strict (branchesPart inner) :=
  .kind_bind fun _ => .ite ((repeats_reject _).seq_eq fun _ => echoes_ofPart hi) (echoes_ofPart hi)

theorem echoes_selectOf (hi : Faithful strict inner) : EchoesNode strict (selectOf inner) :=
  .current_bind fun _ => repeats_advance.seq_eq fun _ => echoes_expression.seq fun _ _ hselector =>
    (echoes_branchesPart hi).bind fun _ _ hns =>
      echoes_node (by simp [map_toList_unbind hselector, hns]) fun h =>
        ⟨trivial, fun n hn => h n (List.mem_append_right _ hn)⟩

/-! ### WRITE statements -/

theorem echoes_writeArgument : EchoesFreely strict writeArgument := by
  refine .current_bind fun t => ?_
  split
  · exact echoes_some_variableUse
  · exact .freely (repeats_signedConstant _ _)
  · exact .freely (repeats_signedConstant _ _)
  · exact .freely (repeats_signedConstant _ _)
  · exact .freely (repeats_ofNode? _ (echoes_reject_pure _))

theorem echoes_writeArguments :
    Echoes strict True (fun _ => True) (List.map unbind) writeArguments writeArguments := by
  refine (repeats_expect _ _).seq_eq fun _ => .ite ?_ echoes_same
  refine echoes_writeArgument.seq fun argument argument' hargument => ?_
  match argument, argument', hargument with
  | none, none, _ => exact echoes_same
  | some argument, some argument', hargument =>
    refine repeats_writeFormat.seq_eq fun ⟨ns, complete⟩ => ?_
    have done : Echoes strict True (fun _ => True) (List.map unbind) (pure (argument :: ns))
        (pure (argument' :: ns)) :=
      echoes_pure (by simpa using hargument) fun _ => trivial
    exact .ite ((repeats_expect _ _).seq_eq fun _ => done) done

theorem echoes_writeStatement (kind : Node.Kind) :
    Echoes strict True (fun _ => True) unbind (writeStatement kind) (writeStatement kind) :=
  .current_bind fun _ => repeats_advance.seq_eq fun _ => .kind_bind fun _ => .ite
    echoes_same
    (echoes_writeArguments.seq fun _ _ hns => echoes_pure (by simp [hns]) fun _ => trivial)

/-! ### All statements -/

theorem echoes_identifierStatement (name : Text) :
    Echoes strict True (fun _ => True) unbind (identifierStatement name)
      (identifierStatement name) :=
  .ite (echoes_writeStatement _) (.ite (echoes_writeStatement _) echoes_assignment)

theorem echoes_some {act : Reading Node} (h : EchoesNode strict act) :
    EchoesOption strict (some <$> act) :=
  h.map (fun _ hn => hn _ rfl) fun _ _ hn => congrArg some hn

theorem echoes_statementOf (hi : Faithful strict inner) :
    EchoesOption strict (statementOf inner) := by
  have other (kind : Token.Kind) : EchoesOption strict
      (if kind.followsEmptyStatement then return none
      else do
        reject .unexpectedToken
        return none) :=
    .ite echoes_same
      (echoes_reject_pure _)
  refine .current_bind fun t => ?_
  cases t.kind with
  | identifier =>
    exact (echoes_identifierStatement _).map (fun _ _ => trivial) fun _ _ hn => congrArg some hn
  | keyword word =>
    cases word with
    | beginKw => exact echoes_some (echoes_compoundOf hi)
    | repeatKw => exact echoes_some (echoes_repeatOf hi)
    | ifKw => exact echoes_some (echoes_conditionalOf hi.echoes)
    | whileKw => exact echoes_some (echoes_whileOf hi.echoes)
    | forKw => exact echoes_some (echoes_forOf hi.echoes)
    | caseKw => exact echoes_some (echoes_selectOf hi)
    | _ => exact other _
  | _ => exact other _

theorem statementOf_of_not_startsStatement (h : c.current.kind.startsStatement = false) :
    statementOf inner c = (if c.current.kind.followsEmptyStatement then return none
      else do
        reject .unexpectedToken
        return none : Reading (Option Node)) c := by
  rw [statementOf, current_bind]
  cases hk : c.current.kind with
  | identifier =>
    rw [hk] at h
    cases h
  | keyword word =>
    rw [hk] at h
    cases word <;> first | rfl | cases h
  | _ => rfl

/-- A token that starts no statement gives none. -/
theorem eq_none_of_statementOf {node : Option Node}
    (hstart : c.current.kind.startsStatement = false) (h : statementOf inner c = .ok node d) :
    node = none := by
  rw [statementOf_of_not_startsStatement hstart] at h
  split at h
  · exact (pure_eq_ok.1 h).1.symm
  · exact eq_of_reject_pure h

/-- **Statements are echoed**, at any depth of nesting. -/
theorem faithful_statement : ∀ k, Faithful strict (statement k)
  | 0 => ⟨echoes_throw, builds_throw, nofun⟩
  | k + 1 => by
    refine ⟨echoes_statementOf (faithful_statement k), builds_statement _, fun h hlength hend => ?_⟩
    rename_i c node d
    rcases (consuming_statement (k + 1)).1 c _ _ h with hlt | ⟨-, -, hstart⟩
    · have hle := c.left_le_length
      rw [left_of_ne hend] at hlt
      omega
    · exact eq_none_of_statementOf hstart h

/-! ### Programs -/

theorem repeats_programName : Repeats strict programName :=
  .current_bind fun _ => .ite
    ((repeats_enter _).seq_eq fun _ => repeats_advance.seq_eq fun _ =>
      echoes_same)
    (echoes_reject_pure _)

theorem echoes_programBody : EchoesAll strict programBody :=
  .kind_bind fun _ => .ite
    (.budget_bind fun k => (echoes_compoundOf (faithful_statement k)).bind fun _ _ hn =>
      echoes_pure (by simp [hn]) fun h => by simpa using h)
    (echoes_reject_pure _)

theorem repeats_programEnd : Repeats strict programEnd :=
  .kind_bind fun _ => .budget_bind fun k => (repeats_skipSemicolons k).seq_eq fun _ =>
    .kind_bind fun _ => .ite repeats_advance
      (.ite (repeats_reject _) echoes_same)

/-- **A program is echoed.** -/
theorem echoes_program : EchoesNode strict program :=
  repeats_advance.seq_eq fun _ => .current_bind fun _ => (repeats_expect _ _).seq_eq fun _ =>
    repeats_programName.seq_eq fun name => (repeats_expect _ _).seq_eq fun _ =>
      echoes_programBody.bind fun _ _ hns => repeats_programEnd.seq_eq fun _ =>
        (repeats_logProgram name).seq_eq fun _ =>
          echoes_pure (by simp [hns]) fun h => ⟨trivial, h.children⟩

end Reading

/-! ### Reading a text with other names -/

variable {source : Text} {table table' table₁ table₂ : SymbolTable} {reports : Array Report}
  {tree : Node}

/-- **A text is read in the same way with more names**, if no variable is unbound where it
matters. -/
theorem exists_tree_of_undisturbed {strict : Bool}
    (h : (parse source table reports).tree = .ok tree) (hn : tree.Undisturbed strict)
    (hnames : table.names ⊆ table'.names) :
    ∃ tree', (parse source table' reports).tree = .ok tree' ∧ tree'.unbind = tree.unbind ∧
      unread source table' reports = unread source table reports ∧
      (parse source table' reports).reports.toList.filter (·.lasting strict) =
        (parse source table reports).reports.toList.filter (·.lasting strict) := by
  obtain ⟨c, hprogram, -, hreports⟩ := exists_cursor_of_tree h
  have hbeside : (Cursor.start (.ofSource source reports) table).Beside
      (.start (.ofSource source reports) table') :=
    ⟨rfl, rfl, rfl,
      fun hname => SymbolTable.contains_iff.2 (hnames (SymbolTable.contains_iff.1 hname)),
      numeric_start source table reports⟩
  obtain ⟨tree', c', hprogram', hunbind, hecho⟩ :=
    (Reading.echoes_program _ _).exists hprogram hn hbeside
  have hparse' : parse source table' reports = ⟨.ok tree', c'.table, c'.reports, c'.log⟩ :=
    parseFeed_of_ok hprogram'
  refine ⟨tree', by rw [hparse'], hunbind, ?_, ?_⟩
  · rw [unread, unread, hprogram, hprogram']
    exact hecho.beside.rest
  · obtain ⟨-, added, added', hadded, hadded', hfilter, -⟩ := hecho
    rw [hparse']
    show c'.reports.toList.filter _ = (parseFeed _ _).reports.toList.filter _
    rw [hreports, hadded, hadded', List.filter_append, List.filter_append, hfilter]
    rfl

/-- **Errors of meaning and the reading.** Read a text with two symbol tables. If the tree that it
has with names common to both leaves no variable unbound in a FOR statement that lacks a part, then
both readings give trees that agree in everything but what variables are bound to, leave the same
tokens unread, and make the same reports but for errors of meaning and for missing semicolons. If it
leaves no variable unbound in a branch of a CASE statement either, the reports of missing semicolons
are the same, too. -/
theorem agreement_of_tree (h : (parse source table reports).tree = .ok tree)
    (h₁ : table.names ⊆ table₁.names) (h₂ : table.names ⊆ table₂.names)
    (hheaders : ∀ n ∈ tree.preorder, n.kind = .forLoop → n.children.length < 3 → n.Bound) :
    let p₁ := parse source table₁ reports
    let p₂ := parse source table₂ reports
    ∃ tree₁ tree₂, p₁.tree = .ok tree₁ ∧ p₂.tree = .ok tree₂ ∧ tree₁.unbind = tree₂.unbind ∧
      unread source table₁ reports = unread source table₂ reports ∧
      p₁.reports.toList.filter
          (fun r => r.kind ≠ .semantic ∧ r.message ≠ Complaint.missingSemicolon.message) =
        p₂.reports.toList.filter
          (fun r => r.kind ≠ .semantic ∧ r.message ≠ Complaint.missingSemicolon.message) ∧
      ((∀ n ∈ tree.preorder, n.kind = .selectBranch → n.Bound) →
        p₁.reports.toList.filter (·.kind ≠ .semantic) =
          p₂.reports.toList.filter (·.kind ≠ .semantic)) := by
  intro p₁ p₂
  have hloosely : tree.Undisturbed false :=
    everywhere_iff.2 fun n hn => ⟨hheaders n hn, nofun⟩
  obtain ⟨tree₁, htree₁, hunbind₁, hunread₁, hreports₁⟩ := exists_tree_of_undisturbed h hloosely h₁
  obtain ⟨tree₂, htree₂, hunbind₂, hunread₂, hreports₂⟩ := exists_tree_of_undisturbed h hloosely h₂
  refine ⟨tree₁, tree₂, htree₁, htree₂, hunbind₁.trans hunbind₂.symm, hunread₁.trans hunread₂.symm,
    ?_, fun hbranches => ?_⟩
  · simpa [Report.lasting] using hreports₁.trans hreports₂.symm
  · have hstrictly : tree.Undisturbed true :=
      everywhere_iff.2 fun n hn => ⟨hheaders n hn, fun _ => hbranches n hn⟩
    obtain ⟨-, -, -, -, hreports₁⟩ := exists_tree_of_undisturbed h hstrictly h₁
    obtain ⟨-, -, -, -, hreports₂⟩ := exists_tree_of_undisturbed h hstrictly h₂
    simpa [Report.lasting] using hreports₁.trans hreports₂.symm

/-- A variable is undeclared, but not in the FOR statement that lacks its limit, nor in the branch
that lacks its semicolon. -/
theorem agreement_of_tree_assigned :
    let source : Text := "PROGRAM p; BEGIN FOR i := 2 DO; CASE i OF 1: i := 3 2: END; i := x END."
    let p₁ := parse source .empty #[]
    let p₂ := parse source ⟨[("x", .nothing)]⟩ #[]
    ∃ tree₁ tree₂, p₁.tree = .ok tree₁ ∧ p₂.tree = .ok tree₂ ∧ tree₁.unbind = tree₂.unbind ∧
      p₁.reports.toList.filter (·.kind ≠ .semantic) =
        p₂.reports.toList.filter (·.kind ≠ .semantic) ∧
      p₁.reports.size = 3 ∧ p₂.reports.size = 2 := by
  intro source p₁ p₂
  have hread : p₁.tree.toOption.isSome = true ∧
      (p₁.tree.toOption.all fun tree =>
        (∀ n ∈ tree.preorder, n.kind = .forLoop → n.children.length < 3 → n.Bound) ∧
          ∀ n ∈ tree.preorder, n.kind = .selectBranch → n.Bound) = true ∧
      p₁.reports.size = 3 ∧ p₂.reports.size = 2 := by decide +kernel
  obtain ⟨hsome, hall, hsize⟩ := hread
  obtain ⟨tree, htree⟩ := Option.isSome_iff_exists.1 hsome
  rw [htree, Option.all_some, decide_eq_true_iff] at hall
  obtain ⟨tree₁, tree₂, htree₁, htree₂, hunbind, -, -, hreports⟩ :=
    agreement_of_tree (eq_ok_of_toOption htree) (List.Subset.refl _) (List.nil_subset _) hall.1
  exact ⟨tree₁, tree₂, htree₁, htree₂, hunbind, hreports hall.2, hsize⟩

/-- An undeclared variable in the header of a FOR statement hides that its DO is missing. Then
nothing is skipped, and what would have been skipped is read as a statement. -/
theorem header_hides_missing_do :
    let source : Text := "PROGRAM p; BEGIN FOR i := x TO 3 writeln(1) END."
    let p := parse source .empty #[]
    let p' := parse source ⟨[("x", .nothing)]⟩ #[]
    p.reports.toList.filter (·.kind ≠ .semantic) = [⟨.syntactic, 1, "Missing ;", "writeln"⟩] ∧
      p'.reports.toList.filter (·.kind ≠ .semantic) =
        [⟨.syntactic, 1, "Expecting DO", "writeln"⟩] ∧
      ∃ tree tree', p.tree = .ok tree ∧ p'.tree = .ok tree' ∧ tree.unbind ≠ tree'.unbind := by
  intro source p p'
  have hread : p.tree.toOption.isSome = true ∧ p'.tree.toOption.isSome = true ∧
      p.reports.toList.filter (·.kind ≠ .semantic) = [⟨.syntactic, 1, "Missing ;", "writeln"⟩] ∧
      p'.reports.toList.filter (·.kind ≠ .semantic) =
        [⟨.syntactic, 1, "Expecting DO", "writeln"⟩] ∧
      (p.tree.toOption.map fun t => t.unbind.preorder.length) ≠
        p'.tree.toOption.map fun t => t.unbind.preorder.length := by decide +kernel
  obtain ⟨hsome, hsome', hreports, hreports', hne⟩ := hread
  obtain ⟨tree, htree⟩ := Option.isSome_iff_exists.1 hsome
  obtain ⟨tree', htree'⟩ := Option.isSome_iff_exists.1 hsome'
  refine ⟨hreports, hreports', tree, tree', eq_ok_of_toOption htree, eq_ok_of_toOption htree',
    fun heq => hne ?_⟩
  rw [htree, htree', Option.map_some, Option.map_some, heq]

end MiniPascal

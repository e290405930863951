import MiniPascal.Proofs.Grammar.Invariant
import MiniPascal.Proofs.Grammar.Soundness.Expression
import MiniPascal.Proofs.Grammar.Totality
import MiniPascal.Proofs.Node.Sketch

/-!
# What readers leave out

Whatever the errors of a program text, its tree is a sketch of a program: a reader may leave parts of
a phrase out, but it puts those that it has in order and never in place of others. Every path of every
reader has to be looked at, those that return early included.

The readers are run under an invariant of cursors, which says from where their tokens are. That is
what the leaves of a sketch show.

* `MiniPascal.Reading.keeps_statement`, `MiniPascal.Reading.keeps_program`: what the readers of the
  grammar give, and that they keep the invariant.
* `MiniPascal.sketched_of_tree`: the tree of a program text with errors or without.
-/

namespace MiniPascal

open Node

/-- At most `k` nodes, which all have the property. -/
structure AtMost (k : Nat) (p : Node → Prop) (ns : List Node) : Prop where
  length_le : ns.length ≤ k
  all : ∀ n ∈ ns, p n

section AtMost

variable {k l : Nat} {p : Node → Prop} {n : Node} {ns ms : List Node}

theorem atMost_nil : AtMost k p [] := ⟨Nat.zero_le k, nofun⟩

theorem atMost_singleton (h : p n) : AtMost 1 p [n] :=
  ⟨Nat.le_refl 1, List.forall_mem_singleton.2 h⟩

theorem AtMost.append (h : AtMost k p ns) (h' : AtMost l p ms) : AtMost (k + l) p (ns ++ ms) where
  length_le := by
    rw [List.length_append]
    exact Nat.add_le_add h.length_le h'.length_le
  all := List.forall_mem_append.2 ⟨h.all, h'.all⟩

theorem AtMost.imp {q : Node → Prop} (h : AtMost k p ns) (hpq : ∀ n, p n → q n) : AtMost k q ns :=
  ⟨h.length_le, fun n hn => hpq n (h.all n hn)⟩

end AtMost

namespace Token

variable {ls : List Lexeme} {negative : Bool} {t : Token} {n : Node}

theorem sketched_of_integerNode? (ht : t.kind ≠ .endOfFile → .token t ∈ ls)
    (h : t.integerNode? negative = some n) : Sketched ls .integer n := by
  unfold integerNode? at h
  split at h
  · rename_i k hk
    cases h
    exact .integer _ ⟨t, ht (by simp [hk]), .integer negative hk⟩
  · cases h

theorem sketched_of_numberNode? (ht : t.kind ≠ .endOfFile → .token t ∈ ls)
    (h : t.numberNode? negative = some n) : Sketched ls .constant n := by
  unfold numberNode? at h
  split at h
  · rename_i x hx
    cases h
    exact .real _ ⟨t, ht (by simp [hx]), .real negative hx⟩
  · exact .number (sketched_of_integerNode? ht h)

theorem sketched_of_stringNode? (ht : t.kind ≠ .endOfFile → .token t ∈ ls)
    (h : t.stringNode? = some n) : Sketched ls .constant n := by
  unfold stringNode? at h
  split at h <;> rename_i hk
  · cases h
    exact .string _ ⟨t, ht (by simp [hk]), .character hk⟩
  · cases h
    exact .string _ ⟨t, ht (by simp [hk]), .string hk⟩
  · cases h

end Token

namespace Reading

variable {ls : List Lexeme} {J : Cursor → Prop} {c : Cursor}
  {inner operand factor : Reading (Option Node)}

/-- What an optional part is. -/
abbrev Part (ls : List Lexeme) (role : Role) (o : Option Node) : Prop :=
  AtMost 1 (Sketched ls role) o.toList

variable (hJ : Cursor.Invariant ls J)
include hJ

/-! ### Leaves -/

theorem keeps_reject_none {role : Role} (w : Complaint) :
    Keeps J (do reject w; return none) (Part ls role) :=
  (keeps_reject hJ w).bind fun _ _ => keeps_pure atMost_nil

theorem keeps_leaf {role : Role} {n : Node} (h : Sketched ls role n) :
    Keeps J (do advance; return some n) (Part ls role) :=
  (keeps_advance hJ).bind fun _ _ => keeps_pure (atMost_singleton h)

theorem keepsAt_variableUse (hk : c.current.kind = .identifier) :
    KeepsAt J c variableUse (Sketched ls .variable) := by
  refine .of_invariant fun hc => .current_bind ?_
  have hheld : Shown ls .var c.current.text .null :=
    ⟨c.current, hJ.held hc (by simp [hk]), .var hk⟩
  by_cases h : c.table.contains c.current.text = true
  · refine fun _ _ hact => (keeps_advance hJ).bind (fun _ _ => keeps_pure ?_) c
      ((congrFun (if_pos h) c).symm.trans hact)
    exact .var _ hheld fun key hkey => (Option.some.inj hkey).symm
  · refine fun _ _ hact => (keeps_complain hJ .undeclared).bind (fun _ _ =>
      (keeps_advance hJ).bind fun _ _ => keeps_pure ?_) c ((congrFun (if_neg h) c).symm.trans hact)
    exact .var _ hheld nofun

theorem keeps_signedConstant {node? : Bool → Token → Option Node} {role : Role}
    (hnode : ∀ {negative t n}, (t.kind ≠ .endOfFile → .token t ∈ ls) →
      node? negative t = some n → Sketched ls role n) (w : Complaint) :
    Keeps J (signedConstant node? w) (Part ls role) := by
  have behind (negative : Bool) : Keeps J (constantBehind node? w negative) (Part ls role) := by
    refine fun c => .of_invariant fun hc => .current_bind ?_
    split
    · rename_i h
      exact keeps_leaf hJ (hnode (hJ.held hc) h) c
    · exact keeps_reject_none hJ w c
  refine .kind_bind fun _ => ?_
  dsimp only
  split
  · exact (keeps_advance hJ).bind fun _ _ => behind _
  · exact behind _

theorem keeps_signedNumber (w : Complaint) : Keeps J (signedNumber w) (Part ls .constant) :=
  keeps_signedConstant hJ Token.sketched_of_numberNode? w

theorem keeps_signedInteger (w : Complaint) : Keeps J (signedInteger w) (Part ls .integer) :=
  keeps_signedConstant hJ Token.sketched_of_integerNode? w

/-- A number where a leaf may stand. -/
theorem keeps_number (w : Complaint) : Keeps J (signedNumber w) (Part ls .leaf) := fun c =>
  (keeps_signedNumber hJ w c).imp fun _ h => h.imp fun _ => .ofConstant

/-! ### Expressions -/

theorem keeps_chain (level : Level) (ho : Keeps J operand (Part ls .expression)) :
    ∀ k left, Part ls .expression left →
      Keeps J (chain level.operator? operand k left) (Part ls .expression)
  | 0, _, _ => keeps_throw
  | k + 1, left, hleft => by
    refine .current_bind fun t => ?_
    split
    · exact keeps_pure hleft
    · rename_i kind hkind
      refine (keeps_advance hJ).bind fun _ _ => ho.bind fun right hright =>
        keeps_chain level ho k (some _) (atMost_singleton ?_)
      have hboth := hleft.append hright
      exact .binary _ (Level.isBinary_of_operator? hkind) hboth.length_le hboth.all

theorem keeps_termOf (hf : Keeps J factor (Part ls .expression)) :
    Keeps J (termOf factor) (Part ls .expression) :=
  hf.bind fun left hleft => .budget_bind fun k =>
    keeps_chain hJ .term hf k left hleft

theorem keeps_simpleOf (hf : Keeps J factor (Part ls .expression)) :
    Keeps J (simpleOf factor) (Part ls .expression) :=
  (keeps_termOf hJ hf).bind fun left hleft => .budget_bind fun k =>
    keeps_chain hJ .simple (keeps_termOf hJ hf) k left hleft

theorem keeps_expressionOf (hf : Keeps J factor (Part ls .expression)) :
    Keeps J (expressionOf factor) (Part ls .expression) := by
  refine (keeps_simpleOf hJ hf).bind fun left hleft => .current_bind fun t => ?_
  split
  · exact keeps_pure hleft
  · rename_i kind hkind
    refine (keeps_advance hJ).bind fun _ _ => (keeps_simpleOf hJ hf).bind fun right hright =>
      keeps_pure (atMost_singleton ?_)
    have hboth := hleft.append hright
    exact .binary _ (Token.Kind.isBinary_of_relation? hkind) hboth.length_le hboth.all

theorem keeps_factorOf (hi : Keeps J inner (Part ls .expression)) :
    Keeps J (factorOf inner) (Part ls .expression) := by
  have leaf {o : Option Node} (h : Part ls .leaf o) : Part ls .expression o := h.imp fun _ => .ofLeaf
  refine fun c => .of_invariant fun hc => .current_bind ?_
  split
  · refine ((keeps_advance hJ).bind fun _ _ => hi.bind fun operand ho => keeps_pure ?_) c
    exact atMost_singleton (.not _ ho.length_le ho.all)
  · rename_i hk
    exact .map ((keepsAt_variableUse hJ hk).imp fun _ hv => leaf (atMost_singleton (.ofVariable hv)))
  · exact (keeps_number hJ _ c).imp fun _ => leaf
  · exact (keeps_number hJ _ c).imp fun _ => leaf
  · exact (keeps_number hJ _ c).imp fun _ => leaf
  · exact ((keeps_advance hJ).bind fun _ _ => (keeps_expressionOf hJ hi).bind fun node hnode =>
      (keeps_expect hJ _ _).bind fun _ _ => keeps_pure hnode) c
  · split
    · rename_i h
      have hs := Token.sketched_of_stringNode? (hJ.held hc) h
      exact keeps_leaf hJ (.ofLeaf (.ofConstant hs)) c
    · exact keeps_reject_none hJ _ c

theorem keeps_factor : ∀ k, Keeps J (Reading.factor k) (Part ls .expression)
  | 0 => keeps_throw
  | k + 1 => keeps_factorOf hJ (keeps_factor k)

theorem keeps_expression : Keeps J expression (Part ls .expression) :=
  .budget_bind fun k => keeps_expressionOf hJ (keeps_factor hJ k)

/-! ### Lists of statements -/

omit hJ in
theorem keeps_nested (hi : Keeps J inner (Part ls .statement)) :
    Keeps J (nested inner) (Sketched ls .statement) := by
  refine .current_bind fun t => hi.bind fun node hnode => ?_
  cases node with
  | some node => exact keeps_pure (hnode.all node List.mem_cons_self)
  | none => exact keeps_pure (.compound _ nofun)

theorem keeps_statementRound (hi : Keeps J inner (Part ls .statement)) (terminal : Token.Kind) :
    Keeps J (statementRound inner terminal) (Part ls .statement) :=
  .get_bind fun start => hi.bind fun _ hnode =>
    (keeps_separator hJ terminal start).bind fun _ _ => keeps_pure hnode

theorem keeps_statements (hi : Keeps J inner (Part ls .statement)) (terminal : Token.Kind) :
    ∀ k, Keeps J (statements inner terminal k) fun ns => ∀ n ∈ ns, Sketched ls .statement n
  | 0 => keeps_throw
  | k + 1 => by
    refine .kind_bind fun _ => ?_
    split
    · exact keeps_pure nofun
    · exact (keeps_statementRound hJ hi terminal).bind fun _ hfirst =>
        (keeps_statements hi terminal k).bind fun _ hrest =>
          keeps_pure (List.forall_mem_append.2 ⟨hfirst.all, hrest⟩)

theorem keeps_compoundOf (hi : Keeps J inner (Part ls .statement)) :
    Keeps J (compoundOf inner) fun n => n.kind = .compound ∧ Sketched ls .statement n :=
  .current_bind fun _ => (keeps_advance hJ).bind fun _ _ => .budget_bind fun k =>
    (keeps_statements hJ hi _ k).bind fun _ hns => (keeps_expect hJ _ _).bind fun _ _ =>
      keeps_pure ⟨rfl, .compound _ hns⟩

/-! ### Assignments -/

theorem keeps_rightSide : Keeps J rightSide (Part ls .expression) := by
  refine (keeps_expect hJ _ _).bind fun _ _ => ?_
  split
  · exact keeps_expression hJ
  · exact keeps_pure atMost_nil

/-- An assignment has its target, whatever comes behind. -/
theorem keepsAt_assignment (hk : c.current.kind = .identifier) :
    KeepsAt J c assignment (Sketched ls .assignment) := by
  refine .of_invariant fun hc => .current_bind ?_
  have hheld : Shown ls .var c.current.text .null :=
    ⟨c.current, hJ.held hc (by simp [hk]), .var hk⟩
  refine ((keeps_enter hJ _).bind fun _ _ => (keeps_advance hJ).bind fun _ _ =>
    (keeps_rightSide hJ).bind fun value hvalue => keeps_pure ?_) c
  exact .assign _ (.var _ hheld fun key hkey => (Option.some.inj hkey).symm) (by simp)
    hvalue.length_le hvalue.all

/-! ### Choices and loops -/

theorem keeps_alternative (hi : Keeps J inner (Part ls .statement)) :
    Keeps J (alternative inner) (AtMost 1 (Sketched ls .statement)) := by
  refine .kind_bind fun _ => ?_
  split
  · exact (keeps_advance hJ).bind fun _ _ => (keeps_nested hi).bind fun _ hn =>
      keeps_pure (atMost_singleton hn)
  · exact keeps_pure atMost_nil

theorem keeps_thenPart (hi : Keeps J inner (Part ls .statement)) :
    Keeps J (thenPart inner) (AtMost 2 (Sketched ls .statement)) := by
  refine .kind_bind fun _ => ?_
  split
  · exact (keeps_advance hJ).bind fun _ _ => (keeps_nested hi).bind fun _ hn =>
      (keeps_alternative hJ hi).bind fun _ he => keeps_pure ((atMost_singleton hn).append he)
  · exact keeps_pure atMost_nil

theorem keeps_consequences (hi : Keeps J inner (Part ls .statement)) :
    Keeps J (consequences inner) (AtMost 2 (Sketched ls .statement)) := by
  refine .kind_bind fun _ => ?_
  dsimp only
  split
  · exact (keeps_reject hJ _).bind fun _ _ => keeps_thenPart hJ hi
  · exact keeps_thenPart hJ hi

theorem keeps_conditionalOf (hi : Keeps J inner (Part ls .statement)) :
    Keeps J (conditionalOf inner) (Sketched ls .statement) :=
  .current_bind fun _ => (keeps_advance hJ).bind fun _ _ => (keeps_expression hJ).bind fun _ he =>
    (keeps_consequences hJ hi).bind fun _ hs =>
      keeps_pure (.conditional _ he.length_le he.all hs.length_le hs.all)

theorem keeps_body (hi : Keeps J inner (Part ls .statement)) :
    Keeps J (body inner) (AtMost 1 (Sketched ls .statement)) := by
  refine .kind_bind fun _ => ?_
  split
  · exact (keeps_advance hJ).bind fun _ _ => (keeps_nested hi).bind fun _ hn =>
      keeps_pure (atMost_singleton hn)
  · exact keeps_pure atMost_nil

theorem keeps_whileOf (hi : Keeps J inner (Part ls .statement)) :
    Keeps J (whileOf inner) (Sketched ls .statement) := by
  refine .current_bind fun _ => (keeps_advance hJ).bind fun _ _ =>
    (keeps_expression hJ).bind fun _ he => .kind_bind fun _ => ?_
  dsimp only
  split
  · exact (keeps_reject hJ _).bind fun _ _ => (keeps_body hJ hi).bind fun _ hs =>
      keeps_pure (.whileLoop _ he.length_le he.all hs.length_le hs.all)
  · exact (keeps_body hJ hi).bind fun _ hs =>
      keeps_pure (.whileLoop _ he.length_le he.all hs.length_le hs.all)

theorem keeps_untilTest : Keeps J untilTest (AtMost 1 (Sketched ls .test)) := by
  refine .current_bind fun _ => (keeps_expect hJ _ _).bind fun _ _ => ?_
  split
  · exact (keeps_expression hJ).bind fun _ he =>
      keeps_pure (atMost_singleton (.test _ he.length_le he.all))
  · exact keeps_pure atMost_nil

theorem keeps_repeatOf (hi : Keeps J inner (Part ls .statement)) :
    Keeps J (repeatOf inner) (Sketched ls .statement) :=
  .current_bind fun _ => (keeps_advance hJ).bind fun _ _ => .budget_bind fun k =>
    (keeps_statements hJ hi _ k).bind fun _ hns => (keeps_untilTest hJ).bind fun _ ht =>
      keeps_pure (.loop _ hns ht.length_le ht.all)

theorem keeps_controlAssignment : Keeps J controlAssignment (AtMost 1 (Sketched ls .assignment)) := by
  refine fun c => .kind_bind ?_
  split
  · rename_i hk
    exact (keepsAt_assignment hJ hk).bind fun _ ha => keeps_pure (atMost_singleton ha)
  · exact ((keeps_reject hJ _).bind fun _ _ => keeps_pure atMost_nil) c

theorem keeps_limit (reports : Nat) :
    Keeps J (limit reports) (AtMost 1 (Sketched ls .expression)) := by
  refine .kind_bind fun _ => ?_
  split
  · exact (keeps_advance hJ).bind fun _ _ => (keeps_expression hJ).bind fun _ he => keeps_pure he
  · exact (keeps_advance hJ).bind fun _ _ => (keeps_expression hJ).bind fun _ he => keeps_pure he
  · refine .reportCount_bind fun _ => ?_
    dsimp only
    split
    · exact (keeps_reject hJ _).bind fun _ _ => keeps_pure atMost_nil
    · exact keeps_pure atMost_nil

theorem keeps_forOf (hi : Keeps J inner (Part ls .statement)) :
    Keeps J (forOf inner) (Sketched ls .statement) := by
  refine .current_bind fun _ => (keeps_advance hJ).bind fun _ _ => .reportCount_bind fun reports =>
    (keeps_controlAssignment hJ).bind fun _ ha => .kind_bind fun _ =>
      (keeps_limit hJ reports).bind fun _ he => .kind_bind fun _ => .reportCount_bind fun _ => ?_
  dsimp only
  split
  · exact (keeps_reject hJ _).bind fun _ _ => (keeps_body hJ hi).bind fun _ hs =>
      keeps_pure (.forLoop _ _ ha.length_le ha.all he.length_le he.all hs.length_le hs.all)
  · exact (keeps_body hJ hi).bind fun _ hs =>
      keeps_pure (.forLoop _ _ ha.length_le ha.all he.length_le he.all hs.length_le hs.all)

/-! ### CASE statements -/

theorem keeps_label : Keeps J label (Part ls .constant) := by
  refine fun c => .of_invariant fun hc => .current_bind ?_
  split
  · rename_i h
    exact keeps_leaf hJ (Token.sketched_of_stringNode? (hJ.held hc) h) c
  · exact keeps_signedNumber hJ _ c

theorem keeps_moreLabels :
    ∀ k, Keeps J (moreLabels k) fun ns => ∀ n ∈ ns, Sketched ls .constant n
  | 0 => keeps_throw
  | k + 1 => by
    refine .kind_bind fun _ => ?_
    split
    · have hround : Keeps J labelRound (Part ls .constant) :=
        (keeps_advance hJ).bind fun _ _ => keeps_label hJ
      exact hround.bind fun _ hfirst => (keeps_moreLabels k).bind fun _ hrest =>
        keeps_pure (List.forall_mem_append.2 ⟨hfirst.all, hrest⟩)
    · exact keeps_pure nofun

theorem keeps_labels : Keeps J labels (Sketched ls .labels) :=
  .current_bind fun _ => (keeps_label hJ).bind fun _ hfirst => .budget_bind fun k =>
    (keeps_moreLabels hJ k).bind fun _ hrest =>
      keeps_pure (.labels _ (List.forall_mem_append.2 ⟨hfirst.all, hrest⟩))

theorem keeps_branchStatement (hi : Keeps J inner (Part ls .statement)) (reports : Nat) :
    Keeps J (branchStatement inner reports) (AtMost 1 (Sketched ls .statement)) := by
  refine .kind_bind fun _ => ?_
  split
  · exact (keeps_advance hJ).bind fun _ _ => (keeps_nested hi).bind fun _ hn =>
      keeps_pure (atMost_singleton hn)
  · refine .reportCount_bind fun _ => ?_
    dsimp only
    split
    · exact (keeps_reject hJ _).bind fun _ _ => keeps_pure atMost_nil
    · exact keeps_pure atMost_nil

theorem keeps_branchRound (hi : Keeps J inner (Part ls .statement)) :
    Keeps J (branchRound inner) fun ns => ∀ n ∈ ns, Sketched ls .branch n := by
  refine .get_bind fun start => ?_
  split
  · exact (keeps_advance hJ).bind fun _ _ => keeps_pure nofun
  · exact (keeps_labels hJ).bind fun _ hl => (keeps_branchStatement hJ hi _).bind fun _ hs =>
      (keeps_branchSeparator hJ start).bind fun _ _ =>
        keeps_pure (List.forall_mem_singleton.2 (.branch _ hl hs.length_le hs.all))

theorem keeps_branches (hi : Keeps J inner (Part ls .statement)) :
    ∀ k, Keeps J (branches inner k) fun ns => ∀ n ∈ ns, Sketched ls .branch n
  | 0 => keeps_throw
  | k + 1 => by
    refine .kind_bind fun _ => ?_
    split
    · exact keeps_pure nofun
    · exact (keeps_branchRound hJ hi).bind fun _ hfirst => (keeps_branches hi k).bind fun _ hrest =>
        keeps_pure (List.forall_mem_append.2 ⟨hfirst, hrest⟩)

theorem keeps_ofPart (hi : Keeps J inner (Part ls .statement)) :
    Keeps J (ofPart inner) fun ns => ∀ n ∈ ns, Sketched ls .branch n := by
  refine .kind_bind fun _ => ?_
  split
  · exact (keeps_advance hJ).bind fun _ _ => .budget_bind fun k =>
      (keeps_branches hJ hi k).bind fun _ hns => (keeps_expect hJ _ _).bind fun _ _ =>
        keeps_pure hns
  · exact keeps_pure nofun

theorem keeps_branchesPart (hi : Keeps J inner (Part ls .statement)) :
    Keeps J (branchesPart inner) fun ns => ∀ n ∈ ns, Sketched ls .branch n := by
  refine .kind_bind fun _ => ?_
  dsimp only
  split
  · exact (keeps_reject hJ _).bind fun _ _ => keeps_ofPart hJ hi
  · exact keeps_ofPart hJ hi

theorem keeps_selectOf (hi : Keeps J inner (Part ls .statement)) :
    Keeps J (selectOf inner) (Sketched ls .statement) :=
  .current_bind fun _ => (keeps_advance hJ).bind fun _ _ => (keeps_expression hJ).bind fun _ he =>
    (keeps_branchesPart hJ hi).bind fun _ hb => keeps_pure (.select _ he.length_le he.all hb)

/-! ### WRITE statements -/

theorem keeps_writeArgument : Keeps J writeArgument (Part ls .leaf) := by
  refine fun c => .of_invariant fun hc => .current_bind ?_
  split
  · rename_i hk
    exact .map ((keepsAt_variableUse hJ hk).imp fun _ hv => atMost_singleton (.ofVariable hv))
  · exact keeps_number hJ _ c
  · exact keeps_number hJ _ c
  · exact keeps_number hJ _ c
  · split
    · rename_i h
      exact keeps_leaf hJ (.ofConstant (Token.sketched_of_stringNode? (hJ.held hc) h)) c
    · exact keeps_reject_none hJ _ c

theorem keeps_formatPart (w : Complaint) :
    Keeps J (formatPart w) fun part => Part ls .integer part.join := by
  refine .kind_bind fun _ => ?_
  split
  · exact (keeps_advance hJ).bind fun _ _ => (keeps_signedInteger hJ w).bind fun _ hn =>
      keeps_pure hn
  · exact keeps_pure atMost_nil

theorem keeps_writeFormat :
    Keeps J writeFormat fun format => AtMost 2 (Sketched ls .integer) format.1 := by
  refine (keeps_formatPart hJ _).bind fun width hwidth => ?_
  split
  · exact keeps_pure atMost_nil
  · exact keeps_pure atMost_nil
  · refine (keeps_formatPart hJ _).bind fun places hplaces => ?_
    have hboth := hwidth.append hplaces
    split
    · exact keeps_pure hboth
    · exact keeps_pure hboth
    · exact keeps_pure hboth

/-- A field width stands behind an argument only. -/
theorem keeps_writeArguments :
    Keeps J writeArguments fun ns => ns = [] ∨ ∃ n ms, ns = n :: ms ∧ Sketched ls .leaf n ∧
      AtMost 2 (Sketched ls .integer) ms := by
  refine (keeps_expect hJ _ _).bind fun _ _ => ?_
  split
  · refine (keeps_writeArgument hJ).bind fun argument hargument => ?_
    split
    · exact keeps_pure (.inl rfl)
    · refine (keeps_writeFormat hJ).bind fun format hformat => ?_
      have hns := And.intro (hargument.all _ List.mem_cons_self) hformat
      dsimp only
      split
      · exact (keeps_expect hJ _ _).bind fun _ _ => keeps_pure (.inr ⟨_, _, rfl, hns⟩)
      · exact keeps_pure (.inr ⟨_, _, rfl, hns⟩)
  · exact keeps_pure (.inl rfl)

theorem keeps_writeStatement {kind : Node.Kind} (hk : kind = .write ∨ kind = .writeln) :
    Keeps J (writeStatement kind) (Sketched ls .statement) := by
  refine .current_bind fun _ => (keeps_advance hJ).bind fun _ _ => .kind_bind fun _ => ?_
  split
  · exact keeps_pure (.bareWrite _ hk)
  · refine (keeps_writeArguments hJ).bind fun ns hns => keeps_pure ?_
    rcases hns with rfl | ⟨n, ms, rfl, hn, hms⟩
    · exact .bareWrite _ hk
    · exact .write _ hk hn hms.length_le hms.all

/-! ### All statements -/

theorem keepsAt_identifierStatement (hk : c.current.kind = .identifier) (name : Text) :
    KeepsAt J c (identifierStatement name) (Sketched ls .statement) := by
  unfold identifierStatement
  split
  · exact keeps_writeStatement hJ (.inl rfl) c
  · split
    · exact keeps_writeStatement hJ (.inr rfl) c
    · exact (keepsAt_assignment hJ hk).imp fun _ => .assignment

theorem keeps_statementOf (hi : Keeps J inner (Part ls .statement)) :
    Keeps J (statementOf inner) (Part ls .statement) := by
  have one {act : Reading Node} {c : Cursor} (h : KeepsAt J c act (Sketched ls .statement)) :
      KeepsAt J c (some <$> act) (Part ls .statement) := .map (h.imp fun _ => atMost_singleton)
  refine fun c => .current_bind ?_
  split
  · rename_i hk
    exact one (keepsAt_identifierStatement hJ hk _)
  · exact one ((keeps_compoundOf hJ hi c).imp fun _ h => h.2)
  · exact one (keeps_repeatOf hJ hi c)
  · exact one (keeps_conditionalOf hJ hi c)
  · exact one (keeps_whileOf hJ hi c)
  · exact one (keeps_forOf hJ hi c)
  · exact one (keeps_selectOf hJ hi c)
  · split
    · exact keeps_pure (p := Part ls .statement) atMost_nil c
    · exact keeps_reject_none hJ _ c

theorem keeps_statement : ∀ k, Keeps J (statement k) (Part ls .statement)
  | 0 => keeps_throw
  | k + 1 => keeps_statementOf hJ (keeps_statement k)

/-! ### Programs -/

theorem keeps_programName :
    Keeps J programName fun name => ∀ s ∈ name, Shown ls .program s .null := by
  refine fun c => .of_invariant fun hc => .current_bind ?_
  split
  · rename_i hk
    have hheld : Shown ls .program c.current.text .null :=
      ⟨c.current, hJ.held hc (by simp [hk]), .program hk⟩
    refine ((keeps_enter hJ _).bind fun _ _ => (keeps_advance hJ).bind fun _ _ => keeps_pure ?_) c
    rintro s ⟨⟩
    exact hheld
  · exact ((keeps_reject hJ _).bind fun _ _ => keeps_pure nofun) c

theorem keeps_programBody :
    Keeps J programBody (AtMost 1 fun n => n.kind = .compound ∧ Sketched ls .statement n) := by
  refine .kind_bind fun _ => ?_
  split
  · exact .budget_bind fun k => (keeps_compoundOf hJ (keeps_statement hJ k)).bind fun _ hn =>
      keeps_pure (atMost_singleton hn)
  · exact (keeps_reject hJ _).bind fun _ _ => keeps_pure atMost_nil

/-- **The tree of a program is a sketch**, and reading it keeps an invariant that holds as soon as the
first token is in hand. -/
theorem keeps_program {tree : Node} {c' : Cursor} (h : program c = .ok tree c')
    (hfirst : ∀ {u c₁}, advance c = .ok u c₁ → J c₁) : J c' ∧ Sketched ls .program tree := by
  rw [program] at h
  obtain ⟨_, c₁, hadvance, h⟩ := bind_eq_ok.1 h
  refine Keeps.current_bind (fun _ => (keeps_expect hJ _ _).bind fun _ _ =>
    (keeps_programName hJ).bind fun name hname => (keeps_expect hJ _ _).bind fun _ _ =>
      (keeps_programBody hJ).bind fun _ hbody => (keeps_programEnd hJ).bind fun _ _ =>
        (keeps_logProgram hJ name).bind fun _ _ => keeps_pure ?_) c₁ h (hfirst hadvance)
  exact .program _ hname hbody.length_le (fun n hn => (hbody.all n hn).1)
    fun n hn => (hbody.all n hn).2

omit hJ in
/-- A rejected token is reported first. -/
theorem reports_of_reject {w : Complaint} {u : Unit} {c' : Cursor} (h : reject w c = .ok u c') :
    ∃ added, c'.reports.toList = c.reports.toList ++
      ⟨w.reportKind, c.current.line, w.message, c.current.text⟩ :: added := by
  obtain ⟨_, c₁, hcomplain, hskip⟩ := bind_eq_ok.1 h
  rw [budget_bind] at hskip
  obtain ⟨added, hadded⟩ := ((steady_skip _ _).follows hskip).reports
  cases hcomplain
  refine ⟨added, ?_⟩
  rw [hadded, Array.toList_push, List.append_assoc, List.singleton_append]

omit hJ in
/-- A name that is missing is reported. -/
theorem reports_of_programName {c' : Cursor} (h : programName c = .ok none c') :
    ∃ r added, r.message = Complaint.expectingName.message ∧
      c'.reports.toList = c.reports.toList ++ r :: added := by
  rw [programName, current_bind] at h
  split at h
  · rw [modify_bind] at h
    obtain ⟨_, c₁, -, hpure⟩ := bind_eq_ok.1 h
    cases (pure_eq_ok.1 hpure).1
  · obtain ⟨_, c₁, hreject, hpure⟩ := bind_eq_ok.1 h
    obtain ⟨-, rfl⟩ := pure_eq_ok.1 hpure
    obtain ⟨added, hadded⟩ := reports_of_reject hreject
    exact ⟨_, added, rfl, hadded⟩

omit hJ in
/-- **A program goes without a name only if that is reported.** -/
theorem reported_of_program {tree : Node} {c' : Cursor} (h : program c = .ok tree c')
    (htext : tree.text = .null) :
    ∃ added, c'.reports.toList = c.reports.toList ++ added ∧
      ∃ r ∈ added, r.message = Complaint.expectingName.message := by
  rw [program] at h
  obtain ⟨_, c₁, hadvance, h⟩ := bind_eq_ok.1 h
  rw [current_bind] at h
  obtain ⟨_, c₂, hkeyword, h⟩ := bind_eq_ok.1 h
  obtain ⟨name, c₃, hname, h⟩ := bind_eq_ok.1 h
  obtain ⟨_, c₄, hsemicolon, h⟩ := bind_eq_ok.1 h
  obtain ⟨children, c₅, hbody, h⟩ := bind_eq_ok.1 h
  obtain ⟨_, c₆, hend, h⟩ := bind_eq_ok.1 h
  obtain ⟨_, c₇, hlog, h⟩ := bind_eq_ok.1 h
  obtain ⟨rfl, rfl⟩ := pure_eq_ok.1 h
  cases name with
  | some name => cases htext
  | none =>
    have hbefore := (follows_advance hadvance).trans ((steady_expect (n := 0) _ _ _).follows hkeyword)
    have hbehind := ((steady_expect (n := 0) _ _ _).follows hsemicolon).trans <|
      ((steady_programBody (n := 0) _).follows hbody).trans <|
        ((steady_programEnd (n := 0) _).follows hend).trans <|
          (steady_logProgram (n := 0) _ _).follows hlog
    obtain ⟨before, hbefore⟩ := hbefore.reports
    obtain ⟨behind, hbehind⟩ := hbehind.reports
    obtain ⟨r, skipped, hr, hmissing⟩ := reports_of_programName hname
    refine ⟨before ++ r :: skipped ++ behind, ?_, r, by simp, hr⟩
    rw [hbehind, hmissing, hbefore]
    simp only [List.append_assoc, List.cons_append]

end Reading

/-! ### The tree of a program text -/

/-- Every token of a cursor is among the given lexemes. -/
structure Cursor.From (ls : List Lexeme) (c : Cursor) : Prop where
  inHand : c.current.kind ≠ .endOfFile → .token c.current ∈ ls
  inFront : ∀ t, .token t ∈ c.rest → .token t ∈ ls

theorem Cursor.invariant_from (ls : List Lexeme) : Cursor.Invariant ls (Cursor.From ls) where
  held h := h.inHand
  advance {c u c'} hact h := by
    rcases Reading.advance_eq_ok hact with ⟨-, rfl⟩ | ⟨t, rest, hrest, rfl⟩
    · exact ⟨fun hk => absurd rfl hk, h.inFront⟩
    · refine ⟨fun _ => h.inFront t (by simp [hrest]), fun t' ht' => h.inFront t' ?_⟩
      rw [hrest]
      exact List.mem_cons_of_mem _ ht'
  complain {w c u c'} hact h := by
    cases hact
    exact ⟨h.inHand, h.inFront⟩
  enter _ h := ⟨h.inHand, h.inFront⟩
  note _ h := ⟨h.inHand, h.inFront⟩

theorem Cursor.from_start (source : Text) (table : SymbolTable) (reports : Array Report) :
    (Cursor.start (.ofSource source reports) table).From (lexemes source) :=
  ⟨fun h => absurd rfl h, fun _ => id⟩

/-- **The tree of a program text**, with errors or without, whatever was declared or reported before.
It is a sketch of a program whose leaves show tokens of the text, the fields of every node fit its
kind, and the program lacks a name only if that is reported. -/
theorem sketched_of_tree {source : Text} {table : SymbolTable} {reports : Array Report} {tree : Node}
    (h : (parse source table reports).tree = .ok tree) :
    Sketched (lexemes source) .program tree ∧
    tree.Everywhere (Node.Fitting (lexemes source)) ∧
    ∃ added, (parse source table reports).reports.toList = reports.toList ++ added ∧
      (tree.text = .null → ∃ r ∈ added, r.message = Complaint.expectingName.message) := by
  obtain ⟨c, hprogram, -, hreports⟩ := exists_cursor_of_tree h
  have hfrom := Cursor.invariant_from (lexemes source)
  obtain ⟨-, hsketch⟩ := Reading.keeps_program hfrom hprogram fun hfirst =>
    hfrom.advance hfirst (Cursor.from_start source table reports)
  refine ⟨hsketch, hsketch.everywhere_fitting, ?_⟩
  by_cases htext : tree.text = .null
  · obtain ⟨added, hadded, hname⟩ := Reading.reported_of_program hprogram htext
    exact ⟨added, (congrArg Array.toList hreports).trans hadded, fun _ => hname⟩
  · obtain ⟨added, hadded⟩ := ((Reading.steady_program (n := 0) _).follows hprogram).reports
    exact ⟨added, (congrArg Array.toList hreports).trans hadded, fun h => absurd h htext⟩

/-- Here the program has no name and the FOR loop no limit, the condition is a product of one factor,
and a WRITE has nothing to write. -/
theorem sketched_of_tree_unnamed :
    let source : Text := "PROGRAM ; BEGIN IF a * THEN FOR i := 1 DO WRITE() END"
    let p := parse source .empty #[]
    ∃ tree, p.tree = .ok tree ∧ Sketched (lexemes source) .program tree ∧
      tree.Everywhere (Node.Fitting (lexemes source)) ∧
      ∃ r ∈ p.reports.toList, r.message = Complaint.expectingName.message := by
  intro source p
  have hp : (p.tree.toOption.any fun tree => tree.text.isNull) = true := by decide +kernel
  obtain ⟨tree, htree, hnull⟩ := (Option.any_eq_true _ _).1 hp
  have htree := eq_ok_of_toOption htree
  obtain ⟨hsketch, hfitting, added, hadded, hname⟩ := sketched_of_tree htree
  have htext : tree.text = .null := by
    revert hnull
    cases tree.text <;> simp [Datum.isNull]
  rw [hadded]
  exact ⟨tree, htree, hsketch, hfitting, hname htext⟩

end MiniPascal

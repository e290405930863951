import MiniPascal.Grammar.Expression
import MiniPascal.Proofs.Node.Mention

/-!
# The grammar

What a program is, said without reading one: a **derivation** relates a list of tokens to the tree
that they stand for. There is one rule for every form of the language.

    expression : simple [ relation simple ]
    simple     : term { ( + | - | DIV | OR ) term }
    term       : factor { ( * | / | AND ) factor }
    factor     : variable | [ - ] number | string | ( expression ) | NOT factor

Chains of operands group to the left, and so do the rules: a longer chain is a shorter one with an
operator and an operand behind it.

A statement may be empty. Within another statement an empty one becomes an empty compound
statement, and its line is that of the token behind it. This is why the derivations of statements
know the line of the next token.

The grammar is ambiguous in one place. In `IF a THEN IF b THEN s ELSE t` the ELSE may belong to
either IF, and there is a derivation for each.

* `MiniPascal.DerivesExpression`: expressions and their parts.
* `MiniPascal.DerivesStatement`: statements and their parts.
* `MiniPascal.DerivesProgram`: programs.
-/

namespace MiniPascal

/-! ### Leaves -/

/-- The node of an identifier that stands for a variable. -/
def Token.variableNode (t : Token) : Node :=
  { kind := .var, line := t.line, text := .text t.text, slot := some (SymbolTable.key t.text) }

/-- A number that a minus sign may precede, as the given function makes it from its token. -/
inductive DerivesSigned (node? : Bool → Token → Option Node) : List Token → Node → Prop
  | plain {t : Token} {n : Node} : node? false t = some n → DerivesSigned node? [t] n
  | negative {m t : Token} {n : Node} : m.kind = .symbol .minus → node? true t = some n →
    DerivesSigned node? [m, t] n

/-- A constant: a number that a minus sign may precede, or a string. -/
inductive DerivesConstant : List Token → Node → Prop
  | number {ts : List Token} {n : Node} : DerivesSigned Token.numberNode? ts n →
    DerivesConstant ts n
  | string {t : Token} {n : Node} : t.stringNode? = some n → DerivesConstant [t] n

/-! ### Expressions -/

/-- The two kinds of chains. -/
inductive Level
  /-- Factors with multiplicative operators between them. -/
  | term
  /-- Terms with additive operators between them. -/
  | simple

/-- The operator that a token stands for between the operands of a chain. -/
def Level.operator? : Level → Token.Kind → Option Node.Kind
  | term => Token.Kind.multiplicative?
  | simple => Token.Kind.additive?

/-- The parts of expressions. -/
inductive ExpressionPhrase
  | factor
  | chain (level : Level)
  | expression

/-- What the operands of a chain are. -/
def Level.operand : Level → ExpressionPhrase
  | term => .factor
  | simple => .chain .term

/-- **The derivations of expressions.** -/
inductive DerivesExpression : ExpressionPhrase → List Token → Node → Prop
  | var {t : Token} : t.kind = .identifier → DerivesExpression .factor [t] t.variableNode
  | constant {ts : List Token} {n : Node} : DerivesConstant ts n → DerivesExpression .factor ts n
  | not {t : Token} {ts : List Token} {n : Node} : t.kind = .keyword .notKw →
    DerivesExpression .factor ts n →
    DerivesExpression .factor (t :: ts) { kind := .not, line := t.line, children := [n] }
  | parens {l r : Token} {ts : List Token} {n : Node} : l.kind = .symbol .leftParen →
    DerivesExpression .expression ts n → r.kind = .symbol .rightParen →
    DerivesExpression .factor (l :: ts ++ [r]) n
  | operand {level : Level} {ts : List Token} {n : Node} : DerivesExpression level.operand ts n →
    DerivesExpression (.chain level) ts n
  | operator {level : Level} {ts us : List Token} {op : Token} {kind : Node.Kind} {l r : Node} :
    DerivesExpression (.chain level) ts l → level.operator? op.kind = some kind →
    DerivesExpression level.operand us r →
    DerivesExpression (.chain level) (ts ++ op :: us)
      { kind, line := op.line, children := [l, r] }
  | simple {ts : List Token} {n : Node} : DerivesExpression (.chain .simple) ts n →
    DerivesExpression .expression ts n
  | relation {ts us : List Token} {op : Token} {kind : Node.Kind} {l r : Node} :
    DerivesExpression (.chain .simple) ts l → op.kind.relation? = some kind →
    DerivesExpression (.chain .simple) us r →
    DerivesExpression .expression (ts ++ op :: us) { kind, line := op.line, children := [l, r] }

/-! ### Parts of statements -/

/-- An assignment: a variable, the sign for it and an expression. -/
inductive DerivesAssignment : List Token → Node → Prop
  | intro {t b : Token} {ts : List Token} {n : Node} : t.kind = .identifier →
    b.kind = .symbol .becomes → DerivesExpression .expression ts n →
    DerivesAssignment (t :: b :: ts)
      { kind := .assign, line := t.line, children := [t.variableNode, n] }

/-- The labels of a branch, with commas between them. -/
inductive DerivesLabels : List Token → List Node → Prop
  | one {ts : List Token} {n : Node} : DerivesConstant ts n → DerivesLabels ts [n]
  | more {ts us : List Token} {comma : Token} {n : Node} {ns : List Node} :
    DerivesConstant ts n → comma.kind = .symbol .comma → DerivesLabels us ns →
    DerivesLabels (ts ++ comma :: us) (n :: ns)

/-- What a WRITE statement writes: a variable or a constant. -/
inductive DerivesArgument : List Token → Node → Prop
  | var {t : Token} : t.kind = .identifier → DerivesArgument [t] t.variableNode
  | constant {ts : List Token} {n : Node} : DerivesConstant ts n → DerivesArgument ts n

/-- The format of a WRITE statement: nothing, a field width, or a field width and a number of
decimal places. -/
inductive DerivesFormat : List Token → List Node → Prop
  | none : DerivesFormat [] []
  | width {colon : Token} {ts : List Token} {w : Node} : colon.kind = .symbol .colon →
    DerivesSigned Token.integerNode? ts w → DerivesFormat (colon :: ts) [w]
  | places {colon colon' : Token} {ts us : List Token} {w p : Node} :
    colon.kind = .symbol .colon → DerivesSigned Token.integerNode? ts w →
    colon'.kind = .symbol .colon → DerivesSigned Token.integerNode? us p →
    DerivesFormat (colon :: ts ++ colon' :: us) [w, p]

/-- The WRITE statement that an identifier starts, whatever the case of its letters. -/
def Token.writeKind? (t : Token) : Option Node.Kind :=
  if Text.lowercase t.text = "write" then some .write
  else if Text.lowercase t.text = "writeln" then some .writeln
  else none

theorem Token.writeKind?_cases {t : Token} {kind : Node.Kind} (h : t.writeKind? = some kind) :
    kind = .write ∨ kind = .writeln := by
  unfold writeKind? at h
  split at h
  · cases h
    exact .inl rfl
  · split at h <;> cases h
    exact .inr rfl

/-! ### Statements -/

/-- The parts of statements. -/
inductive StatementPhrase
  | statement
  /-- A statement within another one. -/
  | nested
  /-- Statements with semicolons between them. -/
  | statements
  | branch
  /-- Branches with semicolons between them. -/
  | branches

/-- **The derivations of statements** in front of a token on the line `next`. -/
inductive DerivesStatement : StatementPhrase → Nat → List Token → List Node → Prop
  | empty {next : Nat} : DerivesStatement .statement next [] []
  | assignment {next : Nat} {t : Token} {ts : List Token} {n : Node} :
    DerivesAssignment (t :: ts) n → t.writeKind? = none →
    DerivesStatement .statement next (t :: ts) [n]
  | writeln {next : Nat} {t : Token} : t.kind = .identifier → t.writeKind? = some .writeln →
    DerivesStatement .statement next [t] [{ kind := .writeln, line := t.line }]
  | write {next : Nat} {t l r : Token} {kind : Node.Kind} {ts us : List Token} {n : Node}
      {ns : List Node} :
    t.kind = .identifier → t.writeKind? = some kind → l.kind = .symbol .leftParen →
    DerivesArgument ts n → DerivesFormat us ns → r.kind = .symbol .rightParen →
    DerivesStatement .statement next (t :: l :: ts ++ us ++ [r])
      [{ kind, line := t.line, children := n :: ns }]
  | compound {next : Nat} {b e : Token} {ts : List Token} {ns : List Node} :
    b.kind = .keyword .beginKw → DerivesStatement .statements e.line ts ns →
    e.kind = .keyword .endKw →
    DerivesStatement .statement next (b :: ts ++ [e])
      [{ kind := .compound, line := b.line, children := ns }]
  | conditional {next : Nat} {i th : Token} {ts us : List Token} {c s : Node} :
    i.kind = .keyword .ifKw → DerivesExpression .expression ts c → th.kind = .keyword .thenKw →
    DerivesStatement .nested next us [s] →
    DerivesStatement .statement next (i :: ts ++ th :: us)
      [{ kind := .conditional, line := i.line, children := [c, s] }]
  | alternative {next : Nat} {i th el : Token} {ts us vs : List Token} {c s e : Node} :
    i.kind = .keyword .ifKw → DerivesExpression .expression ts c → th.kind = .keyword .thenKw →
    DerivesStatement .nested el.line us [s] → el.kind = .keyword .elseKw →
    DerivesStatement .nested next vs [e] →
    DerivesStatement .statement next (i :: ts ++ th :: us ++ el :: vs)
      [{ kind := .conditional, line := i.line, children := [c, s, e] }]
  | whileLoop {next : Nat} {w d : Token} {ts us : List Token} {c s : Node} :
    w.kind = .keyword .whileKw → DerivesExpression .expression ts c → d.kind = .keyword .doKw →
    DerivesStatement .nested next us [s] →
    DerivesStatement .statement next (w :: ts ++ d :: us)
      [{ kind := .whileLoop, line := w.line, children := [c, s] }]
  | loop {next : Nat} {r u : Token} {ts us : List Token} {ns : List Node} {c : Node} :
    r.kind = .keyword .repeatKw → DerivesStatement .statements u.line ts ns →
    u.kind = .keyword .untilKw → DerivesExpression .expression us c →
    DerivesStatement .statement next (r :: ts ++ u :: us)
      [{ kind := .loop, line := r.line,
         children := ns ++ [{ kind := .test, line := u.line, children := [c] }] }]
  | forLoop {next : Nat} {f way d : Token} {ts us vs : List Token} {a l s : Node} :
    f.kind = .keyword .forKw → DerivesAssignment ts a →
    way.kind = .keyword .toKw ∨ way.kind = .keyword .downtoKw →
    DerivesExpression .expression us l → d.kind = .keyword .doKw →
    DerivesStatement .nested next vs [s] →
    DerivesStatement .statement next (f :: ts ++ way :: us ++ d :: vs)
      [{ kind := .forLoop, line := f.line, descending := way.kind = .keyword .downtoKw,
         children := [a, l, s] }]
  | select {next : Nat} {c o e : Token} {ts us : List Token} {n : Node} {ns : List Node} :
    c.kind = .keyword .caseKw → DerivesExpression .expression ts n → o.kind = .keyword .ofKw →
    DerivesStatement .branches e.line us ns → e.kind = .keyword .endKw →
    DerivesStatement .statement next (c :: ts ++ o :: us ++ [e])
      [{ kind := .select, line := c.line, children := n :: ns }]
  | some {next : Nat} {ts : List Token} {n : Node} : DerivesStatement .statement next ts [n] →
    DerivesStatement .nested next ts [n]
  | none {next : Nat} : DerivesStatement .nested next [] [{ kind := .compound, line := next }]
  | one {next : Nat} {ts : List Token} {ns : List Node} :
    DerivesStatement .statement next ts ns → DerivesStatement .statements next ts ns
  | more {next : Nat} {s : Token} {ts us : List Token} {ns ms : List Node} :
    DerivesStatement .statement s.line ts ns → s.kind = .symbol .semicolon →
    DerivesStatement .statements next us ms →
    DerivesStatement .statements next (ts ++ s :: us) (ns ++ ms)
  | branch {next : Nat} {t colon : Token} {ts us : List Token} {ns : List Node} {s : Node} :
    DerivesLabels (t :: ts) ns → colon.kind = .symbol .colon →
    DerivesStatement .nested next us [s] →
    DerivesStatement .branch next (t :: ts ++ colon :: us)
      [{ kind := .selectBranch, line := t.line,
         children := [{ kind := .selectConstants, line := t.line, children := ns }, s] }]
  | noBranch {next : Nat} : DerivesStatement .branches next [] []
  | noBranchMore {next : Nat} {s : Token} {ts : List Token} {ns : List Node} :
    s.kind = .symbol .semicolon → DerivesStatement .branches next ts ns →
    DerivesStatement .branches next (s :: ts) ns
  | oneBranch {next : Nat} {ts : List Token} {ns : List Node} :
    DerivesStatement .branch next ts ns → DerivesStatement .branches next ts ns
  | moreBranches {next : Nat} {s : Token} {ts us : List Token} {ns ms : List Node} :
    DerivesStatement .branch s.line ts ns → s.kind = .symbol .semicolon →
    DerivesStatement .branches next us ms →
    DerivesStatement .branches next (ts ++ s :: us) (ns ++ ms)

/-! ### Programs -/

/-- The end of a program behind its compound statement: semicolons and a period. The period may
be left out behind a semicolon. -/
inductive DerivesEnding : List Token → Prop
  | period {semicolons : List Token} {p : Token} : (∀ s ∈ semicolons, s.kind = .symbol .semicolon) →
    p.kind = .symbol .period → DerivesEnding (semicolons ++ [p])
  | bare {semicolons : List Token} : (∀ s ∈ semicolons, s.kind = .symbol .semicolon) →
    semicolons ≠ [] → DerivesEnding semicolons

/-- **The derivations of programs.** -/
inductive DerivesProgram : List Token → Node → Prop
  | intro {p name s b e : Token} {ts ending : List Token} {ns : List Node} :
    p.kind = .keyword .programKw → name.kind = .identifier → s.kind = .symbol .semicolon →
    b.kind = .keyword .beginKw → DerivesStatement .statements e.line ts ns →
    e.kind = .keyword .endKw → DerivesEnding ending →
    DerivesProgram (p :: name :: s :: b :: ts ++ e :: ending)
      { kind := .program, line := p.line, text := .text name.text,
        children := [{ kind := .compound, line := b.line, children := ns }] }

/-! ### First tokens -/

/-- A statement is empty, or it starts with a token that starts statements. -/
theorem DerivesStatement.empty_or_starts {next : Nat} {ts : List Token} {ns : List Node}
    (h : DerivesStatement .statement next ts ns) :
    ts = [] ∧ ns = [] ∨ ∃ n t us, ns = [n] ∧ ts = t :: us ∧ t.kind.startsStatement = true := by
  cases h with
  | empty => exact .inl ⟨rfl, rfl⟩
  | assignment h =>
    obtain ⟨hk, -, -⟩ := h
    exact .inr ⟨_, _, _, rfl, rfl, by simp [hk, Token.Kind.startsStatement]⟩
  | _ =>
    refine .inr ⟨_, _, _, rfl, rfl, ?_⟩
    simp_all [Token.Kind.startsStatement]

/-- Semicolons in front of statements are empty statements. -/
theorem DerivesStatement.semicolons_append {next : Nat} {semicolons ts : List Token}
    {ns : List Node} (hs : ∀ s ∈ semicolons, s.kind = .symbol .semicolon)
    (h : DerivesStatement .statements next ts ns) :
    DerivesStatement .statements next (semicolons ++ ts) ns := by
  induction semicolons with
  | nil => exact h
  | cons s semicolons ih =>
    exact .more .empty (hs s (by simp)) (ih fun t ht => hs t (by simp [ht]))

/-- Semicolons in front of branches stand for none. -/
theorem DerivesStatement.semicolons_append_branches {next : Nat} {semicolons ts : List Token}
    {ns : List Node} (hs : ∀ s ∈ semicolons, s.kind = .symbol .semicolon)
    (h : DerivesStatement .branches next ts ns) :
    DerivesStatement .branches next (semicolons ++ ts) ns := by
  induction semicolons with
  | nil => exact h
  | cons s semicolons ih =>
    exact .noBranchMore (hs s (by simp)) (ih fun t ht => hs t (by simp [ht]))

end MiniPascal

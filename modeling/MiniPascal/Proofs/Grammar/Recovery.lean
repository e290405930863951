import MiniPascal.Proofs.Grammar.Sign

/-!
# What one mistake costs

A program is read without any error, and then one mistake is made in it. Two mistakes cost one report
each and nothing else, wherever they are made: a semicolon between two statements that is left out, and
a right-hand side of an assignment that does not start like one.

Behind a statement the reader asks for a semicolon only if the next token cannot start a statement. All
that is to be known of a semicolon that is left out is therefore that the statement in front of it ends
where it did before, which it does unless it ends with a word that a statement is to follow. A bad
right-hand side is skipped up to a token that can follow a statement, whatever is in it. Such a token is
what is behind the assignment, wherever it stands.

What is proved of a mistake in a place holds of every mistake of its kind, since the signs of a program
stand in places.

* `MiniPascal.Reading.readsList_unseparated`: statements without a semicolon between them.
* `MiniPascal.Reading.completeStatement_spoiled`: assignments with a bad right-hand side.
* `MiniPascal.Place.parseFeed_unseparated`, `MiniPascal.Place.parseFeed_spoiled`: the mistakes in a place.
* `MiniPascal.missing_semicolon_reported_once`, `MiniPascal.bad_right_side_reported_once`: the mistakes
  in a program.
-/

namespace MiniPascal

/-- The report that a complaint about a token makes. -/
def Complaint.report (w : Complaint) (t : Token) : Report := ⟨w.reportKind, t.line, w.message, t.text⟩

namespace Reading

open Cursor

variable {tail : Tail} {c : Cursor} {t u v : Token} {gs s ts us : List Token} {ms : List Mention}
  {next : Nat} {n : Node} {ns : List Node}

/-! ### Complaints -/

theorem reads_complain {w : Complaint} (h : Faces tail c (t :: s) ms) :
    ReadsWith [w.report t] tail c (complain w) () (t :: s) ms := by
  refine ⟨_, rfl, ⟨h.ahead, h.clean, ⟨h.tidy.inner, h.tidy.last⟩, h.declared, h.table⟩, ?_⟩
  simp [Complaint.report, h.current]

/-- Tokens are skipped up to one that can follow a statement. -/
theorem reads_skip (hgs : ∀ g ∈ gs, g.kind.followsStatement = false)
    (hu : u.kind.followsStatement = true) {k : Nat} (hk : gs.length < k)
    (hface : Faces tail c (gs ++ u :: s) ms) : Reads tail c (skip k) () (u :: s) ms := by
  induction gs generalizing c k with
  | nil =>
    obtain ⟨k, rfl⟩ : ∃ k', k = k' + 1 := ⟨k - 1, by simp at hk; omega⟩
    refine .kind_bind ?_
    rw [hface.current, if_pos hu]
    exact reads_pure hface _
  | cons g gs ih =>
    obtain ⟨k, rfl⟩ : ∃ k', k = k' + 1 := ⟨k - 1, by simp at hk; omega⟩
    refine .kind_bind ?_
    rw [hface.current, if_neg (by simp [hgs g])]
    refine (reads_advance hface (by simp)).bind fun c₁ h₁ => ?_
    exact ih (fun t ht => hgs t (by simp [ht])) (by simp at hk; omega) h₁

theorem reads_reject {w : Complaint} (hgs : ∀ g ∈ gs, g.kind.followsStatement = false)
    (hu : u.kind.followsStatement = true) (hface : Faces tail c (gs ++ u :: s) ms) :
    ReadsWith [w.report (gs.headD u)] tail c (reject w) () (u :: s) ms := by
  obtain ⟨x, vs, hx, hhead⟩ : ∃ x vs, gs ++ u :: s = x :: vs ∧ gs.headD u = x := by
    cases gs with
    | nil => exact ⟨u, s, rfl, rfl⟩
    | cons g gs => exact ⟨g, gs ++ u :: s, rfl, rfl⟩
  rw [hx] at hface
  rw [hhead]
  refine (reads_complain hface).bind_reads fun c₁ h₁ => .budget_bind ?_
  rw [← hx] at h₁
  have hlen := h₁.length_le
  exact reads_skip hgs hu (by simp at hlen; omega) h₁

/-! ### A semicolon that is left out -/

/-- A finished statement is the same in front of any line. -/
theorem derivesStatement_of_finished {phrase : StatementPhrase}
    (h : DerivesStatement phrase next ts ns) (hphrase : phrase = .statement ∨ phrase = .nested)
    (hfinished : Finished ts) (next' : Nat) : DerivesStatement phrase next' ts ns := by
  -- the line of the next token is that of an empty statement at the end
  induction h with
  | empty => exact .empty
  | assignment ha hw => exact .assignment ha hw
  | writeln hk hw => exact .writeln hk hw
  | write hk hw hl hn hf hr => exact .write hk hw hl hn hf hr
  | compound hb hd he => exact .compound hb hd he
  | conditional hi hc hth _ ih => exact .conditional hi hc hth (ih (.inr rfl) (hfinished.behind (.inl hth)))
  | alternative hi hc hth hs hel _ _ ih =>
    exact .alternative hi hc hth hs hel (ih (.inr rfl) (hfinished.behind (.inr (.inl hel))))
  | whileLoop hw hc hd _ ih =>
    exact .whileLoop hw hc hd (ih (.inr rfl) (hfinished.behind (.inr (.inr hd))))
  | loop hr hd hu hc => exact .loop hr hd hu hc
  | forLoop hf ha hto hl hd _ ih =>
    exact .forLoop hf ha hto hl hd (ih (.inr rfl) (hfinished.behind (.inr (.inr hd))))
  | select hc hn ho hd he => exact .select hc hn ho hd he
  | some _ ih => exact .some (ih (.inl rfl) hfinished)
  | none => exact absurd hfinished not_finished_nil
  | one | more | branch | noBranch | noBranchMore | oneBranch | moreBranches => simp at hphrase

/-- **Statements without a semicolon between them**: it is missed, and the next statement is read. -/
theorem readsList_unseparated {rs : Token → List Report} (ht : t.kind.startsStatement = true)
    (h : CompleteStatement silent v.line (t :: ts) [n]) (hfinished : Finished (t :: ts))
    (hv : v.kind.startsStatement = true) (hrest : ReadsList rs next (v :: us) ns) :
    ReadsList (fun u => Complaint.missingSemicolon.report v :: rs u) next (t :: ts ++ v :: us)
      (n :: ns) := by
  intro d k hd hk tail c u s ms hline hu hnearest hface
  have hld : ts.length + (us.length + 1) + 1 < d := by simpa using hd
  have hlk : ts.length + (us.length + 1) + 1 < k := by simpa using hk
  obtain ⟨k, rfl⟩ : ∃ k', k = k' + 1 := ⟨k - 1, by omega⟩
  obtain ⟨hne, hend⟩ := starts_ne ht hu
  have helse : v.kind ≠ .keyword .elseKw := fun he => by simp [he, Token.Kind.startsStatement] at hv
  have hfits : Fits silent v v.line (t :: ts) [n] :=
    ⟨rfl, .inr ⟨hv, hfinished, fun _ => rfl⟩, by simpa using hnearest n (by simp),
      fun he => absurd he helse⟩
  have hface : Faces tail c (t :: ts ++ v :: (us ++ u :: s))
      (Node.mentionsAll [n] ++ (Node.mentionsAll ns ++ ms)) := by simpa using hface
  obtain ⟨a, ha, hread⟩ := h d (by simp; omega) _ c v _ _ hfits hface
  have hround := reads_round (k := k) hface hne hend hread
    (fun c₁ h₁ => by
      have hcomplain := reads_complain (w := .missingSemicolon) h₁
      obtain ⟨c', h', hrest⟩ := hcomplain
      refine ⟨c', ?_, hrest⟩
      rw [separator, get_bind]
      dsimp only
      rw [h₁.current, if_neg (ne_semicolon_of_starts hv), if_pos hv]
      exact h')
    (fun c₁ h₁ => hrest d k (by simp; omega) (by simp; omega) _ c₁ u s ms hline hu
      (fun m hm => hnearest m (by simp [hm])) h₁)
  simpa [ha] using hround

end Reading

open Reading

/-- What is read without any error is a program of the grammar. -/
theorem exists_program_of_errorCount {feed : Feed} {table : SymbolTable}
    (hinner : ∀ t, .token t ∈ feed.rest → t.kind ≠ .endOfFile)
    (hcount : (parseFeed feed table).errorCount = .ok 0) :
    ∃ ts l tree, feed.rest = ts.map .token ++ l ∧ DerivesProgram ts tree ∧
      (parseFeed feed table).tree = .ok tree := by
  obtain ⟨tree, c, h, hsize⟩ := errorCount_eq_ok.1 hcount
  have hgrows : feed.reports.size ≤ c.reports.size := steady_program.grows h
  obtain ⟨ts, haccepts⟩ := sound_program hinner h (by omega)
  exact ⟨ts, c.ahead, tree, haccepts.rest, haccepts.derives, by rw [parseFeed_of_ok h]⟩

/-- A program that some tokens start with is all of them if no fewer of them hold an END and end with a
semicolon or a period. -/
theorem eq_of_derivesProgram {tokens ts : List Token} {l : List Lexeme} {tree : Node}
    (hd : DerivesProgram ts tree) (hfeed : (Feed.ofTokens tokens).rest = ts.map .token ++ l)
    (hfewer : ∀ k < tokens.length, (∃ t ∈ tokens.take k, t.kind = .keyword .endKw) →
      ∀ t ∈ (tokens.take k).getLast?, t.kind ≠ .symbol .semicolon ∧ t.kind ≠ .symbol .period) :
    ts = tokens ∧ l = [] := by
  obtain ⟨ts', rest, rfl, hts, rfl⟩ := List.map_eq_append_iff.1 hfeed
  obtain rfl : ts' = ts := (List.map_inj_right fun _ _ h => Lexeme.token.inj h).1 hts
  obtain ⟨o, us, ns, rfl, -, -⟩ := hd.exists_outline
  cases rest with
  | nil => exact ⟨(List.append_nil _).symm, rfl⟩
  | cons u rest =>
    have hending := List.getLast?_eq_some_getLast o.derives_ending.ne_nil
    have hlast := o.derives_ending.kind_of_mem _ (List.getLast_mem o.derives_ending.ne_nil)
    have hne := hfewer (o.tokens us).length (by simp)
    rw [List.take_left, o.getLast?_tokens, hending] at hne
    obtain ⟨hsemicolon, hperiod⟩ := hne ⟨o.closing, by simp [Outline.tokens], o.closing_kind⟩ _ rfl
    exact (hlast.elim hsemicolon hperiod).elim

/-- A semicolon is left out between two statements of a list in a place. -/
theorem Place.parseFeed_unseparated (P : Place .statements) {feed : Feed} {table : SymbolTable}
    {l : List Lexeme} {semicolon t : Token} {ts us : List Token} {n : Node} {ns : List Node}
    (hsemicolon : semicolon.kind = .symbol .semicolon)
    (hfirst : DerivesStatement .statement semicolon.line ts [n]) (hfinished : Finished ts)
    (hsecond : t.kind.startsStatement = true) (hrest : DerivesStatement .statements P.line (t :: us) ns)
    (hfeed : feed.rest = (P.tokens (ts ++ semicolon :: t :: us)).map .token ++ l)
    (hinner : ∀ t, .token t ∈ l → t.kind ≠ .endOfFile)
    (htree : (parseFeed feed table).tree = .ok (P.tree (n :: ns)))
    (hcount : (parseFeed feed table).errorCount = .ok 0) :
    let parsed := parseFeed { feed with rest := (P.tokens (ts ++ t :: us)).map .token ++ l } table
    parsed.tree = .ok (P.tree (n :: ns)) ∧ parsed.table = (parseFeed feed table).table ∧
      parsed.reports = #[⟨.syntactic, t.line, "Missing ;", t.text⟩] := by
  obtain ⟨-, ⟨⟩⟩ | ⟨n', v, vs, hn, rfl, hv⟩ := hfirst.empty_or_starts
  have hd : DerivesStatement .statements P.line (v :: vs ++ semicolon :: t :: us) (n :: ns) :=
    .more hfirst hsemicolon hrest
  have hlist : ReadsList (fun _ => [Complaint.missingSemicolon.report t]) P.line (v :: vs ++ t :: us)
      (n :: ns) :=
    readsList_unseparated hv
      (complete_statement (derivesStatement_of_finished hfirst (.inl rfl) hfinished t.line)) hfinished
      hsecond (readsList_of_derives hrest)
  have hproper : ∀ u ∈ v :: vs ++ t :: us, u.Proper := fun u hu => hd.proper u <| by
    rcases List.mem_append.1 hu with hu | hu
    · exact List.mem_append_left _ hu
    · exact List.mem_append_right _ (List.mem_cons_of_mem _ hu)
  exact P.parseFeed_instead hfeed hinner hd trivial htree hcount
    (.of_head (by simpa using ne_semicolon_of_starts hv) hlist) trivial hproper ⟨rfl, id⟩
    (fun _ => id) (fun _ => rfl)

/-- **A missing semicolon costs one report and nothing else.** A program is read without any error. Take a
semicolon in it with a token `t` behind it that starts a statement and a token `u` in front of it behind
which no statement is to begin, so that it is neither another semicolon nor BEGIN or REPEAT, nor THEN,
ELSE or DO. Such a semicolon stands between two statements of a list, the first of which ends with `u`, or
it is that of the heading. If it is left out, it is missed at `t`, and that is all: the tree is the same,
and so is the symbol table. -/
theorem missing_semicolon_reported_once {feed : Feed} {table : SymbolTable}
    (hinner : ∀ t, .token t ∈ feed.rest → t.kind ≠ .endOfFile)
    (hcount : (parseFeed feed table).errorCount = .ok 0) :
    ∃ ts l tree, feed.rest = ts.map .token ++ l ∧ DerivesProgram ts tree ∧
      (parseFeed feed table).tree = .ok tree ∧
      ∀ as u semicolon t bs, ts = as ++ u :: semicolon :: t :: bs →
        semicolon.kind = .symbol .semicolon → 1 < as.length → u.kind.awaitsStatement = false →
        t.kind.startsStatement = true →
        (∃ (P : Place .statements) (us vs : List Token) (n : Node) (ns : List Node),
          as = P.before ++ us ∧ bs = vs ++ P.after ∧ tree = P.tree (n :: ns) ∧
          DerivesStatement .statement semicolon.line (us ++ [u]) [n] ∧
          DerivesStatement .statements P.line (t :: vs) ns) ∧
        let parsed := parseFeed { feed with rest := (as ++ u :: t :: bs).map .token ++ l } table
        parsed.tree = .ok tree ∧ parsed.table = (parseFeed feed table).table ∧
          parsed.reports = #[⟨.syntactic, t.line, "Missing ;", t.text⟩] := by
  obtain ⟨ts, l, tree, hfeed, hd, htree⟩ := exists_program_of_errorCount hinner hcount
  refine ⟨ts, l, tree, hfeed, hd, htree, ?_⟩
  rintro as u s t bs rfl hs has hu ht
  have hl : ∀ t, .token t ∈ l → t.kind ≠ .endOfFile := fun t ht => hinner t (by simp [hfeed, ht])
  have hplace := Place.exists_of_semicolon hs has hu ht hd
  refine ⟨hplace, ?_⟩
  obtain ⟨P, us, vs, n, ns, rfl, rfl, rfl, hfirst, hrest⟩ := hplace
  have hfinished : Finished (us ++ [u]) := by
    refine ⟨u, by simp, ?_, ?_, ?_⟩ <;> intro hk <;> simp [hk, Token.Kind.awaitsStatement] at hu
  have hparsed := P.parseFeed_unseparated hs hfirst hfinished ht hrest
    (by simpa [P.tokens_eq] using hfeed) hl htree hcount
  simpa [P.tokens_eq] using hparsed

/-- In `PROGRAM a; BEGIN BEGIN WRITELN; WRITELN END END.`, with the second semicolon left out. -/
theorem missing_semicolon_reported_once_nested :
    (parseFeed (.ofTokens
      [⟨.keyword .programKw, 1, "PROGRAM"⟩, ⟨.identifier, 1, "a"⟩, ⟨.symbol .semicolon, 1, ";"⟩,
       ⟨.keyword .beginKw, 1, "BEGIN"⟩, ⟨.keyword .beginKw, 2, "BEGIN"⟩,
       ⟨.identifier, 2, "WRITELN"⟩, ⟨.identifier, 3, "WRITELN"⟩, ⟨.keyword .endKw, 3, "END"⟩,
       ⟨.keyword .endKw, 1, "END"⟩, ⟨.symbol .period, 1, "."⟩]) .empty).reports =
      #[⟨.syntactic, 3, "Missing ;", "WRITELN"⟩] := by
  let front : List Token :=
    [⟨.keyword .programKw, 1, "PROGRAM"⟩, ⟨.identifier, 1, "a"⟩, ⟨.symbol .semicolon, 1, ";"⟩,
     ⟨.keyword .beginKw, 1, "BEGIN"⟩, ⟨.keyword .beginKw, 2, "BEGIN"⟩]
  let u : Token := ⟨.identifier, 2, "WRITELN"⟩
  let semicolon : Token := ⟨.symbol .semicolon, 2, ";"⟩
  let t : Token := ⟨.identifier, 3, "WRITELN"⟩
  let back : List Token :=
    [⟨.keyword .endKw, 3, "END"⟩, ⟨.keyword .endKw, 1, "END"⟩, ⟨.symbol .period, 1, "."⟩]
  let tokens := front ++ u :: semicolon :: t :: back
  have hcount : (parseFeed (.ofTokens tokens) .empty).errorCount = .ok 0 :=
    eq_ok_of_toOption (by decide +kernel)
  obtain ⟨ts, l, tree, hfeed, hd, -, hmissing⟩ := missing_semicolon_reported_once
    (show ∀ t, .token t ∈ (Feed.ofTokens tokens).rest → t.kind ≠ .endOfFile by
      simp [Feed.ofTokens, tokens, front, u, semicolon, t, back]) hcount
  obtain ⟨rfl, rfl⟩ := eq_of_derivesProgram hd hfeed (by decide)
  exact (hmissing front u semicolon t back rfl rfl (by decide) rfl rfl).2.2.2

/-! ### A bad right-hand side -/

/-- Tokens that can start a factor. -/
def Token.Kind.startsFactor : Kind → Bool
  | keyword .notKw | identifier | integer _ | real _ | symbol .minus | symbol .leftParen
  | character _ | string _ => true
  | _ => false

/-- Where a statement may be empty, skipping stops, and no factor starts. -/
theorem Token.Kind.follows_of_followsEmpty {k : Token.Kind} (h : k.followsEmptyStatement = true) :
    k.followsStatement = true ∧ k.startsFactor = false := by
  unfold followsEmptyStatement at h
  split at h <;> first | exact ⟨rfl, rfl⟩ | cases h

theorem DerivesExpression.ne_nil {phrase : ExpressionPhrase} {ts : List Token} {n : Node}
    (h : DerivesExpression phrase ts n) : ts ≠ [] := by
  induction h with
  | constant h =>
    cases h with
    | number h => cases h <;> simp
    | string => simp
  | operand _ ih | simple _ ih => exact ih
  | _ => simp

/-- There is no declaration in an expression. -/
theorem DerivesExpression.enterAll_mentions {phrase : ExpressionPhrase} {ts : List Token} {n : Node}
    (h : DerivesExpression phrase ts n) (table : SymbolTable) : table.enterAll n.mentions = table := by
  induction h with
  | var => simp [SymbolTable.enterAll]
  | constant h => simp [h.mentions, SymbolTable.enterAll]
  | not _ _ ih => simpa [Node.mentions_operator] using ih
  | parens _ _ _ ih => exact ih
  | operand _ ih => exact ih
  | operator _ hop _ ihl ihr =>
    simp [Node.mentions_binary (Level.isBinary_of_operator? hop), ihl, ihr]
  | simple _ ih => exact ih
  | relation _ hop _ ihl ihr =>
    simp [Node.mentions_binary (Token.Kind.isBinary_of_relation? hop), ihl, ihr]

namespace Reading

open Cursor

variable {tail : Tail} {c : Cursor} {t u v b : Token} {gs s ts us : List Token} {ms : List Mention}
  {next : Nat}

/-- A token that cannot start a factor is not expected, and what can follow a statement is looked for. -/
theorem reads_spoiled_factor {inner : Reading (Option Node)}
    (hgs : ∀ g ∈ gs, g.kind.followsStatement = false) (hu : u.kind.followsStatement = true)
    (hx : (gs.headD u).kind.startsFactor = false) (hface : Faces tail c (gs ++ u :: s) ms) :
    ReadsWith [Complaint.unexpectedToken.report (gs.headD u)] tail c (factorOf inner) none
      (u :: s) ms := by
  have hcurrent : c.current = gs.headD u := by
    cases gs with
    | nil => exact hface.current
    | cons g gs => exact hface.current
  have hread : ReadsWith [Complaint.unexpectedToken.report (gs.headD u)] tail c
      (do reject .unexpectedToken; return none) (none : Option Node) (u :: s) ms :=
    (reads_reject hgs hu hface).bind_reads fun c₁ h₁ => reads_pure h₁ _
  refine .current_bind ?_
  rw [hcurrent]
  have hstring : (gs.headD u).stringNode? = none := by
    unfold Token.stringNode?
    dsimp only
    split <;> simp_all [Token.Kind.startsFactor]
  split <;> simp_all [Token.Kind.startsFactor]

theorem reads_chain_end {operator? : Token.Kind → Option Node.Kind} {operand : Reading (Option Node)}
    {a : Option Node} {k : Nat} (hu : operator? u.kind = none) (hface : Faces tail c (u :: s) ms) :
    Reads tail c (chain operator? operand (k + 1) a) a (u :: s) ms := by
  rw [chain]
  refine .current_bind ?_
  rw [hface.current, hu]
  exact reads_pure hface _

/-- The same for an expression. -/
theorem reads_spoiled_expression
    (hgs : ∀ g ∈ gs, g.kind.followsStatement = false) (hu : u.kind.followsStatement = true)
    (hend : ExpressionPhrase.expression.EndsAt u.kind)
    (hx : (gs.headD u).kind.startsFactor = false) (hface : Faces tail c (gs ++ u :: s) ms) :
    ReadsWith [Complaint.unexpectedToken.report (gs.headD u)] tail c expression none (u :: s) ms := by
  obtain ⟨hmultiplicative, hadditive, hrelation⟩ := hend
  refine .budget_bind ?_
  have hterm : ReadsWith [Complaint.unexpectedToken.report (gs.headD u)] tail c
      (termOf (factor (c.rest.length + 2))) none (u :: s) ms :=
    (reads_spoiled_factor hgs hu hx hface).bind_reads fun c₁ h₁ =>
      .budget_bind (reads_chain_end hmultiplicative h₁)
  have hsimple : ReadsWith [Complaint.unexpectedToken.report (gs.headD u)] tail c
      (simpleOf (factor (c.rest.length + 2))) none (u :: s) ms :=
    hterm.bind_reads fun c₁ h₁ => .budget_bind (reads_chain_end hadditive h₁)
  refine hsimple.bind_reads fun c₁ h₁ => .current_bind ?_
  rw [h₁.current, hrelation]
  exact reads_pure h₁ _

/-- **An assignment with a bad right-hand side**: what stands there is skipped, and the assignment has
its variable only. -/
theorem completeStatement_spoiled (hv : v.kind = .identifier) (hw : v.writeKind? = none)
    (hb : b.kind = .symbol .becomes) (hgs : ∀ g ∈ gs, g.kind.followsStatement = false)
    (hx : ∀ g ∈ gs.head?, g.kind.startsFactor = false) :
    CompleteStatement (fun u => [Complaint.unexpectedToken.report (gs.headD u)]) next (v :: b :: gs)
      [{ kind := .assign, line := v.line, children := [v.variableNode] }] := by
  refine completeStatement_of_form fun d hd tail c u s ms hfits hface => ?_
  -- there is something to report, so that no statement can follow at once
  have hempty : u.kind.followsEmptyStatement = true :=
    hfits.follows.resolve_right fun ⟨_, _, hnone⟩ => List.cons_ne_nil _ _ (hnone u)
  obtain ⟨hu, hfactor⟩ := Token.Kind.follows_of_followsEmpty hempty
  have hx : (gs.headD u).kind.startsFactor = false := by
    cases gs with
    | nil => exact hfactor
    | cons g gs => exact hx g rfl
  have hface : Faces tail c (v :: b :: (gs ++ u :: s)) (.declares v.text :: ms) := by
    simpa [Node.mentions, Token.variableNode] using hface
  refine reads_identifierStatement hface.current hv ?_
  rw [hw]
  refine .current_bind ?_
  rw [hface.current]
  refine (reads_enter hface).bind fun c₁ h₁ => ?_
  refine (reads_advance h₁ (by simp)).bind fun c₂ h₂ => ?_
  have hright : ReadsWith [Complaint.unexpectedToken.report (gs.headD u)] tail c₂ rightSide none
      (u :: s) ms :=
    (reads_expect h₂ hb (by simp)).bind fun c₃ h₃ =>
      reads_spoiled_expression hgs hu hfits.endsAt hx h₃
  exact hright.bind_reads fun c₃ h₃ => reads_pure h₃ _

end Reading

/-- The right-hand side of an assignment in a place is replaced. -/
theorem Place.parseFeed_spoiled (P : Place .statement) {feed : Feed} {table : SymbolTable}
    {l : List Lexeme} {v b : Token} {es gs : List Token} {e : Node}
    (hv : v.kind = .identifier) (hw : v.writeKind? = none) (hb : b.kind = .symbol .becomes)
    (he : DerivesExpression .expression es e)
    (hgs : ∀ g ∈ gs, g.kind.followsStatement = false ∧ g.isError = false)
    (hx : (gs.headD P.behind).kind.startsFactor = false)
    (hfeed : feed.rest = (P.tokens (v :: b :: es)).map .token ++ l)
    (hinner : ∀ t, .token t ∈ l → t.kind ≠ .endOfFile)
    (htree : (parseFeed feed table).tree =
      .ok (P.tree [{ kind := .assign, line := v.line, children := [v.variableNode, e] }]))
    (hcount : (parseFeed feed table).errorCount = .ok 0) :
    let parsed := parseFeed { feed with rest := (P.tokens (v :: b :: gs)).map .token ++ l } table
    parsed.tree = .ok (P.tree [{ kind := .assign, line := v.line, children := [v.variableNode] }]) ∧
      parsed.table = (parseFeed feed table).table ∧
      parsed.reports = #[Complaint.unexpectedToken.report (gs.headD P.behind)] := by
  have hstarts : v.kind.startsStatement = true := by simp [hv, Token.Kind.startsStatement]
  have hhead : ∀ g ∈ gs.head?, g.kind.startsFactor = false := by
    cases gs with
    | nil => simp
    | cons g gs => simpa using hx
  have hproper : ∀ u ∈ v :: b :: gs, u.Proper := by
    simp only [List.forall_mem_cons]
    refine ⟨Token.proper_of_identifier hv, Token.proper_of_symbol hb, fun g hg => ⟨(hgs g hg).2, ?_⟩⟩
    intro heof
    have := (hgs g hg).1
    simp [heof, Token.Kind.followsStatement] at this
  -- without the right-hand side, the names that it uses are gone
  have hstand : StandFor
      [{ kind := .assign, line := v.line, children := [v.variableNode] }]
      [{ kind := .assign, line := v.line, children := [v.variableNode, e] }] :=
    .single_of_kind (by simp) rfl fun h => by simpa using h v.variableNode (by simp)
  have hmentions (es : List Node) : Node.mentions
      { kind := .assign, line := v.line, children := v.variableNode :: es } =
        .declares v.text :: Node.mentionsAll es := by
    simp [Node.mentions, Token.variableNode]
  exact P.parseFeed_instead hfeed hinner (.assignment (.intro hv hb he) hw)
    ⟨⟨_, _, rfl, hstarts⟩, _, rfl⟩ htree hcount
    (completeStatement_spoiled hv hw hb (fun g hg => (hgs g hg).1) hhead)
    ⟨⟨_, _, rfl, hstarts⟩, _, rfl⟩ hproper hstand (fun _ _ => by simp [hmentions, Declared])
    fun table => by simp [hmentions, SymbolTable.enterAll, he.enterAll_mentions]

/-- **A bad right-hand side spoils only its own statement.** A program is read without any error. An
assignment that is a statement in it, and not in the head of a FOR loop, has its right-hand side replaced
by the tokens `gs`, among which there is no error token and none that can follow a statement, so that the
token `x` behind `:=` cannot start a factor. Then `x` is not expected, and that is all: the assignment has
its variable only, the other parts of the tree are the same, and so is the symbol table. -/
theorem bad_right_side_reported_once {feed : Feed} {table : SymbolTable}
    (hinner : ∀ t, .token t ∈ feed.rest → t.kind ≠ .endOfFile)
    (hcount : (parseFeed feed table).errorCount = .ok 0) :
    ∃ ts l tree, feed.rest = ts.map .token ++ l ∧ DerivesProgram ts tree ∧
      (parseFeed feed table).tree = .ok tree ∧
      ∀ as v becomes bs, ts = as ++ v :: becomes :: bs → becomes.kind = .symbol .becomes →
        (∀ f ∈ as.getLast?, f.kind ≠ .keyword .forKw) →
        ∃ (P : Place .statement) (es : List Token) (e : Node),
          as = P.before ∧ bs = es ++ P.after ∧ DerivesExpression .expression es e ∧
          tree = P.tree [{ kind := .assign, line := v.line, children := [v.variableNode, e] }] ∧
          ∀ gs x, (∀ g ∈ gs, g.kind.followsStatement = false ∧ g.isError = false) →
            (gs ++ P.after).head? = some x → x.kind.startsFactor = false →
            let parsed := parseFeed
              { feed with rest := (as ++ v :: becomes :: gs ++ P.after).map .token ++ l } table
            parsed.tree =
                .ok (P.tree [{ kind := .assign, line := v.line, children := [v.variableNode] }]) ∧
              parsed.table = (parseFeed feed table).table ∧
              parsed.reports = #[⟨.syntactic, x.line, "Unexpected token", x.text⟩] := by
  obtain ⟨ts, l, tree, hfeed, hd, htree⟩ := exists_program_of_errorCount hinner hcount
  refine ⟨ts, l, tree, hfeed, hd, htree, ?_⟩
  rintro as v b bs rfl hb hfor
  have hl : ∀ t, .token t ∈ l → t.kind ≠ .endOfFile := fun t ht => hinner t (by simp [hfeed, ht])
  obtain ⟨P, es, e, rfl, rfl, rfl, hv, hw, he⟩ := Place.exists_of_becomes hb hfor hd
  refine ⟨P, es, e, rfl, rfl, he, rfl, fun gs x hgs hhead hx => ?_⟩
  obtain rfl : gs.headD P.behind = x := by
    cases gs with
    | nil => exact Option.some.inj (P.head?_after.symm.trans hhead)
    | cons g gs => exact Option.some.inj hhead
  rw [← P.tokens_eq]
  exact P.parseFeed_spoiled hv hw hb he hgs hx (by simpa [P.tokens_eq] using hfeed) hl htree hcount

/-- In `PROGRAM a; BEGIN FOR i := 1 TO 2 DO b := 1 END.`, with `) BEGIN b` in the place of the last `1`. -/
theorem bad_right_side_reported_once_nested :
    (parseFeed (.ofTokens
      [⟨.keyword .programKw, 1, "PROGRAM"⟩, ⟨.identifier, 1, "a"⟩, ⟨.symbol .semicolon, 1, ";"⟩,
       ⟨.keyword .beginKw, 1, "BEGIN"⟩, ⟨.keyword .forKw, 1, "FOR"⟩, ⟨.identifier, 1, "i"⟩,
       ⟨.symbol .becomes, 1, ":="⟩, ⟨.integer 1, 1, "1"⟩, ⟨.keyword .toKw, 1, "TO"⟩,
       ⟨.integer 2, 1, "2"⟩, ⟨.keyword .doKw, 1, "DO"⟩, ⟨.identifier, 2, "b"⟩,
       ⟨.symbol .becomes, 2, ":="⟩, ⟨.symbol .rightParen, 3, ")"⟩, ⟨.keyword .beginKw, 3, "BEGIN"⟩,
       ⟨.identifier, 3, "b"⟩, ⟨.keyword .endKw, 4, "END"⟩, ⟨.symbol .period, 4, "."⟩]) .empty).reports =
      #[⟨.syntactic, 3, "Unexpected token", ")"⟩] := by
  let front : List Token :=
    [⟨.keyword .programKw, 1, "PROGRAM"⟩, ⟨.identifier, 1, "a"⟩, ⟨.symbol .semicolon, 1, ";"⟩,
     ⟨.keyword .beginKw, 1, "BEGIN"⟩, ⟨.keyword .forKw, 1, "FOR"⟩, ⟨.identifier, 1, "i"⟩,
     ⟨.symbol .becomes, 1, ":="⟩, ⟨.integer 1, 1, "1"⟩, ⟨.keyword .toKw, 1, "TO"⟩,
     ⟨.integer 2, 1, "2"⟩, ⟨.keyword .doKw, 1, "DO"⟩]
  let v : Token := ⟨.identifier, 2, "b"⟩
  let becomes : Token := ⟨.symbol .becomes, 2, ":="⟩
  let back : List Token := [⟨.keyword .endKw, 4, "END"⟩, ⟨.symbol .period, 4, "."⟩]
  let tokens := front ++ v :: becomes :: ⟨.integer 1, 2, "1"⟩ :: back
  have hcount : (parseFeed (.ofTokens tokens) .empty).errorCount = .ok 0 :=
    eq_ok_of_toOption (by decide +kernel)
  obtain ⟨ts, l, tree, hfeed, hd, -, hbad⟩ := bad_right_side_reported_once
    (show ∀ t, .token t ∈ (Feed.ofTokens tokens).rest → t.kind ≠ .endOfFile by
      simp [Feed.ofTokens, tokens, front, v, becomes, back]) hcount
  obtain ⟨rfl, rfl⟩ := eq_of_derivesProgram hd hfeed (by decide)
  obtain ⟨P, es, e, -, hback, he, -, hparsed⟩ := hbad front v becomes _ rfl rfl (by decide)
  -- behind the right-hand side there are two tokens at least, so that it is the first token only
  have hafter : P.after = back := by
    obtain ⟨x, es, rfl⟩ := List.exists_cons_of_ne_nil he.ne_nil
    obtain ⟨t, ending, hending⟩ := List.exists_cons_of_ne_nil P.derives_ending.ne_nil
    obtain ⟨-, hback⟩ := List.cons.inj hback
    have hlength := congrArg List.length hback
    obtain rfl : es = [] := List.length_eq_zero_iff.1 <| by
      simp [Place.after, hending, back] at hlength
      omega
    exact hback.symm
  let gs : List Token :=
    [⟨.symbol .rightParen, 3, ")"⟩, ⟨.keyword .beginKw, 3, "BEGIN"⟩, ⟨.identifier, 3, "b"⟩]
  rw [hafter] at hparsed
  exact (hparsed gs _ (by decide) rfl rfl).2.2

end MiniPascal

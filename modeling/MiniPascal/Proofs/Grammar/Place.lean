import MiniPascal.Proofs.Grammar.Acceptance
import MiniPascal.Proofs.Grammar.Image

/-!
# Places in a program

A phrase of a program has other phrases around it. A **frame** is one rule of the grammar with a gap
in the place of one of its parts, and what is **around** a phrase of a program is a sequence of frames,
each in the gap of the next. The tokens around the gap and the trees around its trees are known,
whatever is in the gap.

A frame asks little of what is in its gap. If it is a phrase of the grammar, then so is the whole.
If it is not, but the reader passes it with some reports, then it passes the whole with the same
reports: no frame makes any more of them.

The one thing that a frame can see of the trees in its gap is whether they end open, since a statement
between THEN and ELSE must not.

* `MiniPascal.Frame`, `MiniPascal.Around`: what is around a phrase.
* `MiniPascal.Around.complete`: what is around a phrase makes no reports.
* `MiniPascal.Place`: a gap in a program.
* `MiniPascal.Place.parseFeed_instead`: a program with something else in a gap.
-/

namespace MiniPascal

open Reading

/-! ### Frames -/

/-- **A frame**: a phrase in front of the line `m` is the tokens `front`, a phrase in front of
the line `n` and the tokens `back`, and its trees are made from those of the other phrase. There is
one frame for every part of a rule that is a phrase. -/
inductive Frame : StatementPhrase → Nat → StatementPhrase → Nat → List Token → List Token →
    (List Node → List Node) → Prop
  | compound {m : Nat} {b e : Token} : b.kind = .keyword .beginKw → e.kind = .keyword .endKw →
    Frame .statements e.line .statement m [b] [e]
      fun ns => [{ kind := .compound, line := b.line, children := ns }]
  | conditional {m : Nat} {i th : Token} {ts : List Token} {c : Node} : i.kind = .keyword .ifKw →
    DerivesExpression .expression ts c → th.kind = .keyword .thenKw →
    Frame .nested m .statement m (i :: ts ++ [th]) []
      fun ns => [{ kind := .conditional, line := i.line, children := c :: ns }]
  | consequence {m : Nat} {i th el : Token} {ts vs : List Token} {c e : Node} :
    i.kind = .keyword .ifKw → DerivesExpression .expression ts c → th.kind = .keyword .thenKw →
    el.kind = .keyword .elseKw → DerivesStatement .nested m vs [e] →
    Frame .nested el.line .statement m (i :: ts ++ [th]) (el :: vs)
      fun ns => [{ kind := .conditional, line := i.line, children := c :: ns ++ [e] }]
  | alternative {m : Nat} {i th el : Token} {ts us : List Token} {c s : Node} :
    i.kind = .keyword .ifKw → DerivesExpression .expression ts c → th.kind = .keyword .thenKw →
    DerivesStatement .nested el.line us [s] → el.kind = .keyword .elseKw →
    Frame .nested m .statement m (i :: ts ++ th :: us ++ [el]) []
      fun ns => [{ kind := .conditional, line := i.line, children := c :: s :: ns }]
  | whileLoop {m : Nat} {w d : Token} {ts : List Token} {c : Node} : w.kind = .keyword .whileKw →
    DerivesExpression .expression ts c → d.kind = .keyword .doKw →
    Frame .nested m .statement m (w :: ts ++ [d]) []
      fun ns => [{ kind := .whileLoop, line := w.line, children := c :: ns }]
  | loop {m : Nat} {r u : Token} {us : List Token} {c : Node} : r.kind = .keyword .repeatKw →
    u.kind = .keyword .untilKw → DerivesExpression .expression us c →
    Frame .statements u.line .statement m [r] (u :: us)
      fun ns => [{ kind := .loop, line := r.line,
                   children := ns ++ [{ kind := .test, line := u.line, children := [c] }] }]
  | forLoop {m : Nat} {f way d : Token} {ts us : List Token} {a l : Node} : f.kind = .keyword .forKw →
    DerivesAssignment ts a → way.kind = .keyword .toKw ∨ way.kind = .keyword .downtoKw →
    DerivesExpression .expression us l → d.kind = .keyword .doKw →
    Frame .nested m .statement m (f :: ts ++ way :: us ++ [d]) []
      fun ns => [{ kind := .forLoop, line := f.line, descending := way.kind = .keyword .downtoKw,
                   children := a :: l :: ns }]
  | select {m : Nat} {c o e : Token} {ts : List Token} {n : Node} : c.kind = .keyword .caseKw →
    DerivesExpression .expression ts n → o.kind = .keyword .ofKw → e.kind = .keyword .endKw →
    Frame .branches e.line .statement m (c :: ts ++ [o]) [e]
      fun ns => [{ kind := .select, line := c.line, children := n :: ns }]
  | some {m : Nat} : Frame .statement m .nested m [] [] id
  | one {m : Nat} : Frame .statement m .statements m [] [] id
  | first {m : Nat} {s : Token} {us : List Token} {ms : List Node} : s.kind = .symbol .semicolon →
    DerivesStatement .statements m us ms →
    Frame .statement s.line .statements m [] (s :: us) fun ns => ns ++ ms
  | rest {m : Nat} {s : Token} {ts : List Token} {ls : List Node} :
    DerivesStatement .statement s.line ts ls → s.kind = .symbol .semicolon →
    Frame .statements m .statements m (ts ++ [s]) [] fun ns => ls ++ ns
  | branch {m : Nat} {t colon : Token} {ts : List Token} {ls : List Node} :
    DerivesLabels (t :: ts) ls → colon.kind = .symbol .colon →
    Frame .nested m .branch m (t :: ts ++ [colon]) []
      fun ns => [{ kind := .selectBranch, line := t.line,
                   children := { kind := .selectConstants, line := t.line, children := ls } :: ns }]
  | noBranchMore {m : Nat} {s : Token} : s.kind = .symbol .semicolon →
    Frame .branches m .branches m [s] [] id
  | oneBranch {m : Nat} : Frame .branch m .branches m [] [] id
  | firstBranch {m : Nat} {s : Token} {us : List Token} {ms : List Node} :
    s.kind = .symbol .semicolon → DerivesStatement .branches m us ms →
    Frame .branch s.line .branches m [] (s :: us) fun ns => ns ++ ms
  | restBranches {m : Nat} {s : Token} {ts : List Token} {ls : List Node} :
    DerivesStatement .branch s.line ts ls → s.kind = .symbol .semicolon →
    Frame .branches m .branches m (ts ++ [s]) [] fun ns => ls ++ ns

/-- **What is around a phrase**: frames, each in the gap of the next. -/
inductive Around (p : StatementPhrase) (n : Nat) :
    StatementPhrase → Nat → List Token → List Token → (List Node → List Node) → Prop
  | here : Around p n p n [] [] id
  | inside {q q' : StatementPhrase} {m m' : Nat} {front front' back back' : List Token}
      {grow grow' : List Node → List Node} : Frame q m q' m' front' back' grow' →
    Around p n q m front back grow →
    Around p n q' m' (front' ++ front) (back ++ back') fun ns => grow' (grow ns)

/-- The phrase is there: a statement is not empty, and neither is a branch. A statement within another
one always has a tree, and there may be no statement in a list. -/
def Present : StatementPhrase → List Token → List Node → Prop
  | .statement, ts, ns => (∃ t us, ts = t :: us ∧ t.kind.startsStatement = true) ∧ ∃ n, ns = [n]
  | .nested, _, ns => ∃ n, ns = [n]
  | .branch, ts, ns =>
    (∃ t us, ts = t :: us ∧ t.kind ≠ .symbol .semicolon ∧ t.kind ≠ .keyword .endKw ∧
      t.kind ≠ .endOfFile) ∧ ∃ n, ns = [n]
  | .statements, _, _ => True
  | .branches, _, _ => True

section Frames

variable {p q : StatementPhrase} {n m : Nat} {front back ts us : List Token} {ns ms : List Node}
  {grow : List Node → List Node} {rs : Token → List Report}

theorem Frame.present (h : Frame p n q m front back grow) (hp : Present p ts ns) :
    Present q (front ++ ts ++ back) (grow ns) := by
  cases h with
  | some => exact hp.2
  | one | first | rest | noBranchMore | oneBranch | firstBranch | restBranches => trivial
  | branch hl => exact ⟨⟨_, _, rfl, labels_first hl⟩, _, rfl⟩
  | _ => exact ⟨⟨_, _, rfl, by simp_all [Token.Kind.startsStatement]⟩, _, rfl⟩

/-- A phrase of the grammar in the gap makes the whole one. -/
theorem Frame.derives (h : Frame p n q m front back grow) (hp : Present p ts ns)
    (hd : DerivesStatement p n ts ns) : DerivesStatement q m (front ++ ts ++ back) (grow ns) := by
  cases h with
  | compound hb he => exact .compound hb hd he
  | conditional hi hc hth =>
    obtain ⟨s, rfl⟩ := hp
    simpa using DerivesStatement.conditional hi hc hth hd
  | consequence hi hc hth hel he =>
    obtain ⟨s, rfl⟩ := hp
    simpa using DerivesStatement.alternative hi hc hth hd hel he
  | alternative hi hc hth hs hel =>
    obtain ⟨e, rfl⟩ := hp
    simpa using DerivesStatement.alternative hi hc hth hs hel hd
  | whileLoop hw hc hdo =>
    obtain ⟨s, rfl⟩ := hp
    simpa using DerivesStatement.whileLoop hw hc hdo hd
  | loop hr hu hc => exact .loop hr hd hu hc
  | forLoop hf ha hto hl hdo =>
    obtain ⟨s, rfl⟩ := hp
    simpa using DerivesStatement.forLoop hf ha hto hl hdo hd
  | select hc hn ho he => simpa using DerivesStatement.select hc hn ho hd he
  | some =>
    obtain ⟨-, s, rfl⟩ := hp
    simpa using DerivesStatement.some hd
  | one => simpa using DerivesStatement.one hd
  | first hs hms => exact .more hd hs hms
  | rest hls hs => simpa using DerivesStatement.more hls hs hd
  | branch hl hc =>
    obtain ⟨s, rfl⟩ := hp
    simpa using DerivesStatement.branch hl hc hd
  | noBranchMore hs => simpa using DerivesStatement.noBranchMore hs hd
  | oneBranch => simpa using DerivesStatement.oneBranch hd
  | firstBranch hs hms => exact .moreBranches hd hs hms
  | restBranches hls hs => simpa using DerivesStatement.moreBranches hls hs hd

/-- The names in the gap have the same names around them, whatever they are. -/
theorem Frame.exists_mentions (h : Frame p n q m front back grow) :
    ∃ before after, ∀ ns,
      Node.mentionsAll (grow ns) = before ++ Node.mentionsAll ns ++ after := by
  cases h with
  | compound => exact ⟨[], [], fun _ => by simp [Node.mentions_operator]⟩
  | @conditional _ _ _ _ c | @whileLoop _ _ _ _ c | @select _ _ _ _ _ c =>
    exact ⟨c.mentions, [], fun _ => by simp [Node.mentions_operator]⟩
  | @consequence _ _ _ _ _ _ c e =>
    exact ⟨c.mentions, e.mentions, fun _ => by simp [Node.mentions_operator]⟩
  | @alternative _ _ _ _ _ _ c s =>
    exact ⟨c.mentions ++ s.mentions, [], fun _ => by simp [Node.mentions_operator]⟩
  | @loop _ _ _ _ c => exact ⟨[], c.mentions, fun _ => by simp [Node.mentions_operator]⟩
  | @forLoop _ _ _ _ _ _ a l =>
    exact ⟨a.mentions ++ l.mentions, [], fun _ => by simp [Node.mentions_operator]⟩
  | @branch _ _ _ _ ls =>
    exact ⟨Node.mentionsAll ls, [], fun _ => by simp [Node.mentions_operator]⟩
  | some | one | noBranchMore | oneBranch => exact ⟨[], [], fun _ => by simp⟩
  | @first _ _ _ ms | @firstBranch _ _ _ ms => exact ⟨[], Node.mentionsAll ms, fun _ => by simp⟩
  | @rest _ _ _ ls | @restBranches _ _ _ ls => exact ⟨Node.mentionsAll ls, [], fun _ => by simp⟩

/-- The trees `ms` can stand in the place of the trees `ns`, as far as ELSE goes. -/
structure StandFor (ms ns : List Node) : Prop where
  endsOpen : ms.map Node.endsOpen = ns.map Node.endsOpen
  nearest : (∀ n ∈ ns, n.ElseNearest) → ∀ m ∈ ms, m.ElseNearest

/-- A node can stand for another one if its children can, and the two end alike. -/
theorem StandFor.single {n n' : Node} (hopen : n'.endsOpen = n.endsOpen)
    (hclosed : n.ElseClosed → n'.ElseClosed)
    (hc : (∀ c ∈ n.children, c.ElseNearest) → ∀ c ∈ n'.children, c.ElseNearest) :
    StandFor [n'] [n] := by
  refine ⟨by simpa using hopen, fun hn => ?_⟩
  have hn : n.ElseNearest := hn n (List.mem_singleton.2 rfl)
  exact List.forall_mem_singleton.2 (.intro (hclosed hn.closed) (hc fun c hmem => hn.child hmem))

/-- The same for a node that is no conditional. -/
theorem StandFor.single_of_kind {n n' : Node} (hk : n'.kind ≠ .conditional)
    (hopen : n'.endsOpen = n.endsOpen)
    (hc : (∀ c ∈ n.children, c.ElseNearest) → ∀ c ∈ n'.children, c.ElseNearest) :
    StandFor [n'] [n] :=
  .single hopen (fun _ h => absurd h hk) hc

/-- The same between other trees. -/
theorem StandFor.between (h : StandFor ms ns) (ls rs : List Node) :
    StandFor (ls ++ ms ++ rs) (ls ++ ns ++ rs) := by
  refine ⟨by simp [h.endsOpen], ?_⟩
  simp only [List.forall_mem_append]
  exact fun ⟨⟨hls, hns⟩, hrs⟩ => ⟨⟨hls, h.nearest hns⟩, hrs⟩

theorem StandFor.cons (h : StandFor ms ns) (l : Node) : StandFor (l :: ms) (l :: ns) := by
  simpa using h.between [l] []

/-- What is around the trees cannot tell them apart either. -/
theorem Frame.standFor (h : Frame p n q m front back grow) (hp : Present p ts ns)
    (hp' : Present p us ms) (hs : StandFor ms ns) : StandFor (grow ms) (grow ns) := by
  have hopen {s s' : Node} (hs : StandFor [s'] [s]) : s'.endsOpen = s.endsOpen := by
    simpa using hs.endsOpen
  cases h with
  | compound => exact .single_of_kind (by simp) rfl hs.nearest
  | branch | select => exact .single_of_kind (by simp) rfl (hs.cons _).nearest
  | loop => exact .single_of_kind (by simp) rfl (hs.between [] _).nearest
  | conditional =>
    obtain ⟨s, rfl⟩ := hp
    obtain ⟨s', rfl⟩ := hp'
    exact .single rfl (by rintro - - c s e ⟨⟩) (hs.cons _).nearest
  | consequence =>
    obtain ⟨s, rfl⟩ := hp
    obtain ⟨s', rfl⟩ := hp'
    -- the statement between THEN and ELSE ends as it did before
    refine .single rfl ?_ ((hs.between [] _).cons _).nearest
    rintro hclosed - _ _ _ ⟨⟩
    exact (hopen hs).trans (hclosed rfl _ _ _ rfl)
  | alternative =>
    obtain ⟨e, rfl⟩ := hp
    obtain ⟨e', rfl⟩ := hp'
    refine .single (by simpa [Node.endsOpen] using hopen hs) ?_ ((hs.cons _).cons _).nearest
    rintro hclosed - _ _ _ ⟨⟩
    exact hclosed rfl _ _ _ rfl
  | whileLoop =>
    obtain ⟨s, rfl⟩ := hp
    obtain ⟨s', rfl⟩ := hp'
    exact .single_of_kind (by simp) (by simpa [Node.endsOpen] using hopen hs) (hs.cons _).nearest
  | forLoop =>
    obtain ⟨s, rfl⟩ := hp
    obtain ⟨s', rfl⟩ := hp'
    exact .single_of_kind (by simp) (by simpa [Node.endsOpen] using hopen hs)
      ((hs.cons _).cons _).nearest
  | some | one | noBranchMore | oneBranch => exact hs
  | first | firstBranch => exact hs.between [] _
  | rest | restBranches => simpa using hs.between _ []

/-- **A frame makes no reports**: if what is in its gap is passed with some reports, the whole is passed
with the same ones. -/
theorem Frame.complete (h : Frame p n q m front back grow) (hp : Present p ts ns)
    (hc : CompleteFor rs p n ts ns) :
    CompleteFor (fun u => rs (back.headD u)) q m (front ++ ts ++ back) (grow ns) := by
  cases h with
  | compound hb he => exact completeStatement_compound hb hc.readsList he
  | conditional hi he hth =>
    obtain ⟨s, rfl⟩ := hp
    simpa [CompleteFor] using completeStatement_conditional hi he hth hc
  | consequence hi he hth hel hd =>
    obtain ⟨s, rfl⟩ := hp
    simpa [CompleteFor] using completeStatement_alternative hi he hth hc hel (complete_statement hd)
  | alternative hi he hth hd hel =>
    obtain ⟨s, rfl⟩ := hp
    simpa [CompleteFor] using completeStatement_alternative hi he hth (complete_statement hd) hel hc
  | whileLoop hw he hdo =>
    obtain ⟨s, rfl⟩ := hp
    simpa [CompleteFor] using completeStatement_whileLoop hw he hdo hc
  | loop hr hu he => exact completeStatement_loop hr hc.readsList hu he
  | forLoop hf ha hto hl hdo =>
    obtain ⟨s, rfl⟩ := hp
    simpa [CompleteFor] using completeStatement_forLoop hf ha hto hl hdo hc
  | select hk hn ho he =>
    simpa [CompleteFor] using completeStatement_select hk hn ho hc.readsBranches he
  | some =>
    obtain ⟨-, s, rfl⟩ := hp
    simpa [CompleteFor] using completeNested_some hc
  | one =>
    obtain ⟨⟨t, us, rfl, ht⟩, s, rfl⟩ := hp
    refine .of_head (by simpa using ne_semicolon_of_starts ht) ?_
    simpa using readsList_one ht hc
  | first hs hms =>
    obtain ⟨⟨t, us, rfl, ht⟩, s, rfl⟩ := hp
    refine .of_head (by simpa using ne_semicolon_of_starts ht) ?_
    simpa using readsList_more ht hc hs (complete_statement hms)
  | rest hls hs =>
    simpa [CompleteFor] using behindSemicolons_more hls hs (complete_statement hls) hc
  | branch hl hcolon =>
    obtain ⟨s, rfl⟩ := hp
    simpa [CompleteFor] using completeBranch hl hcolon hc
  | noBranchMore hs => simpa [CompleteFor] using BehindSemicolons.cons hs hc
  | oneBranch =>
    obtain ⟨⟨t, us, rfl, hsemi, ht⟩, -⟩ := hp
    refine .of_head (by simpa using hsemi) ?_
    simpa using readsBranches_one ht hc
  | firstBranch hs hms =>
    obtain ⟨⟨t, us, rfl, hsemi, ht⟩, -⟩ := hp
    refine .of_head (by simpa using hsemi) ?_
    simpa using readsBranches_more ht hc hs (complete_statement hms)
  | restBranches hls hs =>
    simpa [CompleteFor] using behindSemicolons_moreBranches hls hs (complete_statement hls) hc

/-! ### Around a phrase -/

theorem Around.present (h : Around p n q m front back grow) (hp : Present p ts ns) :
    Present q (front ++ ts ++ back) (grow ns) := by
  induction h with
  | here => simpa using hp
  | inside hframe _ ih => simpa using hframe.present ih

theorem Around.derives (h : Around p n q m front back grow) (hp : Present p ts ns)
    (hd : DerivesStatement p n ts ns) : DerivesStatement q m (front ++ ts ++ back) (grow ns) := by
  induction h with
  | here => simpa using hd
  | inside hframe haround ih => simpa using hframe.derives (haround.present hp) ih

theorem Around.exists_mentions (h : Around p n q m front back grow) :
    ∃ before after, ∀ ns,
      Node.mentionsAll (grow ns) = before ++ Node.mentionsAll ns ++ after := by
  induction h with
  | here => exact ⟨[], [], fun _ => by simp⟩
  | inside hframe _ ih =>
    obtain ⟨before, after, h⟩ := ih
    obtain ⟨before', after', h'⟩ := hframe.exists_mentions
    exact ⟨before' ++ before, after ++ after', fun ns => by simp [h', h]⟩

theorem Around.standFor (h : Around p n q m front back grow) (hp : Present p ts ns)
    (hp' : Present p us ms) (hs : StandFor ms ns) : StandFor (grow ms) (grow ns) := by
  induction h with
  | here => exact hs
  | inside hframe haround ih => exact hframe.standFor (haround.present hp) (haround.present hp') ih

/-- **What is around a phrase makes no reports.** -/
theorem Around.complete (h : Around p n q m front back grow) (hp : Present p ts ns)
    (hc : CompleteFor rs p n ts ns) :
    CompleteFor (fun u => rs (back.headD u)) q m (front ++ ts ++ back) (grow ns) := by
  induction h with
  | here => simpa using hc
  | @inside _ _ _ _ _ _ back back' _ _ hframe haround ih =>
    -- the token behind the gap is the next one of the first frame that has tokens behind its own
    have hhead (u : Token) : (back ++ back').headD u = back.headD (back'.headD u) := by
      cases back <;> rfl
    simpa [hhead] using hframe.complete (haround.present hp) ih

end Frames

/-! ### Places -/

/-- **A gap in a program**, in which there can be a phrase in front of the line `line`. -/
structure Place (p : StatementPhrase) extends Outline where
  line : Nat
  front : List Token
  back : List Token
  grow : List Node → List Node
  around : Around p line .statements closing.line front back grow

namespace Place

variable {p : StatementPhrase} (P : Place p)

/-- The program with the given tokens in the gap. -/
def tokens (ts : List Token) : List Token := P.toOutline.tokens (P.front ++ ts ++ P.back)

/-- The tree of the program with the given trees in the gap. -/
def tree (ns : List Node) : Node := P.toOutline.tree (P.grow ns)

/-- The token behind the gap. -/
def behind : Token := P.back.headD P.closing

/-- The tokens of the program in front of the gap. -/
def before : List Token := P.program :: P.name :: P.semicolon :: P.opening :: P.front

/-- The tokens of the program behind the gap. -/
def after : List Token := P.back ++ P.closing :: P.ending

theorem tokens_eq (ts : List Token) : P.tokens ts = P.before ++ ts ++ P.after := by
  simp [tokens, before, after, Outline.tokens]

theorem head?_after : P.after.head? = some P.behind := by
  rw [after, behind]
  cases P.back <;> rfl

variable {P} {ts us : List Token} {ns ms : List Node} {feed : Feed} {table : SymbolTable}
  {l : List Lexeme} {rs : Token → List Report}

theorem mem_tokens {t : Token} (ht : t ∈ P.tokens us) (ts : List Token) :
    t ∈ us ∨ t ∈ P.tokens ts := by
  simp only [tokens, Outline.tokens, List.mem_cons, List.mem_append] at ht ⊢
  rcases ht with (h | h | h | h | (h | h) | h) | h | h <;> simp [h]

variable (P) in
/-- The names in the gap have the same names around them, whatever they are. -/
theorem exists_mentions : ∃ before after, ∀ ns,
    (P.tree ns).mentions = before ++ Node.mentionsAll ns ++ after := by
  obtain ⟨before, after, h⟩ := P.around.exists_mentions
  exact ⟨.declares P.name.text :: before, after, fun ns => by
    simp [tree, P.toOutline.mentions_tree, h]⟩

/-- The end of the text is not among the tokens of a program, nor behind it. -/
theorem inner_of_proper (hproper : ∀ t ∈ us, t.Proper)
    (hinner : ∀ t, .token t ∈ l → t.kind ≠ .endOfFile) :
    ∀ t, .token t ∈ us.map .token ++ l → t.kind ≠ .endOfFile := by
  intro t ht
  rcases List.mem_append.1 ht with ht | ht
  · obtain ⟨t, ht, ⟨⟩⟩ := List.mem_map.1 ht
    exact (hproper t ht).2
  · exact hinner t ht

/-- What is read in quiet with a phrase of the grammar in the gap. -/
theorem of_program {c : Cursor} (hfeed : feed.rest = (P.tokens ts).map .token ++ l)
    (hinner : ∀ t, .token t ∈ l → t.kind ≠ .endOfFile)
    (hd : DerivesStatement p P.line ts ns) (hp : Present p ts ns)
    (h : program (.start feed table) = .ok (P.tree ns) c)
    (hq : c.reports.size = feed.reports.size) :
    (∀ t ∈ P.tokens ts, t.Proper) ∧ (∀ n ∈ P.grow ns, n.ElseNearest) ∧
      Declared table (P.tree ns).mentions ∧ c.table = table.enterAll (P.tree ns).mentions ∧
      EndsProgram (P.ending.map .token ++ l) := by
  have hstatements := P.around.derives hp hd
  have hproper := (P.toOutline.derives hstatements).proper
  have hinner : ∀ t, .token t ∈ feed.rest → t.kind ≠ .endOfFile :=
    hfeed ▸ inner_of_proper hproper hinner
  have hnearest := P.elseNearest_tree.1 (elseNearest_of_program hinner h hq)
  obtain ⟨vs, haccepts⟩ := sound_program hinner h hq
  refine ⟨hproper, hnearest, haccepts.declared, haccepts.table, ?_⟩
  -- the program is read again up to its END, and what is left is its end
  obtain ⟨c₁, hprogram, hc₁, hahead, -, hr⟩ := program_upto_end hfeed hinner
    (fun t ht => (hproper t ht).1) (readsList_of_derives hstatements) hnearest haccepts.declared
  have hr₁ : c₁.reports.size = feed.reports.size := by
    simpa [← Array.length_toList] using congrArg List.length hr
  rw [hprogram] at h
  obtain ⟨_, c₂, hend, h⟩ := bind_eq_ok.1 h
  have hs₁ := steady_programEnd.grows hend
  have hs₂ := ((steady_logProgram _).bind fun _ => steady_pure _).grows h
  obtain ⟨ending, hquiet, hending, hlongest⟩ := sound_programEnd hc₁ hend (by omega)
  rw [← hahead, hquiet.ahead]
  exact endsProgram_of_calm hending hquiet.calm hlongest

/-- **A program with something else in a gap.** A program is read without any error, and then something
else is put in one of its gaps. If the reader passes that with some reports, if as far as ELSE goes its
trees can stand for the old ones, and if it declares the same names and uses no others, then these reports
are all there are, and nothing else changes in the tree and the symbol table. -/
theorem parseFeed_instead (hfeed : feed.rest = (P.tokens ts).map .token ++ l)
    (hinner : ∀ t, .token t ∈ l → t.kind ≠ .endOfFile)
    (hd : DerivesStatement p P.line ts ns) (hp : Present p ts ns)
    (htree : (parseFeed feed table).tree = .ok (P.tree ns))
    (hcount : (parseFeed feed table).errorCount = .ok 0)
    (hc : CompleteFor rs p P.line us ms) (hp' : Present p us ms) (hproper : ∀ t ∈ us, t.Proper)
    (hs : StandFor ms ns)
    (hdeclared : ∀ table, Declared table (Node.mentionsAll ns) → Declared table (Node.mentionsAll ms))
    (hnames : ∀ table : SymbolTable,
      table.enterAll (Node.mentionsAll ms) = table.enterAll (Node.mentionsAll ns)) :
    let parsed := parseFeed { feed with rest := (P.tokens us).map .token ++ l } table
    parsed.tree = .ok (P.tree ms) ∧ parsed.table = (parseFeed feed table).table ∧
      parsed.reports = (rs P.behind).toArray := by
  obtain ⟨tree, c, h, hsize⟩ := errorCount_eq_ok.1 hcount
  obtain rfl : tree = P.tree ns := by simpa [parseFeed_of_ok h] using htree
  have hgrows : feed.reports.size ≤ c.reports.size := steady_program.grows h
  have hempty : feed.reports.toList = [] := by
    rw [List.eq_nil_iff_length_eq_zero, Array.length_toList]
    omega
  obtain ⟨hproper', hnearest, hdeclared', htable, hends⟩ :=
    of_program hfeed hinner hd hp h (by omega)
  have hall : ∀ t ∈ P.tokens us, t.Proper := fun t ht =>
    (mem_tokens ht ts).elim (hproper t) (hproper' t)
  -- the names are the old ones in front of the gap and behind it
  obtain ⟨before, after, hmentions⟩ := P.exists_mentions
  rw [hmentions] at hdeclared' htable
  have hdeclared'' : Declared table (P.tree ms).mentions := by
    rw [hmentions]
    simp only [declared_append, SymbolTable.enterAll_append, hnames] at hdeclared' ⊢
    exact ⟨⟨hdeclared'.1.1, hdeclared _ hdeclared'.1.2⟩, hdeclared'.2⟩
  have hread : ∃ c', program (.start { feed with rest := (P.tokens us).map .token ++ l } table) =
      .ok (P.tree ms) c' ∧ c'.table = table.enterAll (P.tree ms).mentions ∧
      c'.reports.toList = feed.reports.toList ++ rs P.behind :=
    program_of_readsList rfl (inner_of_proper hall hinner) (fun t ht => (hall t ht).1)
      (P.around.complete hp' hc).readsList ((P.around.standFor hp hp' hs).nearest hnearest) hdeclared'' hends
  obtain ⟨c', h', htable', hr⟩ := hread
  intro parsed
  have hparsed : parsed = ⟨.ok (P.tree ms), c'.table, c'.reports, c'.log⟩ := parseFeed_of_ok h'
  rw [hparsed, parseFeed_of_ok h]
  refine ⟨rfl, ?_, ?_⟩
  · rw [htable', htable, hmentions]
    simp [hnames]
  · rw [← Array.toList_inj, hr, hempty]
    rfl

end Place

end MiniPascal

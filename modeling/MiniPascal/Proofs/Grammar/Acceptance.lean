import MiniPascal.Proofs.Grammar.Completeness.Statement
import MiniPascal.Proofs.Grammar.Totality

/-!
# What is accepted

The reader of programs makes no report exactly if the tokens start with a program of the grammar in
which every name is declared before it is used, and neither the program nor the token behind it
has an error token.

The end of a program is where a reader has a choice that the grammar does not: the period may be left
out behind a semicolon, and then the program ends wherever the semicolons and a period behind them
end.

Apart from its statements a program is read in the same way whatever they are. Statements that are passed
with some reports make a program that is passed with these reports.

* `MiniPascal.Outline`: everything of a program but its statements.
* `MiniPascal.program_of_readsList`: a program whose statements are passed with some reports.
* `MiniPascal.StartsProgram`: the program that the tokens start with.
* `MiniPascal.program_of_startsProgram`: such a program is read in quiet.
* `MiniPascal.errorCount_eq_zero_iff`: nothing else is.
-/

namespace MiniPascal

open Cursor Reading

/-! ### The end of a program -/

section End

variable {c : Cursor} {t : Token} {l : List Lexeme}

/-- The next lexeme, if there is one, is a token and no error token. -/
def FrontClean (l : List Lexeme) : Prop := ∀ x ∈ l.head?, ∃ u, x = .token u ∧ u.isError = false

/-- One can move on from a token, also to the end of the text. -/
theorem advance_of_ahead (hc : c.Calm) (h : c.ahead = .token t :: l) (hl : FrontClean l) :
    ∃ c', advance c = .ok () c' ∧ c'.Calm ∧ c'.ahead = l ∧ c'.reports = c.reports ∧
      c'.table = c.table := by
  obtain ⟨rfl, hr, hk⟩ := current_of_ahead h
  have hnext : ∃ c', advance c = .ok () c' ∧ c'.reports.size = c.reports.size := by
    cases l with
    | nil =>
      simp only [advance, Feed.next, hr]
      exact ⟨_, rfl, rfl⟩
    | cons x l =>
      obtain ⟨u, rfl, hu⟩ := hl x rfl
      simp only [advance, Feed.next, hr]
      exact ⟨_, rfl, by simp [Feed.note, Token.reports_eq_nil hu]⟩
  obtain ⟨c', hadv, hsize⟩ := hnext
  have hquiet := quiet_advance hc hk hadv hsize
  refine ⟨c', hadv, hquiet.calm, ?_, hquiet.reports, hquiet.table⟩
  have := hquiet.ahead
  rw [h] at this
  simpa using this.symm

theorem kind_of_ahead_nil (h : c.ahead = []) : c.current.kind = .endOfFile := by
  unfold ahead at h
  split at h
  · assumption
  · cases h

/-- Semicolons are passed up to another token or the end of the text. -/
theorem skipSemicolons_of_ahead {semicolons : List Token}
    (hs : ∀ s ∈ semicolons, s.kind = .symbol .semicolon) (hc : c.Calm)
    (h : c.ahead = semicolons.map .token ++ l) (hl : FrontClean l)
    (hend : ∀ u, l.head? = some (.token u) → u.kind ≠ .symbol .semicolon) {k : Nat}
    (hk : semicolons.length < k) :
    ∃ c', skipSemicolons k c = .ok () c' ∧ c'.Calm ∧ c'.ahead = l ∧ c'.reports = c.reports ∧
      c'.table = c.table := by
  induction semicolons generalizing c k with
  | nil =>
    obtain ⟨k, rfl⟩ : ∃ k', k = k' + 1 := ⟨k - 1, by simp at hk; omega⟩
    refine ⟨c, ?_, hc, h, rfl, rfl⟩
    -- at the end of the text the current token is its mark, which is no semicolon either
    have hno : c.current.kind ≠ .symbol .semicolon := by
      cases l with
      | nil => rw [kind_of_ahead_nil h]; decide
      | cons x l =>
        obtain ⟨u, rfl, -⟩ := hl x rfl
        rw [(current_of_ahead h).1]
        exact hend u rfl
    rw [skipSemicolons, kind_bind, if_neg hno]
    rfl
  | cons s semicolons ih =>
    obtain ⟨k, rfl⟩ : ∃ k', k = k' + 1 := ⟨k - 1, by simp at hk; omega⟩
    have hfront : FrontClean (semicolons.map .token ++ l) := by
      intro x hx
      cases semicolons with
      | nil => exact hl x hx
      | cons s' semicolons =>
        obtain rfl : .token s' = x := by simpa using hx
        exact ⟨s', rfl, by simp [Token.isError, hs s' (by simp)]⟩
    obtain ⟨c₁, h₁, hc₁, ha₁, hr₁, ht₁⟩ := advance_of_ahead hc h hfront
    obtain ⟨c₂, h₂, hc₂, ha₂, hr₂, ht₂⟩ :=
      ih (fun t ht => hs t (by simp [ht])) hc₁ ha₁ (by simp at hk; omega)
    refine ⟨c₂, ?_, hc₂, ha₂, hr₂.trans hr₁, ht₂.trans ht₁⟩
    rw [skipSemicolons, kind_bind, (current_of_ahead h).1, if_pos (hs s (by simp)), bind_of_ok h₁]
    exact h₂

theorem DerivesEnding.ne_nil {ending : List Token} (h : DerivesEnding ending) : ending ≠ [] := by
  cases h with
  | period => simp
  | bare _ hne => exact hne

/-- **The lexemes start with the end of a program** that is as long as it can be. -/
def EndsProgram (l : List Lexeme) : Prop :=
  ∃ ending l', l = ending.map .token ++ l' ∧ DerivesEnding ending ∧ FrontClean l' ∧
    ((∃ p, ending.getLast? = some p ∧ p.kind = .symbol .period) ∨
      ∀ u, l'.head? = some (.token u) → u.kind ≠ .symbol .semicolon ∧ u.kind ≠ .symbol .period)

theorem programEnd_of_ahead (hc : c.Calm) (hends : EndsProgram c.ahead) :
    ∃ c', programEnd c = .ok () c' ∧ c'.reports = c.reports ∧ c'.table = c.table := by
  obtain ⟨ending, l, h, hd, hl, hlongest⟩ := hends
  have hbudget (semicolons : List Token) (l' : List Lexeme)
      (h' : c.ahead = semicolons.map .token ++ l') : semicolons.length < c.rest.length + 2 := by
    have hle : c.ahead.length ≤ c.rest.length + 1 := by
      unfold ahead
      split <;> simp
    simp only [h', List.length_append, List.length_map] at hle
    omega
  cases hd with
  | @period semicolons p hs hp =>
    rw [List.map_append, List.append_assoc] at h
    have hfront : FrontClean ([Lexeme.token p] ++ l) := by
      intro x hx
      obtain rfl : .token p = x := by simpa using hx
      exact ⟨p, rfl, by simp [Token.isError, hp]⟩
    obtain ⟨c₁, h₁, hc₁, ha₁, hr₁, ht₁⟩ := skipSemicolons_of_ahead hs hc h hfront
      (fun u hu => by cases hu; simp [hp]) (hbudget _ _ h)
    obtain ⟨c₂, h₂, -, -, hr₂, ht₂⟩ := advance_of_ahead hc₁ ha₁ hl
    refine ⟨c₂, ?_, hr₂.trans hr₁, ht₂.trans ht₁⟩
    rw [programEnd, kind_bind, budget_bind, bind_of_ok h₁, kind_bind,
      (current_of_ahead ha₁).1, if_pos hp]
    exact h₂
  | bare hs hne =>
    -- without a period the program ends where neither a semicolon nor a period follows
    obtain ⟨s, semicolons, rfl⟩ := List.exists_cons_of_ne_nil hne
    have hnot : ¬ ∃ p, (s :: semicolons).getLast? = some p ∧ p.kind = .symbol .period := by
      rintro ⟨p, hlast, hp⟩
      rw [hs p (List.mem_of_getLast? hlast)] at hp
      cases hp
    have hend := hlongest.resolve_left hnot
    obtain ⟨c₁, h₁, hc₁, ha₁, hr₁, ht₁⟩ := skipSemicolons_of_ahead hs hc h hl
      (fun u hu => (hend u hu).1) (hbudget _ _ h)
    refine ⟨c₁, ?_, hr₁, ht₁⟩
    have hperiod : c₁.current.kind ≠ .symbol .period := by
      cases l with
      | nil => rw [kind_of_ahead_nil ha₁]; decide
      | cons x l =>
        obtain ⟨u, rfl, -⟩ := hl x rfl
        rw [(current_of_ahead ha₁).1]
        exact (hend u rfl).2
    have hsemi : c.current.kind = .symbol .semicolon := by
      rw [(current_of_ahead h).1]
      exact hs s (by simp)
    rw [programEnd, kind_bind, budget_bind, bind_of_ok h₁, kind_bind, if_neg hperiod,
      if_neg (by simp [hsemi])]
    rfl

/-- The end of a program stands in front of a cursor. -/
theorem endsProgram_of_calm {ending : List Token} (hd : DerivesEnding ending) (hc : c.Calm)
    (hlongest : (∃ p, ending.getLast? = some p ∧ p.kind = .symbol .period) ∨
      c.current.kind ≠ .symbol .semicolon ∧ c.current.kind ≠ .symbol .period) :
    EndsProgram (ending.map .token ++ c.ahead) := by
  refine ⟨ending, c.ahead, rfl, hd, fun x hx => ?_, hlongest.imp_right fun hend u hu => ?_⟩
  · have hne : c.current.kind ≠ .endOfFile := fun he => by simp [ahead, he] at hx
    rw [ahead_of_ne hne] at hx
    exact ⟨c.current, by simpa using hx.symm, hc.clean⟩
  · obtain ⟨l, hl⟩ := List.head?_eq_some_iff.1 hu
    exact (current_of_ahead hl).1 ▸ hend

end End

/-! ### Programs -/

/-- **The tokens `pre` are a program in front of the tokens `post`**: they are derived from the
grammar, the end of the program is as long as it can be, there is no error token up to the one behind
the program, and every name is in the table or declared before it is used. -/
structure StartsProgram (table : SymbolTable) (pre post : List Token) (tree : Node) : Prop where
  derives : DerivesProgram pre tree
  longest : (∃ p, pre.getLast? = some p ∧ p.kind = .symbol .period) ∨
    ∀ u ∈ post.head?, u.kind ≠ .symbol .semicolon ∧ u.kind ≠ .symbol .period
  clean : ∀ t ∈ pre ++ post.take 1, t.isError = false
  declared : ∀ before name after, tree.mentions = before ++ .uses name :: after →
    table.contains name = true ∨
      ∃ other, .declares other ∈ before ∧ SymbolTable.key other = SymbolTable.key name

/-- A program has a derivation whose tree has every ELSE at the nearest IF. -/
theorem DerivesProgram.disambiguate {ts : List Token} {tree : Node} (h : DerivesProgram ts tree) :
    ∃ tree', DerivesProgram ts tree' ∧ tree'.ElseNearest ∧ tree'.mentions = tree.mentions := by
  obtain ⟨hp, hname, hs, hb, hd, he, hending⟩ := h
  obtain ⟨ns', hd', hn, hm, -⟩ := hd.disambiguate
  refine ⟨_, .intro hp hname hs hb hd' he hending, ?_, ?_⟩
  · refine Node.elseNearest_of_kind (by simp) ?_
    simpa using Node.elseNearest_of_kind (by simp) hn
  · simp [Node.mentions_program, Node.mentions_operator, hm]

/-- **Everything of a program but its statements.** -/
structure Outline where
  program : Token
  name : Token
  semicolon : Token
  opening : Token
  closing : Token
  ending : List Token
  program_kind : program.kind = .keyword .programKw
  name_kind : name.kind = .identifier
  semicolon_kind : semicolon.kind = .symbol .semicolon
  opening_kind : opening.kind = .keyword .beginKw
  closing_kind : closing.kind = .keyword .endKw
  derives_ending : DerivesEnding ending

namespace Outline

variable (o : Outline)

/-- The program with the given tokens as its statements. -/
def tokens (ts : List Token) : List Token :=
  o.program :: o.name :: o.semicolon :: o.opening :: ts ++ o.closing :: o.ending

/-- The tree of the program with the given trees as its statements. -/
def tree (ns : List Node) : Node :=
  { kind := .program, line := o.program.line, text := .text o.name.text,
    children := [{ kind := .compound, line := o.opening.line, children := ns }] }

theorem derives {ts : List Token} {ns : List Node}
    (h : DerivesStatement .statements o.closing.line ts ns) :
    DerivesProgram (o.tokens ts) (o.tree ns) :=
  .intro o.program_kind o.name_kind o.semicolon_kind o.opening_kind h o.closing_kind
    o.derives_ending

theorem mentions_tree (ns : List Node) :
    (o.tree ns).mentions = .declares o.name.text :: Node.mentionsAll ns := by
  simp [tree, Node.mentions_program, Node.mentions_operator]

theorem elseNearest_tree {ns : List Node} :
    (o.tree ns).ElseNearest ↔ ∀ n ∈ ns, n.ElseNearest := by
  constructor
  · intro h n hn
    exact (h.child (List.mem_singleton.2 rfl)).child hn
  · intro h
    refine Node.elseNearest_of_kind (by simp [tree]) ?_
    simpa [tree] using Node.elseNearest_of_kind (by simp) h

end Outline

namespace Outline

theorem getLast?_tokens (o : Outline) (ts : List Token) :
    (o.tokens ts).getLast? = o.ending.getLast? := by
  obtain ⟨t, rest, hending⟩ := List.exists_cons_of_ne_nil o.derives_ending.ne_nil
  simp [tokens, hending, List.getLast?_append, List.getLast?_cons]

end Outline

/-- Every program has an outline. -/
theorem DerivesProgram.exists_outline {ts : List Token} {tree : Node} (h : DerivesProgram ts tree) :
    ∃ (o : Outline) (us : List Token) (ns : List Node), ts = o.tokens us ∧ tree = o.tree ns ∧
      DerivesStatement .statements o.closing.line us ns := by
  obtain ⟨hp, hname, hs, hb, hd, he, hending⟩ := h
  exact ⟨⟨_, _, _, _, _, _, hp, hname, hs, hb, he, hending⟩, _, _, rfl, rfl, hd⟩

/-- The first token is taken in hand. -/
theorem advance_start {feed : Feed} {table : SymbolTable} {t : Token} {s : List Token}
    {l : List Lexeme} {ms : List Mention} (hfeed : feed.rest = (t :: s).map .token ++ l)
    (hinner : ∀ u, .token u ∈ feed.rest → u.kind ≠ .endOfFile)
    (hclean : ∀ u ∈ t :: s, u.isError = false) (hdeclared : Declared table ms) :
    ∃ c, advance (.start feed table) = .ok () c ∧ Faces ⟨l, table.enterAll ms⟩ c (t :: s) ms ∧
      c.reports = feed.reports := by
  have hne : t.kind ≠ .endOfFile := hinner t (by simp [hfeed])
  have hadv : ∃ c, advance (.start feed table) = .ok () c ∧ c.reports.size = feed.reports.size := by
    simp only [advance, Feed.next, Cursor.start, hfeed, List.map_cons, List.cons_append]
    exact ⟨_, rfl, by simp [Feed.note, Token.reports_eq_nil (hclean t (by simp))]⟩
  obtain ⟨c, hadv, hsize⟩ := hadv
  obtain ⟨hc, hahead, htable, hreports⟩ := quiet_start hinner hadv hsize
  exact ⟨c, hadv, ⟨hahead.trans hfeed, hclean, hc.tidy, htable ▸ hdeclared, by rw [htable]⟩,
    hreports⟩

theorem reads_programName {tail : Tail} {c : Cursor} {name : Token} {s : List Token}
    {ms : List Mention} (hname : name.kind = .identifier)
    (hface : Faces tail c (name :: s) (.declares name.text :: ms)) (hs : s ≠ []) :
    Reads tail c programName (some name.text) s ms := by
  refine .current_bind ?_
  rw [hface.current, if_pos hname]
  refine (reads_enter hface).bind fun c h => ?_
  exact (reads_advance h hs).bind fun c h => reads_pure h _

theorem reads_programBody {rs : Token → List Report} {tail : Tail} {c : Cursor} {b e : Token}
    {ts s : List Token} {ns : List Node} {ms : List Mention} (hb : b.kind = .keyword .beginKw)
    (hlist : ReadsList rs e.line ts ns) (he : e.kind = .keyword .endKw)
    (hnearest : ∀ n ∈ ns, n.ElseNearest)
    (hface : Faces tail c (b :: (ts ++ e :: s)) (Node.mentionsAll ns ++ ms)) (hs : s ≠ []) :
    ReadsWith (rs e) tail c programBody [{ kind := .compound, line := b.line, children := ns }]
      s ms := by
  refine .kind_bind ?_
  rw [hface.current, if_pos hb]
  refine .budget_bind ?_
  have hlen := hface.length_le
  refine (reads_compoundOf hlist he hnearest ?_ hface hs).bind_reads fun c h => reads_pure h _
  simp at hlen
  omega

section Outlines

variable {feed : Feed} {table : SymbolTable} {o : Outline} {ts : List Token} {ns : List Node}
  {l : List Lexeme} {rs : Token → List Report}

/-- **A program is passed up to its end** with the reports of its statements. -/
theorem program_upto_end (hfeed : feed.rest = (o.tokens ts).map .token ++ l)
    (hinner : ∀ t, .token t ∈ feed.rest → t.kind ≠ .endOfFile)
    (hclean : ∀ t ∈ o.tokens ts, t.isError = false) (hlist : ReadsList rs o.closing.line ts ns)
    (hnearest : ∀ n ∈ ns, n.ElseNearest) (hdeclared : Declared table (o.tree ns).mentions) :
    ∃ c, program (.start feed table) =
        (do programEnd; logProgram (some o.name.text); return o.tree ns : Reading Node) c ∧
      c.Calm ∧ c.ahead = o.ending.map .token ++ l ∧
      c.table = table.enterAll (o.tree ns).mentions ∧
      c.reports.toList = feed.reports.toList ++ rs o.closing := by
  have hne := o.derives_ending.ne_nil
  obtain ⟨c₁, h₁, hface₁, hr₁⟩ := advance_start hfeed hinner hclean hdeclared
  have hface : Faces ⟨l, table.enterAll (o.tree ns).mentions⟩ c₁
      (o.program :: o.name :: o.semicolon :: o.opening :: (ts ++ o.closing :: o.ending))
      (.declares o.name.text :: (Node.mentionsAll ns ++ [])) := by
    simpa [o.mentions_tree] using hface₁
  obtain ⟨c₂, h₂, hface₂, hr₂⟩ :=
    reads_expect (w := .expectingProgram) hface o.program_kind (by simp)
  obtain ⟨c₃, h₃, hface₃, hr₃⟩ := reads_programName o.name_kind hface₂ (by simp)
  obtain ⟨c₄, h₄, hface₄, hr₄⟩ :=
    reads_expect (w := .missingSemicolon) hface₃ o.semicolon_kind (by simp)
  obtain ⟨c₅, h₅, hface₅, hr₅⟩ :=
    reads_programBody o.opening_kind hlist o.closing_kind hnearest hface₄ hne
  have hcalm : c₅.Calm := by
    obtain ⟨t, rest, hending⟩ := List.exists_cons_of_ne_nil hne
    rw [hending] at hface₅
    exact hface₅.calm
  refine ⟨c₅, ?_, hcalm, hface₅.ahead, hface₅.table, ?_⟩
  · rw [program, bind_of_ok h₁, current_bind, bind_of_ok h₂, bind_of_ok h₃, bind_of_ok h₄,
      bind_of_ok h₅, hface.current]
    rfl
  · rw [hr₅, hr₄, hr₃, hr₂, hr₁]
    simp

/-- **A program is passed** with the reports of its statements, and its tree is returned. -/
theorem program_of_readsList (hfeed : feed.rest = (o.tokens ts).map .token ++ l)
    (hinner : ∀ t, .token t ∈ feed.rest → t.kind ≠ .endOfFile)
    (hclean : ∀ t ∈ o.tokens ts, t.isError = false) (hlist : ReadsList rs o.closing.line ts ns)
    (hnearest : ∀ n ∈ ns, n.ElseNearest) (hdeclared : Declared table (o.tree ns).mentions)
    (hends : EndsProgram (o.ending.map .token ++ l)) :
    ∃ c, program (.start feed table) = .ok (o.tree ns) c ∧
      c.table = table.enterAll (o.tree ns).mentions ∧
      c.reports.toList = feed.reports.toList ++ rs o.closing := by
  obtain ⟨c, hprogram, hc, hahead, htable, hr⟩ :=
    program_upto_end hfeed hinner hclean hlist hnearest hdeclared
  obtain ⟨c₁, h₁, hr₁, ht₁⟩ := programEnd_of_ahead hc (hahead ▸ hends)
  -- what is left to do is to log the program
  have hlog : ∃ c', logProgram (some o.name.text) c₁ = .ok () c' ∧ c'.reports = c₁.reports ∧
      c'.table = c₁.table := ⟨_, rfl, rfl, rfl⟩
  obtain ⟨c₂, h₂, hr₂, ht₂⟩ := hlog
  refine ⟨c₂, ?_, by rw [ht₂, ht₁, htable], by rw [hr₂, hr₁, hr]⟩
  rw [hprogram, bind_of_ok h₁, bind_of_ok h₂]
  rfl

end Outlines

/-- **A program is read in quiet**, and the tree that comes out is the one with every ELSE at the
nearest IF. -/
theorem program_of_startsProgram {feed : Feed} {table : SymbolTable} {pre post : List Token}
    {tree : Node} (hfeed : feed.rest = (pre ++ post).map .token)
    (hinner : ∀ t ∈ pre ++ post, t.kind ≠ .endOfFile) (h : StartsProgram table pre post tree)
    (hnearest : tree.ElseNearest) :
    ∃ c', program (.start feed table) = .ok tree c' ∧ c'.reports = feed.reports := by
  obtain ⟨hd, hlongest, hclean, hdeclared⟩ := h
  rw [← declared_iff] at hdeclared
  obtain ⟨o, ts, ns, rfl, rfl, hstatements⟩ := hd.exists_outline
  rw [o.getLast?_tokens] at hlongest
  have hends : EndsProgram (o.ending.map .token ++ post.map .token) := by
    refine ⟨o.ending, post.map .token, rfl, o.derives_ending, fun x hx => ?_,
      hlongest.imp_right fun h u hu => h u (by simpa using hu)⟩
    cases post with
    | nil => cases hx
    | cons u post =>
      obtain rfl : .token u = x := by simpa using hx
      exact ⟨u, rfl, hclean u (by simp)⟩
  obtain ⟨c, hprogram, -, hr⟩ := program_of_readsList (by rw [hfeed, List.map_append])
    (fun u hu => hinner u (by simpa [hfeed] using hu))
    (fun u hu => hclean u (List.mem_append_left _ hu)) (readsList_of_derives hstatements)
    (o.elseNearest_tree.1 hnearest) hdeclared hends
  exact ⟨c, hprogram, Array.toList_inj.1 (by simpa using hr)⟩

/-- The tree that is read in quiet has every ELSE at the nearest IF, since the tree of another
derivation that has it there is read from the same tokens. -/
theorem elseNearest_of_program {feed : Feed} {table : SymbolTable} {tree : Node} {c : Cursor}
    (hinner : ∀ t, .token t ∈ feed.rest → t.kind ≠ .endOfFile)
    (h : program (.start feed table) = .ok tree c) (hq : c.reports.size = feed.reports.size) :
    tree.ElseNearest := by
  obtain ⟨ts, haccepts⟩ := sound_program hinner h hq
  obtain ⟨tree', hd, hnearest, hm⟩ := haccepts.derives.disambiguate
  obtain ⟨o, us, ns, rfl, rfl, hstatements⟩ := hd.exists_outline
  have hlongest := haccepts.longest
  rw [o.getLast?_tokens] at hlongest
  obtain ⟨c', h', -⟩ := program_of_readsList haccepts.rest hinner haccepts.clean
    (readsList_of_derives hstatements) (o.elseNearest_tree.1 hnearest) (hm ▸ haccepts.declared)
    (endsProgram_of_calm o.derives_ending haccepts.calm hlongest)
  -- reading is a function, so that the two trees are the same
  rw [h] at h'
  cases h'
  exact hnearest

/-! ### Acceptance -/

/-- The feed of the given tokens, with no reports yet. -/
def Feed.ofTokens (tokens : List Token) : Feed := ⟨tokens.map .token, 1, #[], #[]⟩

theorem errorCount_eq_ok {feed : Feed} {table : SymbolTable} {k : Nat} :
    (parseFeed feed table).errorCount = .ok k ↔
      ∃ tree c, program (.start feed table) = .ok tree c ∧ c.reports.size = k := by
  cases h : program (.start feed table) with
  | ok tree c =>
    rw [parseFeed_of_ok h]
    simp [Parse.errorCount, Except.map, and_assoc]
  | error halt c =>
    rw [parseFeed_of_error h]
    simp [Parse.errorCount, Except.map]

/-- What is read in quiet is a program that the tokens start with. -/
theorem startsProgram_of_program {tokens : List Token} {table : SymbolTable} {tree : Node}
    {c : Cursor} (hinner : ∀ t ∈ tokens, t.kind ≠ .endOfFile)
    (h : program (.start (.ofTokens tokens) table) = .ok tree c) (hq : c.reports.size = 0) :
    ∃ pre post, tokens = pre ++ post ∧ StartsProgram table pre post tree ∧
      c.table = table.enterAll tree.mentions := by
  obtain ⟨pre, hd, hrest, hclean, hcalm, hdeclared, htable, hlongest⟩ :=
    sound_program (fun t ht => hinner t (by simpa [Feed.ofTokens] using ht)) h hq
  obtain ⟨pre', post, rfl, hpre, hpost⟩ := List.map_eq_append_iff.1 hrest
  obtain rfl : pre' = pre := (List.map_inj_right fun _ _ h => Lexeme.token.inj h).1 hpre
  -- the token behind the program is the current one
  have hcurrent : ∀ u ∈ post.head?, c.current = u := by
    intro u hu
    cases post with
    | nil => cases hu
    | cons u' post =>
      cases hu
      exact (current_of_ahead hpost.symm).1
  refine ⟨pre', post, rfl, ⟨hd, hlongest.imp id fun hend u hu => hcurrent u hu ▸ hend, ?_,
    (declared_iff _ _).1 hdeclared⟩, htable⟩
  intro t ht
  rcases List.mem_append.1 ht with ht | ht
  · exact hclean t ht
  · rw [← hcurrent t (by cases post <;> simp_all)]
    exact hcalm.clean

/-- **The reader accepts exactly its grammar.** Reading the tokens with the names of the given table
declared gives a tree without any error if and only if the tokens start with a program in which
every name is declared before it is used, and there is no error token up to the one behind it. -/
theorem errorCount_eq_zero_iff (tokens : List Token) (table : SymbolTable)
    (hinner : ∀ t ∈ tokens, t.kind ≠ .endOfFile) :
    (parseFeed (.ofTokens tokens) table).errorCount = .ok 0 ↔
      ∃ pre post tree, tokens = pre ++ post ∧ StartsProgram table pre post tree := by
  rw [errorCount_eq_ok]
  constructor
  · rintro ⟨tree, c, h, hq⟩
    obtain ⟨pre, post, hsplit, hstarts, -⟩ := startsProgram_of_program hinner h hq
    exact ⟨pre, post, tree, hsplit, hstarts⟩
  · rintro ⟨pre, post, tree, rfl, h⟩
    -- the tree that is read need not be the given one, but it mentions the same names
    obtain ⟨tree', hd, hnearest, hm⟩ := h.derives.disambiguate
    have h' : StartsProgram table pre post tree' :=
      ⟨hd, h.longest, h.clean, hm ▸ h.declared⟩
    have hfeed : (Feed.ofTokens (pre ++ post)).rest = (pre ++ post).map .token := rfl
    obtain ⟨c, hprogram, hreports⟩ := program_of_startsProgram hfeed hinner h' hnearest
    exact ⟨tree', c, hprogram, by rw [hreports]; rfl⟩

/-- A program that assigns to a variable and writes it is accepted, and it is not if the assignment is
left out. -/
theorem errorCount_eq_zero_iff_assigned :
    let front : List Token := [⟨.keyword .programKw, 1, "PROGRAM"⟩, ⟨.identifier, 1, "a"⟩,
      ⟨.symbol .semicolon, 1, ";"⟩, ⟨.keyword .beginKw, 1, "BEGIN"⟩]
    let assignment : List Token := [⟨.identifier, 2, "x"⟩, ⟨.symbol .becomes, 2, ":="⟩,
      ⟨.integer 1, 2, "1"⟩, ⟨.symbol .semicolon, 2, ";"⟩]
    let back : List Token := [⟨.identifier, 3, "writeln"⟩, ⟨.symbol .leftParen, 3, "("⟩,
      ⟨.identifier, 3, "x"⟩, ⟨.symbol .rightParen, 3, ")"⟩, ⟨.keyword .endKw, 3, "END"⟩,
      ⟨.symbol .period, 3, "."⟩]
    (∃ pre post tree, front ++ assignment ++ back = pre ++ post ∧
      StartsProgram .empty pre post tree) ∧
    ¬∃ pre post tree, front ++ back = pre ++ post ∧ StartsProgram .empty pre post tree := by
  intro front assignment back
  let whole := front ++ assignment ++ back
  have hread : (parseFeed (.ofTokens whole) .empty).errorCount.toOption = some 0 ∧
      (parseFeed (.ofTokens (front ++ back)) .empty).errorCount.toOption = some 1 := by
    decide +kernel
  refine ⟨(errorCount_eq_zero_iff whole .empty (by decide)).1 (eq_ok_of_toOption hread.1), fun h => ?_⟩
  rw [(errorCount_eq_zero_iff _ .empty (by decide)).2 h] at hread
  cases hread.2

end MiniPascal

import MiniPascal.Proofs.Grammar.Place

/-!
# Where the signs of a program stand

Semicolons are between statements and between branches, and `:=` is in assignments. There is neither of
them in any other part of a program, the heading and the end apart. Each of these signs therefore
**stands** in one phrase that it belongs to, with frames around it, and what is in front of it and behind
it in the program is known from there.

A list in a program has fixed neighbours: in front of it there is a word that opens it or a semicolon,
and behind it the word that closes it. So the two tokens next to a sign tell which phrase it belongs to.

* `MiniPascal.Owns`: a sign and the phrase that it belongs to.
* `MiniPascal.DerivesStatement.stands`: every sign stands in a phrase.
* `MiniPascal.Around.getLast?_front`, `MiniPascal.Around.head?_back`: the neighbours of lists.
* `MiniPascal.Place.exists_of_sign`: every sign of the statements of a program stands in a place.
* `MiniPascal.Place.exists_of_semicolon`, `MiniPascal.Place.exists_of_becomes`: semicolons between
  statements, and assignments.
-/

namespace MiniPascal

/-! ### Splitting lists -/

section Split

variable {α : Type} {x s : α} {front mid back as bs : List α}

/-- An element of two lists in a row is in the first one or in the second one. -/
theorem split_append (h : front ++ back = as ++ x :: bs) :
    (∃ cs, front = as ++ x :: cs ∧ bs = cs ++ back) ∨ ∃ cs, as = front ++ cs ∧ back = cs ++ x :: bs := by
  rcases List.append_eq_append_iff.1 h with ⟨cs, rfl, hback⟩ | ⟨cs, rfl, hx⟩
  · exact .inr ⟨cs, rfl, hback⟩
  · cases cs with
    | nil => exact .inr ⟨[], by simp, hx.symm⟩
    | cons c cs =>
      cases hx
      exact .inl ⟨cs, rfl, rfl⟩

/-- The same with a single element between the lists. -/
theorem split_append_cons (h : front ++ s :: back = as ++ x :: bs) :
    (∃ cs, front = as ++ x :: cs ∧ bs = cs ++ s :: back) ∨ (as = front ∧ x = s ∧ bs = back) ∨
      ∃ cs, as = front ++ s :: cs ∧ back = cs ++ x :: bs := by
  rcases split_append h with hfront | ⟨cs, rfl, hback⟩
  · exact .inl hfront
  · cases cs with
    | nil =>
      cases hback
      exact .inr (.inl ⟨by simp, rfl, rfl⟩)
    | cons c cs =>
      cases hback
      exact .inr (.inr ⟨cs, rfl, rfl⟩)

/-- What is in neither of the outer lists is in the middle one. -/
theorem split_between (h : front ++ mid ++ back = as ++ x :: bs) (hfront : x ∉ front)
    (hback : x ∉ back) : ∃ as' bs', as = front ++ as' ∧ bs = bs' ++ back ∧ mid = as' ++ x :: bs' := by
  rcases split_append h with ⟨cs, hmid, rfl⟩ | ⟨cs, -, rfl⟩
  · rcases split_append hmid with ⟨cs', rfl, -⟩ | ⟨cs', rfl, rfl⟩
    · simp at hfront
    · exact ⟨cs', cs, rfl, rfl, rfl⟩
  · simp at hback

theorem forall_mem_enclosed {P : α → Prop} {a b : α} {xs : List α} (ha : P a) (hxs : ∀ y ∈ xs, P y)
    (hb : P b) : ∀ y ∈ a :: xs ++ [b], P y :=
  List.forall_mem_append.2 ⟨List.forall_mem_cons.2 ⟨ha, hxs⟩, List.forall_mem_singleton.2 hb⟩

end Split

/-! ### Signs in phrases -/

/-- **A sign and the phrase that it belongs to**, with the tokens of the phrase in front of it and behind
it. The sign is in no phrase within this one. -/
inductive Owns (x : Token) : StatementPhrase → Nat → List Token → List Token → List Node → Prop
  | assignment {m : Nat} {v : Token} {es : List Token} {e : Node} : v.kind = .identifier →
    v.writeKind? = none → x.kind = .symbol .becomes → DerivesExpression .expression es e →
    Owns x .statement m [v] es [{ kind := .assign, line := v.line, children := [v.variableNode, e] }]
  | forLoop {m : Nat} {f v : Token} {bs : List Token} {ns : List Node} : f.kind = .keyword .forKw →
    x.kind = .symbol .becomes → Owns x .statement m [f, v] bs ns
  | statements {m : Nat} {ts us : List Token} {ls ms : List Node} :
    DerivesStatement .statement x.line ts ls → x.kind = .symbol .semicolon →
    DerivesStatement .statements m us ms → Owns x .statements m ts us (ls ++ ms)
  | branches {m : Nat} {ts us : List Token} {ns ms : List Node} : x.kind = .symbol .semicolon →
    DerivesStatement .branches m us ms → Owns x .branches m ts us ns

/-- **The sign stands somewhere in a phrase**, with the tokens of the phrase in front of it and behind
it. -/
inductive Stands (x : Token) (q : StatementPhrase) (m : Nat) :
    List Token → List Token → List Node → Prop
  | intro {p : StatementPhrase} {n : Nat} {front back as bs : List Token} {grow : List Node → List Node}
      {ns : List Node} : Around p n q m front back grow → Owns x p n as bs ns →
    Stands x q m (front ++ as) (bs ++ back) (grow ns)

section Signs

variable {x : Token} {p q : StatementPhrase} {n m : Nat} {front back ts us as bs : List Token}
  {grow : List Node → List Node} {ns ms : List Node}

theorem Owns.stands (h : Owns x q m as bs ns) : Stands x q m as bs ns := by
  have hs : Stands x q m ([] ++ as) (bs ++ []) (id ns) := .intro .here h
  rwa [List.append_nil] at hs

/-- What stands in the gap of a frame stands in the whole. -/
theorem Frame.stands (h : Frame p n q m front back grow) (hs : Stands x p n as bs ns) :
    Stands x q m (front ++ as) (bs ++ back) (grow ns) := by
  cases hs with
  | intro haround howns =>
    have hs := Stands.intro (.inside h haround) howns
    simpa using hs

/-- A sign of the whole that is not one of the frame stands in its gap. -/
theorem Frame.stands_of_split (h : Frame p n q m front back grow) (hfront : x ∉ front) (hback : x ∉ back)
    (hsplit : front ++ us ++ back = as ++ x :: bs)
    (hgap : ∀ {as' bs' : List Token}, us = as' ++ x :: bs' → Stands x p n as' bs' ns) :
    Stands x q m as bs (grow ns) := by
  obtain ⟨as', bs', rfl, rfl, hus⟩ := split_between hsplit hfront hback
  exact h.stands (hgap hus)

/-- **Every sign stands in a phrase that it belongs to.** -/
theorem DerivesStatement.stands (hx : x.IsSign) (h : DerivesStatement q m ts ns)
    (hsplit : ts = as ++ x :: bs) : Stands x q m as bs ns := by
  have hout {us : List Token} (hus : ∀ t ∈ us, t.Inner) : x ∉ us := fun hmem =>
    (hus x hmem).not_isSign hx
  have hnil : x ∉ ([] : List Token) := List.not_mem_nil
  induction h generalizing as bs with
  | empty | none | noBranch => simp at hsplit
  | assignment ha hw =>
    cases ha with
    | intro hv hb he =>
      have hv' := hout (List.forall_mem_singleton.2 (Token.inner_of_identifier hv))
      rcases split_append_cons (show [_] ++ _ :: _ = _ from hsplit) with
        ⟨cs, hcs, -⟩ | ⟨rfl, rfl, rfl⟩ | ⟨cs, -, rfl⟩
      · exact absurd (hcs ▸ by simp) hv'
      · exact (Owns.assignment hv hw hb he).stands
      · exact absurd (by simp) (hout he.inner)
  | writeln hk =>
    exact absurd (by simp [hsplit]) (hout (List.forall_mem_singleton.2 (Token.inner_of_identifier hk)))
  | write hk _ hl hn hf hr =>
    have hmem := hsplit ▸ List.mem_append_right as (List.mem_cons_self (a := x) (l := bs))
    refine absurd hmem (hout ?_)
    rw [List.forall_mem_append, List.forall_mem_singleton]
    simp only [List.forall_mem_append, List.forall_mem_cons]
    exact ⟨⟨⟨Token.inner_of_identifier hk, Token.inner_of_symbol hl (by decide), hn.inner⟩, hf.inner⟩,
      Token.inner_of_symbol hr (by decide)⟩
  | compound hb _ he ih =>
    exact (Frame.compound hb he).stands_of_split
      (hout (List.forall_mem_singleton.2 (Token.inner_of_keyword hb)))
      (hout (List.forall_mem_singleton.2 (Token.inner_of_keyword he))) hsplit ih
  | conditional hi hc hth _ ih =>
    refine (Frame.conditional hi hc hth).stands_of_split (hout ?_) hnil (by simpa using hsplit) ih
    exact forall_mem_enclosed (Token.inner_of_keyword hi) hc.inner (Token.inner_of_keyword hth)
  | alternative hi hc hth hs hel he ihs ihe =>
    rcases split_append_cons hsplit with ⟨cs, hcs, rfl⟩ | ⟨-, rfl, -⟩ | ⟨cs, rfl, hvs⟩
    · have hfront := hout (forall_mem_enclosed (Token.inner_of_keyword hi) hc.inner
        (Token.inner_of_keyword hth))
      obtain ⟨as', bs', rfl, rfl, hus⟩ := split_between (by simpa using hcs) hfront hnil
      simpa using (Frame.consequence hi hc hth hel he).stands (ihs hus)
    · exact absurd hx (Token.inner_of_keyword hel).not_isSign
    · simpa using (Frame.alternative hi hc hth hs hel).stands (ihe hvs)
  | whileLoop hw hc hd _ ih =>
    refine (Frame.whileLoop hw hc hd).stands_of_split (hout ?_) hnil (by simpa using hsplit) ih
    exact forall_mem_enclosed (Token.inner_of_keyword hw) hc.inner (Token.inner_of_keyword hd)
  | loop hr _ hu hc ih =>
    exact (Frame.loop hr hu hc).stands_of_split
      (hout (List.forall_mem_singleton.2 (Token.inner_of_keyword hr)))
      (hout (List.forall_mem_cons.2 ⟨Token.inner_of_keyword hu, hc.inner⟩)) hsplit ih
  | @forLoop next f way d ts us vs a l s hf ha hto hl hd _ ih =>
    have hframe : Frame .nested next .statement next (f :: ts ++ way :: us ++ [d]) [] _ :=
      .forLoop hf ha hto hl hd
    cases ha with
    | @intro v b es e hv hb he =>
      have hfront := hout (List.forall_mem_cons.2 ⟨Token.inner_of_keyword hf,
        List.forall_mem_singleton.2 (Token.inner_of_identifier hv)⟩)
      have hlimit : ∀ t ∈ es ++ way :: us ++ [d], t.Inner := by
        simp only [List.forall_mem_append, List.forall_mem_cons]
        exact ⟨⟨he.inner, hto.elim Token.inner_of_keyword Token.inner_of_keyword, hl.inner⟩,
          Token.inner_of_keyword hd, by simp⟩
      rcases split_append_cons (show [f, v] ++ b :: (es ++ way :: us ++ d :: vs) = as ++ x :: bs by
        simpa using hsplit) with ⟨cs, hcs, -⟩ | ⟨rfl, rfl, rfl⟩ | ⟨cs, rfl, hcs⟩
      · exact absurd (hcs ▸ by simp) hfront
      · exact (Owns.forLoop hf hb).stands
      · obtain ⟨as', bs', rfl, rfl, hvs⟩ := split_between
          (show es ++ way :: us ++ [d] ++ vs ++ [] = cs ++ x :: bs by simpa using hcs) (hout hlimit) hnil
        simpa using hframe.stands (ih hvs)
  | select hk hc ho _ he ih =>
    refine (Frame.select hk hc ho he).stands_of_split (hout ?_)
      (hout (List.forall_mem_singleton.2 (Token.inner_of_keyword he))) (by simpa using hsplit) ih
    exact forall_mem_enclosed (Token.inner_of_keyword hk) hc.inner (Token.inner_of_keyword ho)
  | some _ ih => exact Frame.some.stands_of_split hnil hnil (by simpa using hsplit) ih
  | one _ ih => exact Frame.one.stands_of_split hnil hnil (by simpa using hsplit) ih
  | more hd hs hd' ih ih' =>
    rcases split_append_cons hsplit with ⟨cs, hts, rfl⟩ | ⟨rfl, rfl, rfl⟩ | ⟨cs, rfl, hus⟩
    · exact (Frame.first hs hd').stands (ih hts)
    · exact (Owns.statements hd hs hd').stands
    · simpa using (Frame.rest hd hs).stands (ih' hus)
  | branch hl hc _ ih =>
    refine (Frame.branch hl hc).stands_of_split (hout ?_) hnil (by simpa using hsplit) ih
    rw [List.forall_mem_append, List.forall_mem_singleton]
    exact ⟨hl.inner, Token.inner_of_symbol hc (by decide)⟩
  | @noBranchMore _ s us _ hs hd ih =>
    rcases split_append_cons (show [] ++ s :: us = as ++ x :: bs from hsplit) with
      ⟨cs, hcs, -⟩ | ⟨rfl, rfl, rfl⟩ | ⟨cs, rfl, hus⟩
    · simp at hcs
    · exact (Owns.branches hs hd).stands
    · simpa using (Frame.noBranchMore hs).stands (ih hus)
  | oneBranch _ ih => exact Frame.oneBranch.stands_of_split hnil hnil (by simpa using hsplit) ih
  | moreBranches hd hs hd' ih ih' =>
    rcases split_append_cons hsplit with ⟨cs, hts, rfl⟩ | ⟨rfl, rfl, rfl⟩ | ⟨cs, rfl, hus⟩
    · exact (Frame.firstBranch hs hd').stands (ih hts)
    · exact (Owns.branches hs hd').stands
    · simpa using (Frame.restBranches hd hs).stands (ih' hus)

/-- No statement starts where a constant can start. -/
theorem Token.Kind.startsStatement_of_startsConstant {k : Token.Kind} (h : k.startsConstant = true) :
    k.startsStatement = false := by
  unfold startsConstant at h
  split at h <;> first | rfl | cases h

/-- Branches do not start like a statement. -/
theorem startsStatement_of_branches {t : Token} (h : DerivesStatement .branches m (t :: us) ns) :
    t.kind.startsStatement = false := by
  have hbranch {m : Nat} {ts us vs : List Token} {ns : List Node} (h : DerivesStatement .branch m ts ns)
      (hts : ts ++ us = t :: vs) : t.kind.startsStatement = false := by
    cases h with
    | branch hl =>
      obtain ⟨rfl, -⟩ := List.cons.inj hts
      exact Token.Kind.startsStatement_of_startsConstant hl.startsConstant
  generalize hts : t :: us = ts at h
  cases h with
  | noBranch => cases hts
  | noBranchMore hs =>
    obtain ⟨rfl, -⟩ := List.cons.inj hts
    simp [hs, Token.Kind.startsStatement]
  | oneBranch hd => exact hbranch hd ((List.append_nil _).trans hts.symm)
  | moreBranches hd => exact hbranch hd hts.symm

/-! ### The neighbours of lists -/

/-- In front of a list of statements there is a word that opens it, or a semicolon. -/
theorem Around.getLast?_front (h : Around .statements n q m front back grow) :
    q = .statements ∧ front = [] ∨ ∃ u ∈ front.getLast?,
      u.kind = .keyword .beginKw ∨ u.kind = .keyword .repeatKw ∨ u.kind = .symbol .semicolon := by
  induction h with
  | here => exact .inl ⟨rfl, rfl⟩
  | inside hframe _ ih =>
    rcases ih with ⟨rfl, rfl⟩ | ⟨u, hu, hk⟩
    · cases hframe with
      | compound hb => exact .inr ⟨_, rfl, .inl hb⟩
      | loop hr => exact .inr ⟨_, rfl, .inr (.inl hr)⟩
      | rest _ hs => exact .inr ⟨_, by simp, .inr (.inr hs)⟩
    · exact .inr ⟨u, by simp_all, hk⟩

/-- Behind a list there is the word that closes it. -/
theorem Around.head?_back (h : Around p n q m front back grow) (hp : p = .statements ∨ p = .branches) :
    q = p ∧ back = [] ∨ ∃ u ∈ back.head?, u.kind = .keyword .endKw ∨ u.kind = .keyword .untilKw := by
  induction h with
  | here => exact .inl ⟨rfl, rfl⟩
  | inside hframe _ ih =>
    rcases ih with ⟨rfl, rfl⟩ | ⟨u, hu, hk⟩
    · cases hframe with
      | compound _ he => exact .inr ⟨_, rfl, .inl he⟩
      | select _ _ _ he => exact .inr ⟨_, rfl, .inl he⟩
      | loop _ hu => exact .inr ⟨_, rfl, .inr hu⟩
      | rest | noBranchMore | restBranches => exact .inl ⟨rfl, rfl⟩
      | _ => simp at hp
    · exact .inr ⟨u, by simp_all, hk⟩

end Signs

/-! ### Signs in programs -/

/-- The end of a program consists of semicolons and a period. -/
theorem DerivesEnding.kind_of_mem {ts : List Token} (h : DerivesEnding ts) :
    ∀ t ∈ ts, t.kind = .symbol .semicolon ∨ t.kind = .symbol .period := by
  cases h with
  | period hs hp =>
    exact List.forall_mem_append.2 ⟨fun t ht => .inl (hs t ht), List.forall_mem_singleton.2 (.inr hp)⟩
  | bare hs => exact fun t ht => .inl (hs t ht)

/-- **Every sign of a program** is the semicolon of its heading, or one of its end, or it stands in a
place that has the phrase to which it belongs. -/
theorem Place.exists_of_sign {x : Token} {as bs : List Token} {tree : Node} (hx : x.IsSign)
    (h : DerivesProgram (as ++ x :: bs) tree) :
    (as.length = 2 ∧ x.kind = .symbol .semicolon) ∨
      (∀ t ∈ x :: bs, t.kind = .symbol .semicolon ∨ t.kind = .symbol .period) ∨
      ∃ (p : StatementPhrase) (P : Place p) (as' bs' : List Token) (ns : List Node),
        as = P.before ++ as' ∧ bs = bs' ++ P.after ∧ tree = P.tree ns ∧ Owns x p P.line as' bs' ns := by
  obtain ⟨o, us, ns, hsplit, rfl, hd⟩ := h.exists_outline
  have hne {w : Token} (hw : w.Inner) : x ≠ w := fun heq => hw.not_isSign (heq ▸ hx)
  have hprogram := hne (Token.inner_of_keyword o.program_kind)
  have hname := hne (Token.inner_of_identifier o.name_kind)
  rcases split_append_cons
      (show [o.program, o.name] ++ o.semicolon :: (o.opening :: us ++ o.closing :: o.ending) =
        as ++ x :: bs from hsplit.symm) with ⟨cs, hcs, -⟩ | ⟨rfl, rfl, -⟩ | ⟨cs, rfl, hcs⟩
  · have hmem : x ∈ [o.program, o.name] := hcs ▸ by simp
    simp [hprogram, hname] at hmem
  · exact .inl ⟨rfl, o.semicolon_kind⟩
  rcases split_append_cons hcs with ⟨cs', hstatements, rfl⟩ | ⟨-, rfl, -⟩ | ⟨cs', rfl, hending⟩
  · obtain ⟨as', bs', rfl, rfl, hus⟩ := split_between
      (show [o.opening] ++ us ++ [] = cs ++ x :: cs' by simpa using hstatements)
      (by simpa using hne (Token.inner_of_keyword o.opening_kind)) List.not_mem_nil
    -- the sign stands in the statements of the program, and with the outline that is a place
    cases hd.stands hx hus with
    | @intro p n front back as bs grow ns haround howns =>
      let P : Place p := { o with line := n, front, back, grow, around := haround }
      exact .inr (.inr
        ⟨p, P, as, bs, ns, by simp [P, Place.before], by simp [P, Place.after], rfl, howns⟩)
  · exact absurd hx (Token.inner_of_keyword o.closing_kind).not_isSign
  · refine .inr (.inl fun t ht => o.derives_ending.kind_of_mem t ?_)
    rw [hending]
    exact List.mem_append_right _ ht

namespace Place

/-- In front of a list of statements there is a word that opens it, or a semicolon. -/
theorem getLast?_before (P : Place .statements) : ∃ u ∈ P.before.getLast?,
    u.kind = .keyword .beginKw ∨ u.kind = .keyword .repeatKw ∨ u.kind = .symbol .semicolon := by
  rcases P.around.getLast?_front with ⟨-, hfront⟩ | ⟨u, hu, hk⟩
  · exact ⟨P.opening, by simp [before, hfront], .inl P.opening_kind⟩
  · exact ⟨u, by simp_all [before, List.getLast?_cons], hk⟩

/-- Behind a list there is the word that closes it. -/
theorem kind_behind {p : StatementPhrase} (P : Place p) (hp : p = .statements ∨ p = .branches) :
    P.behind.kind = .keyword .endKw ∨ P.behind.kind = .keyword .untilKw := by
  rcases P.around.head?_back hp with ⟨-, hback⟩ | ⟨u, hu, hk⟩
  · exact .inl (by simpa [behind, hback] using P.closing_kind)
  · obtain ⟨back, hback⟩ := List.head?_eq_some_iff.1 hu
    simpa [behind, hback] using hk

end Place

/-- Tokens behind which a statement is to begin. -/
def Token.Kind.awaitsStatement : Kind → Bool
  | symbol .semicolon | keyword .beginKw | keyword .repeatKw | keyword .thenKw | keyword .elseKw
  | keyword .doKw => true
  | _ => false

namespace Place

variable {u v s t : Token} {as bs : List Token} {tree : Node}

/-- **A semicolon between two statements stands in a list of statements.** The token `u` in front of it is
the last one of a statement, and with the token `t` behind it the next one starts. -/
theorem exists_of_semicolon (hs : s.kind = .symbol .semicolon) (has : 1 < as.length)
    (hu : u.kind.awaitsStatement = false) (ht : t.kind.startsStatement = true)
    (h : DerivesProgram (as ++ u :: s :: t :: bs) tree) :
    ∃ (P : Place .statements) (us vs : List Token) (n : Node) (ns : List Node),
      as = P.before ++ us ∧ bs = vs ++ P.after ∧ tree = P.tree (n :: ns) ∧
        DerivesStatement .statement s.line (us ++ [u]) [n] ∧
        DerivesStatement .statements P.line (t :: vs) ns := by
  rw [List.append_cons] at h
  rcases exists_of_sign (.inl hs) h with
    ⟨hlength, -⟩ | hending | ⟨p, P, as', bs', ns, has', hbs, rfl, howns⟩
  · simp at hlength
    omega
  · rcases hending t (by simp) with hk | hk <;> simp [hk, Token.Kind.startsStatement] at ht
  -- what is behind a list does not start a statement, so that `t` is in the list
  have hin (hp : p = .statements ∨ p = .branches) : ∃ vs, bs' = t :: vs ∧ bs = vs ++ P.after := by
    cases bs' with
    | nil =>
      have hhead := P.head?_after
      rw [← show t :: bs = P.after from hbs] at hhead
      cases hhead
      rcases P.kind_behind hp with hk | hk <;> simp [hk, Token.Kind.startsStatement] at ht
    | cons w vs =>
      obtain ⟨rfl, rfl⟩ := List.cons.inj hbs
      exact ⟨vs, rfl, rfl⟩
  cases howns with
  | assignment _ _ hb => simp [hs] at hb
  | forLoop _ hb => simp [hs] at hb
  | branches _ hbranches =>
    obtain ⟨vs, rfl, -⟩ := hin (.inr rfl)
    simp [startsStatement_of_branches hbranches] at ht
  | @statements _ _ _ ls ms hfirst _ hrest =>
    obtain ⟨vs, rfl, rfl⟩ := hin (.inl rfl)
    rcases List.eq_nil_or_concat as' with rfl | ⟨us, w, hus⟩
    · -- in front of a list no statement has ended
      obtain ⟨w, hw, hk⟩ := P.getLast?_before
      rw [← List.append_nil P.before, ← has'] at hw
      obtain rfl : u = w := by simpa using hw
      rcases hk with hk | hk | hk <;> simp [hk, Token.Kind.awaitsStatement] at hu
    · obtain rfl : as' = us ++ [w] := hus.trans List.concat_eq_append
      obtain ⟨rfl, hw⟩ := List.append_inj' (has'.trans (List.append_assoc _ _ _).symm) rfl
      obtain rfl : u = w := List.head_eq_of_cons_eq hw
      obtain ⟨hnil, -⟩ | ⟨n, -, -, rfl, -⟩ := hfirst.empty_or_starts
      · simp at hnil
      · exact ⟨P, us, vs, n, ms, rfl, rfl, rfl, hfirst, hrest⟩

/-- **An assignment that is not in the head of a FOR loop is a statement**, and it has a place. -/
theorem exists_of_becomes {b : Token} (hb : b.kind = .symbol .becomes)
    (hfor : ∀ f ∈ as.getLast?, f.kind ≠ .keyword .forKw) (h : DerivesProgram (as ++ v :: b :: bs) tree) :
    ∃ (P : Place .statement) (es : List Token) (e : Node),
      as = P.before ∧ bs = es ++ P.after ∧
        tree = P.tree [{ kind := .assign, line := v.line, children := [v.variableNode, e] }] ∧
        v.kind = .identifier ∧ v.writeKind? = none ∧ DerivesExpression .expression es e := by
  rw [List.append_cons] at h
  rcases exists_of_sign (.inr hb) h with
    ⟨-, hk⟩ | hending | ⟨p, P, as', es, ns, has', rfl, rfl, howns⟩
  · simp [hb] at hk
  · rcases hending b List.mem_cons_self with hk | hk <;> simp [hb] at hk
  cases howns with
  | @assignment _ v' _ e hv hw _ he =>
    obtain ⟨rfl, hv'⟩ := List.append_inj' has' rfl
    obtain rfl : v = v' := List.head_eq_of_cons_eq hv'
    exact ⟨P, es, e, rfl, rfl, rfl, hv, hw, he⟩
  | @forLoop _ f v' _ _ hf =>
    obtain ⟨rfl, -⟩ := List.append_inj' (has'.trans (List.append_cons P.before f _)) rfl
    exact absurd hf (hfor f (by simp))
  | statements _ hk => simp [hb] at hk
  | branches hk => simp [hb] at hk

end Place

end MiniPascal

import MiniPascal.Proofs.Grammar.Ending
import MiniPascal.Proofs.Grammar.Sketching
import MiniPascal.Proofs.Token.Stream
import MiniPascal.Run.Program

/-!
# Reports are in order

Two parties make reports: the feed about an error token that it hands out, and a reader about the
token that it has in hand. Both are about the last token handed out, so that no report is ahead of it.
As the lines of tokens never decrease, neither do those of reports.

So everything about the reports can be read off the tokens that were handed out up to some call. What
has been reported up to a cursor is **accounted for** by them (`MiniPascal.Cursor.Accounts`). A reader
calls for a token only to take it in hand, and those are all the tokens that it ever has in hand.

* `MiniPascal.line_of_mem_handedOut`: the lines of the tokens of a text.
* `MiniPascal.Cursor.Accounts`: the reports are accounted for by the tokens of `k` calls.
* `MiniPascal.reports_of_tree`: the reports of a program text.
-/

namespace MiniPascal

/-! ### The lines of tokens -/

namespace Feed

/-- All lines in front are lines of a text with `n` lines. -/
structure Within (n : Nat) (feed : Feed) : Prop where
  last : 1 ≤ feed.lastLine ∧ feed.lastLine ≤ n
  rest : ∀ t, .token t ∈ feed.rest → 1 ≤ t.line ∧ t.line ≤ n

variable {n : Nat} {feed : Feed}

theorem Within.next (h : feed.Within n) :
    feed.next.2.Within n ∧ ∀ t ∈ feed.next.1, 1 ≤ t.line ∧ t.line ≤ n := by
  unfold Feed.next
  split
  · refine ⟨h, ?_⟩
    rintro t ⟨⟩
    exact h.last
  · rename_i rest hrest
    exact ⟨⟨h.last, fun t ht => h.rest t (by rw [hrest]; exact List.mem_cons_of_mem _ ht)⟩, nofun⟩
  · rename_i t rest hrest
    have ht := h.rest t (by rw [hrest]; exact List.mem_cons_self)
    refine ⟨⟨ht, fun t' ht' => h.rest t' (by rw [hrest]; exact List.mem_cons_of_mem _ ht')⟩, ?_⟩
    rintro t' ⟨⟩
    exact ht

theorem Within.after (h : feed.Within n) : ∀ k, (feed.after k).Within n
  | 0 => h
  | k + 1 => (h.after k).next.1

theorem Within.of_mem_handedOut (h : feed.Within n) {k : Nat} {t : Token}
    (ht : t ∈ feed.handedOut k) : 1 ≤ t.line ∧ t.line ≤ n := by
  obtain ⟨i, -, hi⟩ := List.mem_filterMap.1 ht
  exact (h.after i).next.2 t hi

end Feed

/-- The lines of tokens go up with the line ends in the pieces. -/
theorem line_le_of_mem_lexemesFrom {line : Nat} {ps : List Piece} {t : Token}
    (h : .token t ∈ lexemesFrom line ps) :
    t.line ≤ line + (ps.flatMap (·.text)).count (.char '\n') := by
  induction ps generalizing line with
  | nil => cases h
  | cons p ps ih =>
    rw [List.flatMap_cons, List.count_append]
    rcases List.mem_append.1 h with h | h
    · obtain ⟨rfl, -⟩ := Piece.token_of_lexeme? (Option.mem_toList.1 h)
      omega
    · have := ih h
      rw [Piece.lineEnds] at this
      omega

theorem Feed.within_ofSource (source : Text) :
    (Feed.ofSource source #[]).Within (1 + source.count (.char '\n')) where
  last := ⟨Nat.le_refl 1, Nat.le_add_right 1 _⟩
  rest t ht := by
    have hle := line_le_of_mem_lexemesFrom ht
    rw [flatten_pieces] at hle
    exact ⟨(token_of_mem_lexemes ht).1, hle⟩

/-- The end of a text has no text of its own. -/
theorem text_of_mem_handedOut {source : Text} {k : Nat} {t : Token}
    (h : t ∈ (Feed.ofSource source #[]).handedOut k) (ht : t.kind = .endOfFile) : t.text = [] := by
  obtain ⟨i, -, hi⟩ := List.mem_filterMap.1 h
  cases hl : (Feed.ofSource source #[]).rest[i]? with
  | none =>
    rw [Feed.call_of_length_le (List.getElem?_eq_none_iff.1 hl), Option.some_inj] at hi
    rw [← hi]
  | some l =>
    rw [Feed.call_of_getElem? hl] at hi
    cases l with
    | overlong => cases hi
    | token u =>
      obtain rfl := Option.some.inj hi
      exact absurd ht (token_of_mem_lexemes (List.mem_of_getElem? hl)).2.1

/-! ### Accounting for reports -/

/-- What a token reports is about it. -/
theorem Token.eq_of_mem_reports {t : Token} {r : Report} (h : r ∈ t.reports) :
    r.line = t.line ∧ r.text = t.text := by
  unfold reports at h
  split at h
  · rw [List.mem_singleton.1 h]
    exact ⟨rfl, rfl⟩
  · cases h

/-- **The reports are accounted for** by the tokens handed out so far, the last of which is on the
given line. -/
structure Accounted (ts : List Token) (last : Nat) (rs : List Report) : Prop where
  ordered : (rs.map Report.line).Pairwise (· ≤ ·)
  bounded : ∀ r ∈ rs, r.line ≤ last
  placed : ∀ r ∈ rs, ∃ t ∈ ts, r.line = t.line ∧ r.text = t.text
  errors : ((rs.filter (·.kind = .token)).map fun r => (r.line, r.text)) =
    (ts.filter Token.isError).map fun t => ((t.line : Int), t.text)

section Accounted

variable {ts : List Token} {t : Token} {last : Nat} {rs : List Report} {r : Report}

/-- Reports on one line that is not in front of any other go behind. -/
theorem pairwise_append_line {added : List Report} {line : Int}
    (hrs : (rs.map Report.line).Pairwise (· ≤ ·)) (hle : ∀ r ∈ rs, r.line ≤ line)
    (hadded : ∀ r ∈ added, r.line = line) : ((rs ++ added).map Report.line).Pairwise (· ≤ ·) := by
  rw [List.map_append, List.pairwise_append]
  refine ⟨hrs, ?_, ?_⟩
  · rw [List.pairwise_map]
    refine List.pairwise_of_forall_mem_list fun r hr r' hr' => ?_
    exact Int.le_of_eq ((hadded r hr).trans (hadded r' hr').symm)
  · intro l hl l' hl'
    obtain ⟨r, hr, rfl⟩ := List.mem_map.1 hl
    obtain ⟨r', hr', rfl⟩ := List.mem_map.1 hl'
    rw [hadded r' hr']
    exact hle r hr

/-- One more token is handed out, and reported if it is an error token. -/
theorem Accounted.hand (h : Accounted ts last rs) (hle : last ≤ t.line) :
    Accounted (ts ++ [t]) t.line (rs ++ t.reports) := by
  have hbounded (r : Report) (hr : r ∈ rs) : r.line ≤ t.line := by
    have := h.bounded r hr
    omega
  have hline (r : Report) (hr : r ∈ t.reports) : r.line = t.line := (Token.eq_of_mem_reports hr).1
  refine ⟨pairwise_append_line h.ordered hbounded hline,
    List.forall_mem_append.2 ⟨hbounded, fun r hr => Int.le_of_eq (hline r hr)⟩,
    List.forall_mem_append.2 ⟨fun r hr => ?_, fun r hr => ?_⟩, ?_⟩
  · obtain ⟨t', ht', heq⟩ := h.placed r hr
    exact ⟨t', List.mem_append_left _ ht', heq⟩
  · exact ⟨t, List.mem_append_right _ List.mem_cons_self, Token.eq_of_mem_reports hr⟩
  · have hone := map_reports [t]
    rw [List.flatMap_singleton] at hone
    rw [List.filter_append, List.filter_append, List.map_append, List.map_append, h.errors, hone]

/-- A reader reports a token that was handed out, if it is on the last line. -/
theorem Accounted.complain (h : Accounted ts t.line rs) (ht : t ∈ ts)
    (hr : r.line = t.line ∧ r.text = t.text) (hk : r.kind ≠ .token) :
    Accounted ts t.line (rs ++ [r]) := by
  have hline : ∀ r' ∈ [r], r'.line = t.line := List.forall_mem_singleton.2 hr.1
  refine ⟨pairwise_append_line h.ordered h.bounded hline,
    List.forall_mem_append.2 ⟨h.bounded, fun r' hr' => Int.le_of_eq (hline r' hr')⟩,
    List.forall_mem_append.2 ⟨h.placed, List.forall_mem_singleton.2 ⟨t, ht, hr⟩⟩, ?_⟩
  have hnone : [r].filter (·.kind = .token) = [] := by simp [hk]
  rw [List.filter_append, hnone, List.append_nil, h.errors]

end Accounted

namespace Cursor

/-- **The reports up to a cursor are accounted for** by the first `k` calls of a feed, the last of
which gave the token in hand. -/
structure Accounts (feed : Feed) (k : Nat) (c : Cursor) : Prop where
  rest : c.rest = (feed.after k).rest
  lastLine : c.lastLine = (feed.after k).lastLine
  held : k ≠ 0 → (feed.handedOut k).getLast? = some c.current
  accounted : Accounted (feed.handedOut k) c.lastLine c.reports.toList

variable {feed : Feed} {k : Nat} {c c' : Cursor} {u : Unit}

/-- Moving on takes the next token of the feed in hand. -/
theorem next_of_advance (h : Reading.advance c = .ok u c') :
    ∃ t, c.next.1 = some t ∧ c' = { c with toFeed := c.next.2, current := t } := by
  unfold Reading.advance at h
  split at h
  · rename_i t feed hnext
    cases h
    rw [hnext]
    exact ⟨t, rfl, rfl⟩
  · cases h

/-- Before the first call there are no reports. -/
theorem accounts_start (source : Text) (table : SymbolTable) :
    (Cursor.start (.ofSource source #[]) table).Accounts (.ofSource source #[]) 0 :=
  ⟨rfl, rfl, fun h => absurd rfl h, .nil, nofun, nofun, rfl⟩

/-- **Moving on** is one more call. -/
theorem Accounts.advance (h : c.Accounts feed k) (hf : feed.Ordered)
    (hact : Reading.advance c = .ok u c') : c'.Accounts feed (k + 1) := by
  obtain ⟨t, ht, rfl⟩ := next_of_advance hact
  -- the feed behind the cursor has other reports than the one that is called, but it hands out the same
  have hcall : feed.call k = some t := by
    rw [← ht, Feed.call, Feed.fst_next, Feed.fst_next, h.rest, h.lastLine]
  have hhanded : feed.handedOut (k + 1) = feed.handedOut k ++ [t] := by
    rw [Feed.handedOut_succ, hcall, Option.toList_some]
  have hreports : c.next.2.reports.toList = c.reports.toList ++ t.reports := by
    rw [Feed.reports_next, ht, Option.toList_some, List.flatMap_singleton]
  have hline : c.next.2.lastLine = t.line := by
    rw [Feed.lastLine_next, ht, Option.map_some, Option.getD_some]
  have hle : c.lastLine ≤ t.line := by
    rw [h.lastLine, ← Feed.lastLine_of_call hcall]
    exact hf.lastLine_le k.le_succ
  refine ⟨?_, ?_, fun _ => ?_, ?_⟩
  · show c.next.2.rest = _
    rw [Feed.rest_next, h.rest, Feed.after, Feed.rest_next]
  · show c.next.2.lastLine = _
    rw [hline, Feed.lastLine_of_call hcall]
  · rw [hhanded, List.getLast?_concat]
  · show Accounted _ c.next.2.lastLine c.next.2.reports.toList
    rw [hhanded, hreports, hline]
    exact h.accounted.hand hle

/-- **A complaint** is about the token in hand. -/
theorem Accounts.complain {w : Complaint} (h : c.Accounts feed (k + 1))
    (hact : Reading.complain w c = .ok u c') : c'.Accounts feed (k + 1) := by
  have hheld := h.held k.succ_ne_zero
  have hlast : c.lastLine = c.current.line := by
    rw [h.lastLine, Feed.lastLine_after, hheld, Option.map_some, Option.getD_some]
  cases hact
  refine ⟨h.rest, h.lastLine, fun _ => hheld, ?_⟩
  have haccounted := h.accounted
  rw [hlast] at haccounted
  rw [Array.toList_push, hlast]
  exact haccounted.complain (List.mem_of_getLast? hheld) ⟨rfl, rfl⟩ (by cases w <;> simp [Complaint.reportKind])

/-- Once a token is in hand, the reports are accounted for. -/
theorem invariant_accounts (source : Text) :
    Invariant (lexemes source) fun c =>
      c.From (lexemes source) ∧ ∃ k, c.Accounts (.ofSource source #[]) (k + 1) where
  held h := h.1.inHand
  advance hact h := by
    obtain ⟨hfrom, k, hk⟩ := h
    exact ⟨(invariant_from _).advance hact hfrom, k + 1, hk.advance (Feed.ordered_ofSource source) hact⟩
  complain hact h := by
    obtain ⟨hfrom, k, hk⟩ := h
    exact ⟨(invariant_from _).complain hact hfrom, k, hk.complain hact⟩
  enter name h := by
    obtain ⟨hfrom, k, hk⟩ := h
    exact ⟨(invariant_from _).enter name hfrom, k, hk.rest, hk.lastLine, hk.held, hk.accounted⟩
  note entry h := by
    obtain ⟨hfrom, k, hk⟩ := h
    exact ⟨(invariant_from _).note entry hfrom, k, hk.rest, hk.lastLine, hk.held, hk.accounted⟩

end Cursor

/-! ### The reports of a program text -/

/-- What is printed begins with the reports, and it ends with them if there are any. -/
theorem output_runProgram (level : Int) (fuel : Nat) {source : Text} {tree : Node}
    (h : (parse source .empty #[]).tree = .ok tree) :
    ∃ more, (runProgram level fuel source).output =
        (parse source .empty #[]).reports.toList.flatMap Report.render ++ more ∧
      ((parse source .empty #[]).reports.toList ≠ [] → more = []) := by
  unfold runProgram
  dsimp only
  rw [h]
  dsimp only
  split
  · rename_i hempty
    have hnil : (parse source .empty #[]).reports.toList = [] := by simpa using hempty
    exact ⟨_, by rw [hnil]; rfl, fun hne => absurd hnil hne⟩
  · exact ⟨[], (List.append_nil _).symm, fun _ => rfl⟩

/-- **The reports of a program text** that gives a tree, with any names declared. Reading it has taken
in hand the tokens of the first `k` calls, no more and no fewer but for the end of the text, which all
further calls give. The lines of the reports never decrease, and they are lines of the text. Every
report is about one of these tokens, by its line and its text, and the error tokens among them are
reported as such, one for one and in order. What is printed are the reports, each on its line and in
order, and nothing else if there is one. -/
theorem reports_of_tree {source : Text} {table : SymbolTable} {tree : Node}
    (h : (parse source table #[]).tree = .ok tree) :
    let reports := (parse source table #[]).reports.toList
    let feed := Feed.ofSource source #[]
    (∃ c k, stopsAt? source table = some c ∧ c.rest = (feed.after k).rest ∧
      (feed.handedOut k).getLast? = some c.current ∧
      (∀ r ∈ reports, ∃ t ∈ feed.handedOut k, r.line = t.line ∧ r.text = t.text ∧
        (t.kind = .endOfFile → r.text = [])) ∧
      Report.countOf .token reports = (feed.handedOut k).countP Token.isError ∧
      ((reports.filter (·.kind = .token)).map fun r => (r.line, r.text)) =
        ((feed.handedOut k).filter Token.isError).map fun t => ((t.line : Int), t.text)) ∧
    (reports.map Report.line).Pairwise (· ≤ ·) ∧
    (∀ r ∈ reports, 1 ≤ r.line ∧ r.line ≤ 1 + source.count (.char '\n')) ∧
    (table = .empty → ∀ level fuel, ∃ more,
      (runProgram level fuel source).output = reports.flatMap Report.render ++ more ∧
        (reports ≠ [] → more = [])) := by
  obtain ⟨c, hprogram, -, hreports⟩ := exists_cursor_of_tree h
  have hstart := Cursor.accounts_start source table
  obtain ⟨⟨-, k, hk⟩, -⟩ := Reading.keeps_program (Cursor.invariant_accounts source) hprogram
    fun hfirst => ⟨(Cursor.invariant_from _).advance hfirst (Cursor.from_start source table #[]), 0,
      hstart.advance (Feed.ordered_ofSource source) hfirst⟩
  intro reports feed
  have hreports : reports = c.reports.toList := congrArg Array.toList hreports
  have hstops : stopsAt? source table = some c := by
    unfold stopsAt?
    rw [hprogram]
  refine ⟨⟨c, k + 1, hstops, hk.rest, hk.held k.succ_ne_zero, fun r hr => ?_, ?_,
    hreports ▸ hk.accounted.errors⟩, hreports ▸ hk.accounted.ordered, fun r hr => ?_, ?_⟩
  · rw [hreports] at hr
    obtain ⟨t, ht, hline, htext⟩ := hk.accounted.placed r hr
    exact ⟨t, ht, hline, htext, fun hend => htext.trans (text_of_mem_handedOut ht hend)⟩
  · have hlength := congrArg List.length hk.accounted.errors
    rw [← hreports, List.length_map, List.length_map, ← List.countP_eq_length_filter,
      ← List.countP_eq_length_filter] at hlength
    exact hlength
  · rw [hreports] at hr
    obtain ⟨t, ht, hline, -⟩ := hk.accounted.placed r hr
    have := (Feed.within_ofSource source).of_mem_handedOut ht
    omega
  · rintro rfl level fuel
    exact output_runProgram level fuel h

/-- Reports of all three kinds: of the error token by the feed, of the other tokens by readers. -/
theorem reports_of_tree_mixed :
    let source : Text := "PROGRAM p; BEGIN a := b # ;\n b := c END"
    let reports := (parse source .empty #[]).reports.toList
    (reports.map fun r => (r.kind, r.line)) =
        [(.semantic, 1), (.token, 1), (.syntactic, 1), (.semantic, 2), (.syntactic, 2)] ∧
      (reports.map Report.line).Pairwise (· ≤ ·) ∧
      (∀ r ∈ reports, 1 ≤ r.line ∧ r.line ≤ 1 + source.count (.char '\n')) ∧
      ∀ level fuel, (runProgram level fuel source).output =
        "SEMANTIC ERROR at line 1: Undeclared identifier at 'b'\n" ++
        "TOKEN ERROR at line 1: Invalid token at '#'\n" ++
        "SYNTAX ERROR at line 1: Unexpected token at '#'\n" ++
        "SEMANTIC ERROR at line 2: Undeclared identifier at 'c'\n" ++
        "SYNTAX ERROR at line 2: Expecting . at ''\n" := by
  intro source reports
  have hread : (parse source .empty #[]).tree.toOption.isSome = true ∧
      (reports.map fun r => (r.kind, r.line)) =
        [(.semantic, 1), (.token, 1), (.syntactic, 1), (.semantic, 2), (.syntactic, 2)] := by
    decide +kernel
  obtain ⟨tree, htree⟩ := Option.isSome_iff_exists.1 hread.1
  obtain ⟨-, hordered, hbounds, hprinted⟩ := reports_of_tree (eq_ok_of_toOption htree)
  refine ⟨hread.2, hordered, hbounds, fun level fuel => ?_⟩
  obtain ⟨more, houtput, hmore⟩ := hprinted rfl level fuel
  have hne : reports ≠ [] := fun hnil => by simp [hnil] at hread
  rw [houtput, hmore hne, List.append_nil]
  decide +kernel

end MiniPascal

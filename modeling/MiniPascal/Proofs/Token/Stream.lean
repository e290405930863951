import MiniPascal.Proofs.Token.Lexeme

/-!
# Tokens call by call

Whoever reads a text calls for its tokens one at a time, and may go on calling when there are none
left. What a call gives depends on the calls before it only through the feed that they have left
behind, so that everything here is a fact about one call (`MiniPascal.Feed.next`), carried on to any
number of them.

Nothing of a text is lost on the way. Its pieces are the text; those that are no tokens are white
space and comments; and the others are handed out in order, by one call each.

* `MiniPascal.Feed.call`, `MiniPascal.Feed.after`: what a call gives, and the feed behind it.
* `MiniPascal.Feed.HandsOut`: what all calls give for the pieces of a text.
* `MiniPascal.handsOut_pieces`: cutting a text and handing out its tokens is lossless.
-/

namespace MiniPascal

/-- The token of a lexeme, nothing for an overlong integer. -/
def Lexeme.token? : Lexeme → Option Token
  | token t => some t
  | overlong => none

@[simp] theorem Lexeme.token?_token (t : Token) : (Lexeme.token t).token? = some t := rfl

@[simp] theorem Lexeme.token?_overlong : Lexeme.overlong.token? = none := rfl

namespace Feed

/-! ### One call -/

section Next

variable (feed : Feed)

theorem rest_next : feed.next.2.rest = feed.rest.tail := by
  unfold next
  split <;> simp_all [note]

/-- A call gives the first lexeme that is left, and the end of the text if there is none. -/
theorem fst_next :
    feed.next.1 =
      match feed.rest.head? with
      | some l => l.token?
      | none => some ⟨.endOfFile, feed.lastLine, []⟩ := by
  unfold next
  split <;> simp_all

/-- The line of the end of the text is that of the last token. -/
theorem lastLine_next : feed.next.2.lastLine = (feed.next.1.map Token.line).getD feed.lastLine := by
  unfold next
  split <;> simp [note]

theorem reports_next :
    feed.next.2.reports.toList =
      feed.reports.toList ++ feed.next.1.toList.flatMap Token.reports := by
  unfold next
  split <;> simp [note, Token.reports]

theorem next_of_nil {feed : Feed} (h : feed.rest = []) : feed.next.2 = feed := by
  simp [next, h]

/-- The tokens that are left stand on lines in ascending order, from the last line on. -/
def Ordered : Prop :=
  (feed.lastLine :: (feed.rest.filterMap Lexeme.token?).map Token.line).Pairwise (· ≤ ·)

theorem Ordered.next {feed : Feed} (h : feed.Ordered) :
    feed.next.2.Ordered ∧ feed.lastLine ≤ feed.next.2.lastLine := by
  unfold Ordered at h ⊢
  unfold Feed.next
  split
  · exact ⟨h, Nat.le_refl _⟩
  · rename_i rest hrest
    rw [hrest, List.filterMap_cons_none Lexeme.token?_overlong] at h
    exact ⟨h, Nat.le_refl _⟩
  · rename_i t rest hrest
    rw [hrest, List.filterMap_cons_some (Lexeme.token?_token t), List.map_cons,
      List.pairwise_cons] at h
    exact ⟨h.2, h.1 t.line List.mem_cons_self⟩

end Next

/-! ### Any number of calls -/

/-- The feed behind `k` calls for the next token. -/
def after (feed : Feed) : Nat → Feed
  | 0 => feed
  | k + 1 => (feed.after k).next.2

/-- What the next call gives behind `k` calls: a token, or nothing for an overlong integer. -/
def call (feed : Feed) (k : Nat) : Option Token := (feed.after k).next.1

/-- The tokens that the first `k` calls hand out. -/
def handedOut (feed : Feed) (k : Nat) : List Token := (List.range k).filterMap feed.call

section Calls

variable {feed : Feed}

theorem rest_after (k : Nat) : (feed.after k).rest = feed.rest.drop k := by
  induction k with
  | zero => rfl
  | succ k ih => rw [after, rest_next, ih, List.tail_drop]

theorem handedOut_succ (k : Nat) :
    feed.handedOut (k + 1) = feed.handedOut k ++ (feed.call k).toList := by
  rw [handedOut, List.range_succ, List.filterMap_append, handedOut]
  cases h : feed.call k <;> simp [h]

theorem call_of_getElem? {k : Nat} {l : Lexeme} (h : feed.rest[k]? = some l) :
    feed.call k = l.token? := by
  rw [call, fst_next, rest_after, List.head?_drop, h]

theorem call_of_length_le {k : Nat} (h : feed.rest.length ≤ k) :
    feed.call k = some ⟨.endOfFile, (feed.after k).lastLine, []⟩ := by
  rw [call, fst_next, rest_after, List.drop_of_length_le h, List.head?_nil]

/-- At its end a feed stays what it is. -/
theorem after_of_length_le {k : Nat} (h : feed.rest.length ≤ k) :
    feed.after k = feed.after feed.rest.length := by
  induction k, h using Nat.le_induction with
  | base => rfl
  | succ k hk ih =>
    rw [after, next_of_nil (by rw [rest_after, List.drop_of_length_le hk]), ih]

theorem lastLine_after (k : Nat) :
    (feed.after k).lastLine = ((feed.handedOut k).getLast?.map Token.line).getD feed.lastLine := by
  induction k with
  | zero => rfl
  | succ k ih =>
    rw [after, lastLine_next, ← call, handedOut_succ, ih]
    cases feed.call k <;> simp

theorem reports_after (k : Nat) :
    (feed.after k).reports.toList =
      feed.reports.toList ++ (feed.handedOut k).flatMap Token.reports := by
  induction k with
  | zero => simp [after, handedOut]
  | succ k ih =>
    rw [after, reports_next, ← call, handedOut_succ, ih, List.flatMap_append, List.append_assoc]

theorem Ordered.after (h : feed.Ordered) (k : Nat) : (feed.after k).Ordered := by
  induction k with
  | zero => exact h
  | succ k ih => exact ih.next.1

theorem Ordered.lastLine_le (h : feed.Ordered) {i j : Nat} (hij : i ≤ j) :
    (feed.after i).lastLine ≤ (feed.after j).lastLine := by
  induction j, hij using Nat.le_induction with
  | base => exact Nat.le_refl _
  | succ j _ ih => exact Nat.le_trans ih (h.after j).next.2

theorem lastLine_of_call {k : Nat} {t : Token} (h : feed.call k = some t) :
    (feed.after (k + 1)).lastLine = t.line := by
  rw [after, lastLine_next, ← call, h, Option.map_some, Option.getD_some]

end Calls

end Feed

/-! ### The calls for a text -/

/-- The lines of the tokens of some pieces are in ascending order. -/
theorem pairwise_lexemesFrom (line : Nat) (ps : List Piece) :
    (((lexemesFrom line ps).filterMap Lexeme.token?).map Token.line).Pairwise (· ≤ ·) := by
  induction ps generalizing line with
  | nil => exact .nil
  | cons p ps ih =>
    have htail := ih (line + p.lineEnds)
    cases hl : p.lexeme? line with
    | none => simpa [lexemesFrom, hl] using htail
    | some l =>
      cases l with
      | overlong =>
        rwa [lexemesFrom, hl, Option.toList_some, List.singleton_append,
          List.filterMap_cons_none Lexeme.token?_overlong]
      | token t =>
        obtain ⟨rfl, -⟩ := Piece.token_of_lexeme? hl
        simp only [lexemesFrom, hl, Option.toList_some, List.singleton_append,
          List.filterMap_cons_some (Lexeme.token?_token t), List.map_cons, List.pairwise_cons]
        refine ⟨fun k hk => ?_, htail⟩
        obtain ⟨u, hu, rfl⟩ := List.mem_map.1 hk
        obtain ⟨l, hmem, hlu⟩ := List.mem_filterMap.1 hu
        cases l with
        | overlong => cases hlu
        | token u' =>
          obtain rfl : u' = u := Option.some.inj hlu
          have := (token_of_mem_lexemesFrom hmem).1
          omega

theorem Feed.ordered_ofSource (source : Text) : (Feed.ofSource source #[]).Ordered := by
  refine List.pairwise_cons.2 ⟨fun k hk => ?_, pairwise_lexemesFrom 1 _⟩
  obtain ⟨t, ht, rfl⟩ := List.mem_map.1 hk
  obtain ⟨l, hmem, hl⟩ := List.mem_filterMap.1 ht
  cases l with
  | overlong => cases hl
  | token u =>
    obtain rfl : u = t := Option.some.inj hl
    exact (token_of_mem_lexemes hmem).1

/-- **What the calls for the next token give** for the pieces of a text, whatever their number. -/
structure Feed.HandsOut (feed : Feed) (ps : List Piece) : Prop where
  /-- A token piece is handed out by the call that is due to it, as a token with its text and with
  the line on which it starts. -/
  token : ∀ before p after, ps = before ++ p :: after → p.isToken = true → ¬p.IsOverlong →
    ∃ kind, kind ≠ .endOfFile ∧
      feed.call (before.countP Piece.isToken) =
        some ⟨kind, 1 + (before.flatMap (·.text)).count (.char '\n'), p.text⟩
  /-- The call that is due to an overlong integer gives no token, and the next one goes on. -/
  overlong : ∀ before p after, ps = before ++ p :: after → p.IsOverlong →
    feed.call (before.countP Piece.isToken) = none
  /-- All other calls give the end of the text, on the line of the last token. -/
  ending : ∀ k, ps.countP Piece.isToken ≤ k →
    feed.call k = some ⟨.endOfFile,
      ((feed.handedOut (ps.countP Piece.isToken)).getLast?.map Token.line).getD 1, []⟩
  /-- Lines never decrease. -/
  lines : ∀ i j t u, i ≤ j → feed.call i = some t → feed.call j = some u → t.line ≤ u.line
  /-- The error tokens handed out, and nothing else, are reported as such. -/
  reports : ∀ k,
    (((feed.after k).reports.toList.filter (·.kind = .token)).map fun r => (r.line, r.text)) =
      ((feed.handedOut k).filter Token.isError).map fun t => ((t.line : Int), t.text)

/-- An error token makes one report of its kind, and no other token makes any. -/
theorem map_reports (ts : List Token) :
    (((ts.flatMap Token.reports).filter (·.kind = .token)).map fun r => (r.line, r.text)) =
      (ts.filter Token.isError).map fun t => ((t.line : Int), t.text) := by
  induction ts with
  | nil => rfl
  | cons t ts ih =>
    rw [List.flatMap_cons, List.filter_append, List.map_append, ih, List.filter_cons]
    obtain ⟨kind, line, text⟩ := t
    cases kind <;> simp [Token.reports, Token.isError]

theorem getElem?_lexemes {source : Text} {before after : List Piece} {p : Piece} {l : Lexeme}
    (h : pieces source = before ++ p :: after)
    (hl : p.lexeme? (1 + (before.flatMap (·.text)).count (.char '\n')) = some l) :
    (Feed.ofSource source #[]).rest[before.countP Piece.isToken]? = some l := by
  have hrest : (Feed.ofSource source #[]).rest = lexemesFrom 1 (before ++ p :: after) := by
    rw [← h]
    rfl
  rw [hrest, lexemesFrom_append, ← length_lexemesFrom 1, List.getElem?_append_right (Nat.le_refl _),
    Nat.sub_self, lexemesFrom, hl]
  rfl

/-- **Cutting a text and handing out its tokens is lossless.** No piece is empty, together they are
the text, and what is skipped is white space and comments. The calls hand out the others in order,
each with its text and its line, and then the end of the text for ever. -/
theorem handsOut_pieces (source : Text) :
    (pieces source).flatMap (·.text) = source ∧
    (∀ p ∈ pieces source, p.text ≠ [] ∧ (p.isToken = false → p.IsLayout)) ∧
    (Feed.ofSource source #[]).HandsOut (pieces source) := by
  have hlength : (Feed.ofSource source #[]).rest.length = (pieces source).countP Piece.isToken :=
    length_lexemesFrom 1 _
  refine ⟨flatten_pieces source,
    fun p hp => ⟨text_ne_nil_of_mem_pieces hp, isLayout_of_mem_pieces hp⟩, ⟨?_, ?_, ?_, ?_, ?_⟩⟩
  · intro before p after hsplit htoken hover
    rcases Piece.lexeme?_cases (1 + (before.flatMap (·.text)).count (.char '\n')) htoken with
      ⟨ho, -⟩ | ⟨-, kind, hkind, hl⟩
    · exact absurd ho hover
    · exact ⟨kind, hkind, Feed.call_of_getElem? (getElem?_lexemes hsplit hl)⟩
  · intro before p after hsplit hover
    exact Feed.call_of_getElem?
      (getElem?_lexemes hsplit ((Piece.lexeme?_eq_overlong_iff _ p).2 hover))
  · intro k hk
    rw [← hlength] at hk ⊢
    rw [Feed.call_of_length_le hk, Feed.after_of_length_le hk, Feed.lastLine_after]
    rfl
  · intro i j t u hij hi hj
    rw [← Feed.lastLine_of_call hi, ← Feed.lastLine_of_call hj]
    exact (Feed.ordered_ofSource source).lastLine_le (by omega)
  · intro k
    rw [Feed.reports_after]
    exact map_reports _

end MiniPascal

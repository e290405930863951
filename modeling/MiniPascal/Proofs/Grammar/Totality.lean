import MiniPascal.Proofs.Grammar.Readers
import MiniPascal.Proofs.Token.Lexeme

/-!
# Reading a program always ends

Reading takes its fuel from the number of tokens in front, so that running out of fuel would mean
that some loop turns without consuming anything. No loop does: a list of statements, the branches
of a CASE statement, the labels of a branch and the search for a token that can follow a statement
each consume a token in every round, or the round is the last one.

What remains is the one thing that stops a reader, an integer of more than 4300 digits. It stops
the reading exactly if it is asked for, and nothing behind the last token asked for matters.

* `MiniPascal.piecesAsked`: the pieces that reading a program asks for.
* `MiniPascal.Reading.LoopsProgress`: the rounds of the four loops.
* `MiniPascal.parse_ends`: reading ends, and when it ends without a tree.
-/

namespace MiniPascal

/-! ### Pieces that are tokens -/

/-- The pieces of a text that are tokens, in order. -/
def tokenPieces (source : Text) : List Piece := (pieces source).filter Piece.isToken

/-- **Lexemes and the pieces they come from go together**, one by one: a lexeme is overlong if
its piece is. -/
theorem map_overlong_lexemesFrom (ps : List Piece) (line : Nat) :
    (lexemesFrom line ps).map (fun l => decide (l = .overlong)) =
      (ps.filter Piece.isToken).map fun p => decide p.IsOverlong := by
  induction ps generalizing line with
  | nil => rfl
  | cons p ps ih =>
    have hsome := p.isSome_lexeme? line
    have hover := p.lexeme?_eq_overlong_iff line
    rw [lexemesFrom, List.map_append, ih, List.filter_cons, ← hsome]
    cases hl : p.lexeme? line with
    | none => simp
    | some l =>
      rw [hl, Option.some_inj] at hover
      simp [hover]

theorem length_tokenPieces (source : Text) :
    (tokenPieces source).length = (lexemes source).length := by
  simpa [tokenPieces, lexemes] using (congrArg List.length
    (map_overlong_lexemesFrom (pieces source) 1)).symm

theorem overlong_mem_take_lexemes (source : Text) (k : Nat) :
    .overlong ∈ (lexemes source).take k ↔ ∃ p ∈ (tokenPieces source).take k, p.IsOverlong := by
  have h := congrArg (true ∈ List.take k ·) (map_overlong_lexemesFrom (pieces source) 1)
  have h' : true ∈ ((lexemes source).map fun l => decide (l = .overlong)).take k ↔
      true ∈ ((tokenPieces source).map fun p => decide p.IsOverlong).take k := iff_of_eq h
  rw [← List.map_take, ← List.map_take] at h'
  simpa only [List.mem_map, decide_eq_true_eq, exists_eq_right] using h'

/-! ### What reading a program asks for -/

/-- What is left in the feed when the reading of a program has ended, in whatever way. -/
def unread (source : Text) (table : SymbolTable) (reports : Array Report) : List Lexeme :=
  match Reading.program (.start (Feed.ofSource source reports) table) with
  | .ok _ c => c.rest
  | .error _ c => c.rest

/-- The pieces that reading a program asks for. -/
def piecesAsked (source : Text) (table : SymbolTable) (reports : Array Report) : List Piece :=
  (tokenPieces source).take ((tokenPieces source).length - (unread source table reports).length)

theorem overlong_mem_asked {source : Text} {table : SymbolTable} {reports : Array Report}
    (asked : List Lexeme) (h : lexemes source = asked ++ unread source table reports) :
    (∃ p ∈ piecesAsked source table reports, p.IsOverlong) ↔ .overlong ∈ asked := by
  rw [piecesAsked, ← overlong_mem_take_lexemes, length_tokenPieces, h]
  simp

namespace Reading

variable {α : Type}

/-! ### The rounds of the loops -/

/-- The round consumes a token, or it is the last one. -/
def RoundProgresses (round : Reading α) (done : Token.Kind → Prop) (c : Cursor) : Prop :=
  ∀ a c', round c = .ok a c' → c'.rest.length < c.rest.length ∨ done c'.current.kind

/-- **Every round of every loop consumes a token or leaves the loop.** -/
structure LoopsProgress : Prop where
  skipping : ∀ c, c.current.kind.followsStatement = false →
    RoundProgresses advance (·.followsStatement) c
  labels : ∀ c, c.current.kind = .symbol .comma → RoundProgresses labelRound (· ≠ .symbol .comma) c
  statements : ∀ fuel terminal c, c.current.kind ≠ terminal → c.current.kind ≠ .endOfFile →
    RoundProgresses (statementRound (statement fuel) terminal)
      (fun kind => kind = terminal ∨ kind = .endOfFile) c
  branches : ∀ fuel c, c.current.kind ≠ .keyword .endKw → c.current.kind ≠ .endOfFile →
    RoundProgresses (branchRound (statement fuel))
      (fun kind => kind = .keyword .endKw ∨ kind = .endOfFile) c

theorem length_lt_of_left_lt {c c' : Cursor} (hk : c.current.kind ≠ .endOfFile)
    (h : c'.left < c.left) :
    c'.rest.length < c.rest.length ∨ c'.current.kind = .endOfFile := by
  rw [Cursor.left_of_ne hk, Cursor.left] at h
  split at h
  · rename_i he
    exact .inr he
  · exact .inl (by omega)

theorem loopsProgress : LoopsProgress where
  skipping c hk u c' h := by
    have hne : c.current.kind ≠ .endOfFile := by
      intro he
      rw [he] at hk
      cases hk
    refine (length_lt_of_left_lt hne (left_lt_of_advance hne h)).imp id fun he => ?_
    rw [he]
    rfl
  labels c hk node c' h := by
    have hlt := left_lt_of_advance_bind (n := 0) (by simp [hk]) (fun _ => steady_label) h
    exact (length_lt_of_left_lt (by simp [hk]) hlt).imp id (by simp_all)
  statements fuel terminal c _ hk node c' h := by
    obtain ⟨hc, hi⟩ := consuming_statement fuel
    rcases left_lt_of_statementRound hi hc hk h with hlt | hend
    · exact (length_lt_of_left_lt hk hlt).imp id .inr
    · exact .inr hend
  branches fuel c _ hk nodes c' h := by
    rcases left_lt_of_branchRound (steady_statement fuel) hk h with hlt | hend
    · exact (length_lt_of_left_lt hk hlt).imp id .inr
    · exact .inr hend

end Reading

/-! ### Reading ends -/

theorem kind_of_program {c c' : Cursor} {tree : Node} (h : Reading.program c = .ok tree c') :
    tree.kind = .program := by
  rw [Reading.program] at h
  obtain ⟨_, c₁, -, h⟩ := Reading.bind_eq_ok.1 h
  obtain ⟨t, c₂, -, h⟩ := Reading.bind_eq_ok.1 h
  obtain ⟨_, c₃, -, h⟩ := Reading.bind_eq_ok.1 h
  obtain ⟨name, c₄, -, h⟩ := Reading.bind_eq_ok.1 h
  obtain ⟨_, c₅, -, h⟩ := Reading.bind_eq_ok.1 h
  obtain ⟨children, c₆, -, h⟩ := Reading.bind_eq_ok.1 h
  obtain ⟨_, c₇, -, h⟩ := Reading.bind_eq_ok.1 h
  obtain ⟨_, c₈, -, h⟩ := Reading.bind_eq_ok.1 h
  obtain ⟨rfl, -⟩ := Reading.pure_eq_ok.1 h
  rfl

theorem parseFeed_of_ok {feed : Feed} {table : SymbolTable} {tree : Node} {c : Cursor}
    (h : Reading.program (.start feed table) = .ok tree c) :
    parseFeed feed table = ⟨.ok tree, c.table, c.reports, c.log⟩ := by
  rw [parseFeed, h]

theorem parseFeed_of_error {feed : Feed} {table : SymbolTable} {halt : Halt} {c : Cursor}
    (h : Reading.program (.start feed table) = .error halt c) :
    parseFeed feed table = ⟨.error halt, c.table, c.reports, c.log⟩ := by
  rw [parseFeed, h]

theorem eq_ok_of_toOption {ε α : Type} {x : Except ε α} {a : α} (h : x.toOption = some a) :
    x = .ok a := by
  cases x with
  | ok b => exact congrArg Except.ok (Option.some.inj h)
  | error e => cases h

theorem Parse.errorCount_eq_ok_iff {p : Parse} {k : Nat} :
    p.errorCount = .ok k ↔ ∃ tree, p.tree = .ok tree ∧ p.reports.size = k := by
  rw [errorCount]
  cases p.tree <;> simp [Except.map]

/-- A tree is what was read, and the symbol table and the reports are those of the cursor then. -/
theorem exists_cursor_of_tree {feed : Feed} {table : SymbolTable} {tree : Node}
    (h : (parseFeed feed table).tree = .ok tree) :
    ∃ c, Reading.program (.start feed table) = .ok tree c ∧
      (parseFeed feed table).table = c.table ∧ (parseFeed feed table).reports = c.reports := by
  cases hp : Reading.program (.start feed table) with
  | ok tree' c =>
    rw [parseFeed_of_ok hp] at h
    obtain rfl := Except.ok.inj h
    exact ⟨c, rfl, by rw [parseFeed_of_ok hp], by rw [parseFeed_of_ok hp]⟩
  | error halt c =>
    rw [parseFeed_of_error hp] at h
    cases h

/-- **Reading a program ends.** It stops without a tree exactly if an integer of more than 4300
digits is among the pieces that it asks for. Otherwise it gives the tree of a program with an error
count that is the number of all reports, the earlier ones included. It never runs out of fuel,
because every round of every loop consumes a token or leaves the loop. -/
theorem parse_ends (source : Text) (table : SymbolTable) (reports : Array Report) :
    let p := parse source table reports
    (p.tree = .error .overlong ↔ ∃ q ∈ piecesAsked source table reports, q.IsOverlong) ∧
    ((∀ q ∈ piecesAsked source table reports, ¬q.IsOverlong) →
      ∃ tree, p.tree = .ok tree ∧ tree.kind = .program ∧ p.errorCount = .ok p.reports.size ∧
        ∃ added, p.reports.toList = reports.toList ++ added) ∧
    Reading.LoopsProgress := by
  intro p
  have hsteady := Reading.steady_program (n := (lexemes source).length + 1)
    (.start (Feed.ofSource source reports) table)
  cases h : Reading.program (.start (Feed.ofSource source reports) table) with
  | ok tree c =>
    -- what was passed on the way to the end has no overlong integer
    have hp : p = ⟨.ok tree, c.table, c.reports, c.log⟩ := parseFeed_of_ok h
    have hf := hsteady.follows h
    obtain ⟨asked, hasked, hover⟩ := hf.passed
    have hnone : ¬∃ q ∈ piecesAsked source table reports, q.IsOverlong := by
      rw [overlong_mem_asked asked (by rw [unread, h]; exact hasked)]
      exact hover
    refine ⟨iff_of_false (by simp [hp]) hnone, fun _ => ?_, Reading.loopsProgress⟩
    exact ⟨tree, by rw [hp], kind_of_program h, by rw [hp]; rfl, by rw [hp]; exact hf.reports⟩
  | error halt c =>
    have hp : p = ⟨.error halt, c.table, c.reports, c.log⟩ := parseFeed_of_error h
    -- nothing but an overlong integer stops the reading, and it is the last piece asked for
    obtain ⟨rfl, asked, hasked, -⟩ := hsteady.breaks h (Nat.lt_succ_self _)
    have hsome : ∃ q ∈ piecesAsked source table reports, q.IsOverlong := by
      rw [overlong_mem_asked (asked ++ [.overlong])
        (by rw [unread, h, List.append_assoc]; exact hasked)]
      simp
    refine ⟨iff_of_true (by rw [hp]) hsome, fun hnone => ?_, Reading.loopsProgress⟩
    obtain ⟨q, hq, ho⟩ := hsome
    exact absurd ho (hnone q hq)

end MiniPascal

import MiniPascal.Proofs.Grammar.Printing
import MiniPascal.Proofs.Run.Single

/-!
# String literals come back

To write a string in a program its quotes are doubled, and to read it the pairs are made one again. The
two are inverse to each other whatever the string holds, quotes at its ends, braces and line ends
included, and whatever follows it but a quote: so a string may be carried through a program text, and a
program that writes it writes just that string. Conversely, no token has the value of a string but the
one that is spelled so.

* `MiniPascal.constant?_of_literal`: the value of a string constant is told by its text.
* `MiniPascal.Text.RoundTrips`, `MiniPascal.literals_round_trip`: what becomes of a string in a program.
-/

namespace MiniPascal

open Node Piece

/-! ### Trees -/

/-- **The text of a string constant tells its value**, in the tree of any text. -/
theorem constant?_of_literal {source s : Text} {table : SymbolTable} {reports : Array Report}
    {tree c : Node} (htree : (parse source table reports).tree = .ok tree) (hc : tree.HasNode c)
    (hk : c.kind = .stringConstant) (htext : c.text = .text (literal s)) :
    c.constant? = some (.text s) := by
  obtain ⟨-, hfitting, -⟩ := sketched_of_tree htree
  obtain ⟨-, s', hs', t, ht, hwrites⟩ := (hfitting.of_hasNode hc).text (by simp [htext])
  obtain ⟨w, hvalue, rfl⟩ := hwrites.exists_literal (spelled_of_mem_lexemes ht) hk
  obtain rfl : s = w := literal_inj (by simpa [htext] using hs')
  rw [constant?, hk, hvalue]

/-- The leaf of a string token. -/
theorem Token.stringNode?_quoted (line : Nat) (s : Text) :
    (Token.quoted line s).stringNode? = some
      { kind := .stringConstant, line := line, text := .text (Piece.literal s),
        value := .text s } := by
  match s with
  | [] => rfl
  | [_] => rfl
  | _ :: _ :: _ => rfl

theorem Token.isError_quoted (line : Nat) (s : Text) : (Token.quoted line s).isError = false := by
  match s with
  | [] => rfl
  | [_] => rfl
  | _ :: _ :: _ => rfl

/-! ### From texts to output -/

/-- **What becomes of a string that is written between quotes.** -/
structure Text.RoundTrips (s : Text) : Prop where
  /-- A string of one character is a character token, and any other is a string token. -/
  kind : (∀ c, s = [c] → (Token.quoted 1 s).kind = .character c) ∧
    (s.length ≠ 1 → (Token.quoted 1 s).kind = .string s)
  /-- It is one token, and the lexemes behind it are those of the text that follows, further down. -/
  lexemes : ∀ r : Text, r.head? ≠ some (.char '\'') → lexemes (literal s ++ r) =
    .token (.quoted 1 s) :: (lexemes r).map (Lexeme.shift (s.count (.char '\n')))
  /-- The first call gives this token, and the calls behind it give those of the text that follows. -/
  calls : ∀ (r : Text) (reports reports' : Array Report), r.head? ≠ some (.char '\'') →
    (Feed.ofSource (literal s ++ r) reports).call 0 = some (.quoted 1 s) ∧
      ∀ k < (MiniPascal.lexemes r).length, (Feed.ofSource (literal s ++ r) reports).call (k + 1) =
        ((Feed.ofSource r reports').call k).map fun t =>
          { t with line := t.line + s.count (.char '\n') }
  /-- When the text that follows has ended, all calls say so. -/
  ended : ∀ (r : Text) (reports : Array Report) (k : Nat), r.head? ≠ some (.char '\'') →
    (MiniPascal.lexemes r).length ≤ k → ∃ line,
      (Feed.ofSource (literal s ++ r) reports).call (k + 1) = some ⟨.endOfFile, line, []⟩
  /-- A token that any text hands out with this value is spelled so. -/
  spelled : ∀ (source : Text) (reports : Array Report) (k : Nat) (t : Token),
    (Feed.ofSource source reports).call k = some t →
    (t.kind = .string s ∨ ∃ c, s = [c] ∧ t.kind = .character c) → t.text = literal s
  /-- Wherever a WRITELN of it stands in the tree of a text, it appends the string and a line end to
  the output, and does nothing else. -/
  visited : ∀ (source : Text) (table : SymbolTable) (reports : Array Report) (tree n c : Node),
    (parse source table reports).tree = .ok tree → tree.HasNode n → n.kind = .writeln →
    n.children = [c] → c.kind = .stringConstant → c.text = .text (literal s) →
    ∀ (level : Int) (fuel : Nat) (m : Machine), Run.visit level (fuel + 2) n m =
      .ok .nothing { m with output := m.output ++ (s ++ "\n" : Text) }
  /-- A program that does only this writes the string and a line end. -/
  written : ∀ (level : Int) (fuel : Nat), 4 ≤ fuel → ∃ table log,
    runProgram level fuel ("PROGRAM p; BEGIN writeln(" ++ literal s ++ ") END.") =
      ⟨.ok 0, none, table, s ++ "\n", log⟩

/-- The program that writes a string. -/
theorem runProgram_literal (s : Text) (level : Int) (fuel : Nat) :
    ∃ table log, runProgram level (fuel + 4) ("PROGRAM p; BEGIN writeln(" ++ literal s ++ ") END.") =
      ⟨.ok 0, none, table, s ++ "\n", log⟩ := by
  have hlexemes : lexemes (literal s ++ ") END.") =
      ([.quoted 1 s] ++ [⟨.symbol .rightParen, 1 + s.count (.char '\n'), ")"⟩,
        ⟨.keyword .endKw, 1 + s.count (.char '\n'), "END"⟩,
        ⟨.symbol .period, 1 + s.count (.char '\n'), "."⟩] : List Token).map .token := by
    rw [lexemes_literal_append s (by decide), lexemes_closing]
    rfl
  rw [writeln_asProgram]
  exact runProgram_writeln (v := .text s) hlexemes (.string (Token.stringNode?_quoted 1 s))
    (by simpa using Token.isError_quoted 1 s) rfl rfl level fuel

/-- **Every string comes back**, from its literal in a text, from the tree of the text, and from the
output of the program. -/
theorem literals_round_trip (s : Text) : s.RoundTrips where
  kind := ⟨fun _ h => h ▸ rfl, Token.Kind.ofValue_of_length_ne⟩
  lexemes r hr := lexemes_literal_append s hr
  calls r reports reports' hr :=
    ⟨Feed.call_literal s hr reports, fun _ hk => Feed.call_behind_literal s hr reports reports' hk⟩
  ended r reports k hr hk := ⟨_, Feed.call_of_length_le (by
    rw [Feed.ofSource, lexemes_literal_append s hr]
    simpa using hk)⟩
  spelled _ _ _ _ h hkind := text_of_call h hkind
  visited _ _ _ _ _ _ htree hn hk hc hkc htext :=
    Run.visit_writeln hk hc
      (constant?_of_literal htree (.child hn (by simp [hc])) hkc htext) rfl
  written level fuel hfuel := by
    obtain ⟨k, rfl⟩ := Nat.exists_eq_add_of_le' hfuel
    exact runProgram_literal s level k

/-- A quote and a line end are written between three quotes and one, and move a semicolon to the next
line. -/
theorem literals_round_trip_quote :
    (";" : Text).head? ≠ some (.char '\'') ∧
      lexemes ("'''\n'" ++ ";") =
        [.token ⟨.string "'\n", 1, "'''\n'"⟩, .token ⟨.symbol .semicolon, 2, ";"⟩] := by
  have hhead : (";" : Text).head? ≠ some (.char '\'') := by decide
  refine ⟨hhead, ?_⟩
  have hlexemes : lexemes ";" = [.token ⟨.symbol .semicolon, 1, ";"⟩] := by decide +kernel
  have hliteral : literal "'\n" = "'''\n'" := by decide
  rw [← hliteral, (literals_round_trip "'\n").lexemes ";" hhead, hlexemes]
  decide

end MiniPascal

import MiniPascal.Proofs.Grammar.Acceptance
import MiniPascal.Proofs.Token.Lexeme

/-!
# Where reading stops

The reader of programs stops behind the program, and what is left of the text is never looked at. If
nothing was reported, the program is followed by its period, and the reader stops behind that; but
the period may be left out where at least one semicolon follows the END, and then the reader stops in
front of whatever token comes next. So a text can be accepted of which only a first part was read,
and a surplus END with a semicolon behind it is enough to hide the rest.

* `MiniPascal.stopsAt?`: where reading stops.
* `MiniPascal.stops_of_errorCount`: what was passed, and what is left.
* `MiniPascal.writes_dropped`: a statement that is dropped.
-/

namespace MiniPascal

/-- **Where reading may stop** behind the given tokens. -/
inductive Stops (passed : List Token) (c : Cursor) : Prop
  /-- Behind the period. -/
  | period {t : Token} : passed.getLast? = some t → t.kind = .symbol .period → Stops passed c
  /-- At the end of the text. -/
  | ending : c.ahead = [] → Stops passed c
  /-- In front of another token, behind the END of the program and at least one semicolon. -/
  | semicolons {before semicolons : List Token} {e : Token} : passed = before ++ e :: semicolons →
    e.kind = .keyword .endKw → semicolons ≠ [] → (∀ s ∈ semicolons, s.kind = .symbol .semicolon) →
    c.ahead ≠ [] → c.current.kind ≠ .symbol .semicolon → c.current.kind ≠ .symbol .period →
    Stops passed c

/-- The cursor behind the program of a text, unless an overlong integer was met. -/
def stopsAt? (source : Text) (table : SymbolTable) : Option Cursor :=
  match Reading.program (.start (.ofSource source #[]) table) with
  | .ok _ c => some c
  | .error _ _ => none

/-- **Where reading stops.** If nothing is reported, the tokens that were passed come first in the
text, and reading stops behind the period or at the end of the text, unless a semicolon follows the
END of the program. -/
theorem stops_of_errorCount {source : Text} {table : SymbolTable}
    (h : (parse source table #[]).errorCount = .ok 0) :
    ∃ c passed, stopsAt? source table = some c ∧ lexemes source = passed.map .token ++ c.ahead ∧
      Stops passed c := by
  obtain ⟨tree, c, hprogram, hsize⟩ := errorCount_eq_ok.1 h
  have hstops : stopsAt? source table = some c := by
    unfold stopsAt?
    rw [hprogram]
  obtain ⟨passed, haccepts⟩ :=
    Reading.sound_program (fun t ht => (token_of_mem_lexemes ht).2.1) hprogram hsize
  refine ⟨c, passed, hstops, haccepts.rest, ?_⟩
  rcases haccepts.longest with ⟨t, hlast, hperiod⟩ | ⟨hsemicolon, hperiod⟩
  · exact .period hlast hperiod
  · obtain @⟨p, name, s, b, e, ts, ending, ns, -, -, -, -, -, he, hending⟩ := haccepts.derives
    cases hending with
    | @period semicolons q _ hq => exact .period (t := q) (by simp [List.getLast?_cons]) hq
    | bare hs hne =>
      by_cases hahead : c.ahead = []
      · exact .ending hahead
      · have hsplit : p :: name :: s :: b :: (ts ++ e :: ending) =
            (p :: name :: s :: b :: ts) ++ e :: ending := rfl
        exact .semicolons hsplit he hne hs hahead hsemicolon hperiod

/-- A program that assigns to a variable and writes it. What is behind its period is not read. -/
theorem stops_of_errorCount_assigned :
    let source : Text := "PROGRAM p; BEGIN x := 1; writeln(x) END. rest"
    (parse source .empty #[]).errorCount = .ok 0 ∧
      ∃ c passed, stopsAt? source .empty = some c ∧ c.current.text = "rest" ∧
        lexemes source = passed.map .token ++ c.ahead ∧ Stops passed c := by
  intro source
  have hread : (parse source .empty #[]).errorCount.toOption = some 0 ∧
      (stopsAt? source .empty).all (fun c : Cursor => c.current.text = "rest") = true := by
    decide +kernel
  obtain ⟨hcount, htext⟩ := hread
  have hcount : (parse source .empty #[]).errorCount = .ok 0 := eq_ok_of_toOption hcount
  obtain ⟨c, passed, hc, hsplit, hstops⟩ := stops_of_errorCount hcount
  rw [hc, Option.all_some, decide_eq_true_iff] at htext
  exact ⟨hcount, c, passed, hc, htext, hsplit, hstops⟩

/-- The program ends with the first END. Its semicolon stands for the period, and the second statement
is neither read nor reported. -/
theorem writes_dropped :
    let source : Text := "PROGRAM p; BEGIN writeln('a') END; writeln('b') END."
    (parse source .empty #[]).errorCount = .ok 0 ∧
      ∃ c, stopsAt? source .empty = some c ∧ c.current.text = "writeln" ∧ c.rest.length = 5 := by
  intro source
  have hread : (parse source .empty #[]).errorCount.toOption = some 0 ∧
      (stopsAt? source .empty).any
        (fun c : Cursor => c.current.text = "writeln" ∧ c.rest.length = 5) = true := by
    decide +kernel
  obtain ⟨hcount, hstops⟩ := hread
  refine ⟨eq_ok_of_toOption hcount, ?_⟩
  cases hc : stopsAt? source .empty with
  | none =>
    rw [hc] at hstops
    cases hstops
  | some c =>
    rw [hc, Option.any_some, decide_eq_true_iff] at hstops
    exact ⟨c, rfl, hstops⟩

end MiniPascal

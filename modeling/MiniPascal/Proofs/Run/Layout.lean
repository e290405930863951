import MiniPascal.Proofs.Grammar.Declaration
import MiniPascal.Proofs.Grammar.Lockstep
import MiniPascal.Proofs.Node.Reload
import MiniPascal.Proofs.Run.Lockstep
import MiniPascal.Proofs.Token.Layout
import MiniPascal.Proofs.Token.Stream

/-!
# Programs in another layout

Where the lines of a program end, and what comments stand between its tokens, is for the eyes only.
Layout that is put in front of a token moves the tokens from there on down, and so it moves some of
the lines in the reports, in the tree and in what stops a run, and that is all that it does.

* `MiniPascal.Likeness.moved`: lines that are moved down.
* `MiniPascal.Node.Alike.same`: trees that differ in lines only are equal.
* `MiniPascal.layout_independent`: the text with an insertion, from its tokens to its runs.
-/

namespace MiniPascal

open Node

/-! ### Lines that are moved -/

/-- **Some lines are moved down by `n`**, and the spelling stays. -/
def Likeness.moved (n : Nat) : Likeness :=
  .ofLines (fun l l' => l' = l ∨ l' = l + n) fun _ => .inl rfl

theorem Lexeme.alike_shift (n : Nat) (l : Lexeme) : l.Alike (.moved n) (l.shift n) := by
  cases l with
  | token t => exact .token ⟨rfl, .inr (Int.natCast_add _ _), rfl⟩
  | overlong => exact .overlong

/-- Lexemes of which the last ones are moved. -/
theorem forall₂_shift (k n : Nat) (ls : List Lexeme) :
    List.Forall₂ (Lexeme.Alike (.moved n)) ls
      (ls.take k ++ (ls.drop k).map (Lexeme.shift n)) := by
  conv_lhs => rw [← List.take_append_drop k ls]
  refine List.rel_append (List.forall₂_same.2 fun l _ => l.alike_self) ?_
  exact List.forall₂_map_right_iff.2 (List.forall₂_same.2 fun l _ => l.alike_shift n)

/-! ### Equal trees -/

theorem sameAll_of_forall₂ {ns ns' : List Node}
    (h : List.Forall₂ (fun n n' => n.same n' = true) ns ns') : sameAll ns ns' = true := by
  induction h with
  | nil => rw [sameAll]
  | cons hn _ ih => rw [sameAll, hn, ih, Bool.and_self]

/-- **Trees that are alike are equal** if alike spellings are, and lines may be anything. -/
theorem Node.Alike.same {A : Likeness} {n n' : Node} (h : n.Alike A n')
    (htext : ∀ s t, A.text s t → s = t) (hproper : n.Everywhere IsProper) :
    n.same n' = true := by
  induction hproper generalizing n' with
  | @intro n hn _ ih =>
    obtain ⟨hkind, -, hspelling, hvalue, hslot, hdescending, hchildren⟩ := h
    have hall : sameAll n.children n'.children = true :=
      sameAll_of_forall₂ ((List.forall₂_and_left _ _).2 ⟨fun m hm => hm, hchildren⟩ |>.imp
        fun m m' hm => ih m hm.1 hm.2)
    have hspelling : n.text = n'.text := by
      generalize n.text = d, n'.text = d' at hspelling ⊢
      cases hspelling with
      | null => rfl
      | text hs => rw [htext _ _ hs]
    obtain ⟨hself, hself'⟩ := hn
    rw [hspelling] at hself
    rw [hvalue] at hself'
    cases n
    cases n'
    rw [Node.same]
    simp_all

/-! ### A text with an insertion -/

/-- **Layout does not matter.** White space is inserted into a text where a token starts, or a comment
if no token of the text is an error. Then the lexemes stay, and those from the insertion on are moved
down by the number of line ends that are inserted. The two texts are read with the same number of
errors, the same symbol table, and reports that differ in lines only; their trees are equal, and at any
level of detail of the trace both runs diverge, or both end for the same reason, with the same output
and the same values of all variables. -/
theorem layout_independent {source w : Text} {before after : List Piece} {p : Piece}
    (hsplit : pieces source = before ++ p :: after) (hp : p.isToken = true)
    (hw : Insertable source w) (table : SymbolTable) :
    let source' := before.flatMap (·.text) ++ w ++ (p :: after).flatMap (·.text)
    let k := before.countP Piece.isToken
    let n := w.count (.char '\n')
    let r := parse source table #[]
    let r' := parse source' table #[]
    source = before.flatMap (·.text) ++ (p :: after).flatMap (·.text) ∧
    (lexemes source)[k]? = p.lexeme? (1 + (before.flatMap (·.text)).count (.char '\n')) ∧
    lexemes source' = (lexemes source).take k ++ ((lexemes source).drop k).map (Lexeme.shift n) ∧
    r.errorCount = r'.errorCount ∧ r.Alike (.moved n) r' ∧
    ∀ tree tree', r.tree = .ok tree → r'.tree = .ok tree' → tree.same tree' = true ∧
      ∀ level, Diverges level tree r.table ∧ Diverges level tree' r'.table ∨
        ∃ e e', Ends level tree r.table e ∧ Ends level tree' r'.table e' ∧ e.Alike (.moved n) e' := by
  intro source' k n r r'
  have hlexemes : lexemes source' =
      (lexemes source).take k ++ ((lexemes source).drop k).map (Lexeme.shift n) :=
    lexemes_insert hsplit hp hw
  have halike : r.Alike (.moved n) r' := parse_alike table (hlexemes ▸ forall₂_shift k n _)
  refine ⟨pieces_flatten hsplit, ?_, hlexemes, halike.errorCount_eq, halike,
    fun tree tree' htree htree' => ?_⟩
  · obtain ⟨l, hl⟩ := Option.isSome_iff_exists.1 ((p.isSome_lexeme? _).trans hp)
    rw [hl]
    exact getElem?_lexemes hsplit hl
  · obtain ⟨hbuilt, -⟩ := exists_meets_of_tree htree
    exact ⟨(halike.tree_alike htree htree').same (fun _ _ h => h) hbuilt.everywhere_isProper,
      halike.runs htree htree'⟩

/-- A comment with a line end in front of the operator of a division by zero. -/
theorem layout_independent_division :
    let source : Text := "PROGRAM a; BEGIN x := 1 DIV 0 END."
    let source' : Text := "PROGRAM a; BEGIN x := 1 \x7bby\n\x7dDIV 0 END."
    let r := parse source .empty #[]
    let r' := parse source' .empty #[]
    r'.errorCount = .ok 0 ∧ ∃ tree tree' e e', r.tree = .ok tree ∧ r'.tree = .ok tree' ∧
      tree.same tree' = true ∧ Ends 0 tree r.table e ∧ Ends 0 tree' r'.table e' ∧
        e.stop = some (.fault (.program 1 .divisionByZero)) ∧ e.Alike (.moved 1) e' := by
  intro source source' r r'
  have hread : r.errorCount.toOption = some 0 ∧ r.tree.toOption.isSome = true ∧
      r'.tree.toOption.isSome = true ∧
      (r.tree.toOption.map fun t => (execute 0 20 t r.table).stop) =
        some (some (.fault (.program 1 .divisionByZero))) := by
    decide +kernel
  obtain ⟨hcount, hsome, hsome', hstop⟩ := hread
  obtain ⟨tree, htree⟩ := Option.isSome_iff_exists.1 hsome
  obtain ⟨tree', htree'⟩ := Option.isSome_iff_exists.1 hsome'
  have hclean : (lexemes source).all (fun l => (l.token?.map Token.isError) = some false) = true := by
    decide +kernel
  have hcomment : Insertable source (.char '\x7b' :: (("by\n" : Text) ++ [.char '\x7d'])) :=
    .comment (by decide +kernel) fun t ht => by simpa using List.all_eq_true.1 hclean _ ht
  have hsplit : pieces source =
      (pieces source).take 13 ++ ⟨.word, "DIV"⟩ :: (pieces source).drop 14 := by decide +kernel
  have hsource' : ((pieces source).take 13).flatMap (·.text) ++
      (.char '\x7b' :: (("by\n" : Text) ++ [.char '\x7d'])) ++
        (⟨.word, "DIV"⟩ :: (pieces source).drop 14 : List Piece).flatMap (·.text) = source' := by
    decide +kernel
  obtain ⟨-, -, -, hcount', -, hruns⟩ := layout_independent hsplit rfl hcomment .empty
  rw [hsource'] at hcount' hruns
  obtain ⟨hsame, hruns⟩ := hruns tree tree' (eq_ok_of_toOption htree) (eq_ok_of_toOption htree')
  rw [htree, Option.map_some, Option.some.injEq] at hstop
  have hends : Ends 0 tree r.table (execute 0 20 tree r.table) :=
    ends_of_stop_ne (by rw [hstop]; simp)
  refine ⟨hcount'.symm.trans (eq_ok_of_toOption hcount), tree, tree', ?_⟩
  rcases hruns 0 with ⟨hdiverges, -⟩ | ⟨e, e', he, he', halike⟩
  · cases hstop.symm.trans (hdiverges 20)
  · obtain rfl := he.unique hends
    have hlines : List.count (.char '\n') (.char '\x7b' :: (("by\n" : Text) ++ [.char '\x7d'])) = 1 :=
      rfl
    rw [hlines] at halike
    exact ⟨_, e', eq_ok_of_toOption htree, eq_ok_of_toOption htree', hsame, he, he', hstop, halike⟩

end MiniPascal

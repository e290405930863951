import MiniPascal.Proofs.Grammar.Sketching
import MiniPascal.Proofs.Grammar.Source
import MiniPascal.Proofs.Node.Dump
import MiniPascal.Proofs.Run.Layout

/-!
# Dumps of programs

The dump of a program tells the program. The tokens of a text are spelled in a way that makes their
leaves legible, whatever stands between the quotes of a string, and the text that is shown tells what
is not shown: the value of a constant, and the key to which a variable is bound.

* `MiniPascal.Token.Writes.value_eq`: the text of a leaf tells its value.
* `MiniPascal.dump_determines`: programs with one dump have equal trees.
-/

namespace MiniPascal

open Node Piece

/-! ### What a leaf shows -/

section Leaves

variable {t t' : Token} {kind kind' : Node.Kind} {s s' : Text} {v v' : Datum}

theorem Piece.IsNumber.ne_minus {s r : Text} (h : IsNumber s) : s ≠ .char '-' :: r := by
  rintro rfl
  obtain ⟨c, cs, heq, hc, -⟩ := h
  cases heq
  cases hc

theorem signed_inj {negative negative' : Bool} (hs : IsNumber s) (hs' : IsNumber s')
    (h : Text.signed negative s = Text.signed negative' s') : negative = negative' ∧ s = s' := by
  cases negative <;> cases negative'
  · exact ⟨rfl, h⟩
  · exact absurd h hs.ne_minus
  · exact absurd h.symm hs'.ne_minus
  · exact ⟨rfl, List.append_cancel_left h⟩

theorem literal_inj (h : literal s = literal s') : s = s' := by
  have hnil : literal s ++ [] = literal s' ++ [] := by rw [h]
  exact (literal_append (by simp) (by simp) hnil).1

/-- A string is shown between its quotes. -/
theorem Token.Writes.exists_literal (ht : t.Spelled) (h : t.Writes kind s v)
    (hkind : kind = .stringConstant) : ∃ w, v = .text w ∧ s = literal w := by
  cases h with
  | character hk => exact ⟨_, rfl, ht.character _ hk⟩
  | string hk => exact ⟨_, rfl, ht.string _ hk⟩
  | _ => cases hkind

/-- **The text of a leaf tells its value.** -/
theorem Token.Writes.value_eq (ht : t.Spelled) (ht' : t'.Spelled) (h : t.Writes kind s v)
    (h' : t'.Writes kind' s' v') (hkind : kind = kind') (hs : s = s') : v = v' := by
  by_cases hstring : kind = .stringConstant
  · obtain ⟨w, rfl, rfl⟩ := h.exists_literal ht hstring
    obtain ⟨w', rfl, rfl⟩ := h'.exists_literal ht' (hkind ▸ hstring)
    rw [literal_inj hs]
  cases h with
  | var | program => cases h' <;> first | rfl | cases hkind
  | integer negative hk =>
    cases h' with
    | integer negative' hk' =>
      obtain ⟨hnumber, rfl⟩ := ht.integer _ hk
      obtain ⟨hnumber', rfl⟩ := ht'.integer _ hk'
      obtain ⟨rfl, htext⟩ := signed_inj hnumber hnumber' hs
      rw [htext]
    | _ => cases hkind
  | real negative hk =>
    cases h' with
    | real negative' hk' =>
      obtain ⟨hnumber, rfl⟩ := ht.real _ hk
      obtain ⟨hnumber', rfl⟩ := ht'.real _ hk'
      obtain ⟨rfl, htext⟩ := signed_inj hnumber hnumber' hs
      rw [htext]
    | _ => cases hkind
  | character | string => exact absurd rfl hstring

theorem Piece.IsNumber.plain (h : IsNumber s) : Text.Plain s := by
  have digit {c : CodePoint} (hc : Text.isDigit c = true ∨ c = .char '.') :
      c ≠ .char ' ' ∧ c ≠ .char '>' := by
    constructor <;> rintro rfl <;> revert hc <;> decide
  obtain ⟨c, cs, rfl, hc, hcs⟩ := h
  exact List.forall_mem_cons.2 ⟨digit (.inl hc), fun d hd => digit (hcs d hd)⟩

theorem plain_signed (negative : Bool) (h : IsNumber s) : Text.Plain (Text.signed negative s) := by
  cases negative with
  | false => exact h.plain
  | true => exact List.forall_mem_cons.2 ⟨by decide, h.plain⟩

theorem plain_word {c : CodePoint} {cs : Text} (hc : c.isAlpha = true)
    (hcs : ∀ d ∈ cs, isWordChar d = true) : Text.Plain (c :: cs) := by
  refine List.forall_mem_cons.2 ⟨?_, fun d hd => ?_⟩
  · constructor <;> rintro rfl <;> cases hc
  · have := hcs d hd
    constructor <;> rintro rfl <;> cases this

/-- Only strings hold blanks and brackets. -/
theorem Token.Writes.plain (ht : t.Spelled) (h : t.Writes kind s v) (hkind : kind ≠ .stringConstant) :
    Text.Plain s := by
  cases h with
  | var hk | program hk =>
    obtain ⟨c, cs, htext, hc, hcs⟩ := ht.identifier hk
    rw [htext]
    exact plain_word hc hcs
  | integer negative hk => exact plain_signed negative (ht.integer _ hk).1
  | real negative hk => exact plain_signed negative (ht.real _ hk).1
  | character | string => exact absurd rfl hkind

end Leaves

/-! ### Complete trees -/

section Trees

variable {role : Role} {n n' : Node} {source source' : Text}

/-- **Nothing is missing from the fields of a node**: they fit its kind, a program has a name, and a
variable is bound. -/
structure Node.Whole (ls : List Lexeme) (n : Node) : Prop where
  fitting : n.Fitting ls
  named : n.kind = .program → n.text ≠ .null
  bound : n.kind = .var → n.slot ≠ none

theorem Shaped.named (h : Shaped role n) : n.kind = .program → n.text ≠ .null := by
  induction h with
  | number _ ih | ofVariable _ ih | ofConstant _ ih | ofLeaf _ ih | assignment _ _ _ ih => exact ih
  | program => exact fun _ => nofun
  | binary _ hk => exact fun hp => absurd hp (Kind.nameless_of_isBinary hk).2.1
  | write _ hk => rcases hk with rfl | rfl <;> nofun
  | _ => nofun

theorem Shaped.bound (h : Shaped role n) : n.kind = .var → n.slot ≠ none := by
  induction h with
  | number _ ih | ofVariable _ ih | ofConstant _ ih | ofLeaf _ ih | assignment _ _ _ ih => exact ih
  | var => exact fun _ => nofun
  | binary _ hk => exact fun hv => absurd hv (Kind.nameless_of_isBinary hk).1
  | write _ hk => rcases hk with rfl | rfl <;> nofun
  | _ => nofun

theorem Shaped.everywhere_whole {ls : List Lexeme} (h : Shaped role n)
    (hfitting : n.Everywhere (Fitting ls)) : n.Everywhere (Whole ls) := by
  have hshaped : n.Everywhere fun m => ∃ role', Shaped role' m := by
    refine everywhere_of_child ?_ ⟨role, h⟩
    rintro m ⟨role', hm⟩ k hk
    exact hm.exists_role_child hk
  refine everywhere_iff.2 fun m hm => ?_
  obtain ⟨role', hm'⟩ := everywhere_iff.1 hshaped m hm
  exact ⟨everywhere_iff.1 hfitting m hm, hm'.named, hm'.bound⟩

theorem Node.Kind.hasText_iff {kind : Kind} :
    kind.hasText = true ↔ kind = .program ∨ kind = .var ∨ kind.isConstant = true := by
  cases kind <;> simp [hasText, isConstant]

/-- **What is whole is legible**, because tokens are spelled as their kinds ask for. -/
theorem Node.Whole.legible (h : n.Whole (lexemes source)) : n.Legible where
  kind := h.fitting.kind.2
  text hk := by
    have htext : n.text ≠ .null := by
      rcases Kind.hasText_iff.1 hk with hp | hother
      · exact h.named hp
      · exact h.fitting.text_ne_null hother
    obtain ⟨-, s, hs, t, ht, hwrites⟩ := h.fitting.text htext
    have hspelled := spelled_of_mem_lexemes ht
    refine ⟨s, hs, hwrites.plain hspelled, fun hstring => ?_⟩
    obtain ⟨w, -, hw⟩ := hwrites.exists_literal hspelled hstring
    exact ⟨w, hw⟩
  bare hk := by
    have hkind : ¬(n.kind = .program ∨ n.kind = .var ∨ n.kind.isConstant = true) := by
      rw [← Kind.hasText_iff, hk]
      simp
    refine ⟨?_, ?_⟩
    · by_contra htext
      exact hkind (h.fitting.text htext).1
    · by_contra hvalue
      exact hkind (.inr (.inr (h.fitting.value.1 hvalue)))
  direction := h.fitting.descending

/-- Of whole nodes, what is shown tells what is not. -/
theorem Node.Whole.fields_eq (h : n.Whole (lexemes source)) (h' : n'.Whole (lexemes source'))
    (hkind : n.kind = n'.kind) (htext : n.text = n'.text) :
    n.value = n'.value ∧ n.slot = n'.slot := by
  refine ⟨?_, ?_⟩
  · cases hk : n.kind.hasText with
    | false => rw [(h.legible.bare hk).2, (h'.legible.bare (hkind ▸ hk)).2]
    | true =>
      obtain ⟨s, hs, -⟩ := h.legible.text hk
      have hnull : n.text ≠ .null := by simp [hs]
      obtain ⟨-, s, hs, t, ht, hwrites⟩ := h.fitting.text hnull
      obtain ⟨-, s', hs', t', ht', hwrites'⟩ := h'.fitting.text (htext ▸ hnull)
      have hss : s = s' := by simpa [hs, hs'] using htext
      exact hwrites.value_eq (spelled_of_mem_lexemes ht) (spelled_of_mem_lexemes ht') hwrites' hkind
        hss
  · by_cases hv : n.kind = .var
    · obtain ⟨key, hkey⟩ := Option.ne_none_iff_exists'.1 (h.bound hv)
      obtain ⟨key', hkey'⟩ := Option.ne_none_iff_exists'.1 (h'.bound (hkind ▸ hv))
      obtain ⟨-, name, hname, rfl⟩ := h.fitting.slot key hkey
      obtain ⟨-, name', hname', rfl⟩ := h'.fitting.slot key' hkey'
      have hnames : name = name' := by simpa [hname, hname'] using htext
      rw [hkey, hkey', hnames]
    · have unbound {m : Node} {ls : List Lexeme} (hm : m.Whole ls) (hk : m.kind ≠ .var) :
          m.slot = none := by
        by_contra hslot
        obtain ⟨key, hkey⟩ := Option.ne_none_iff_exists'.1 hslot
        exact hk (hm.fitting.slot key hkey).1
      rw [unbound h hv, unbound h' (hkind ▸ hv)]

/-- **Whole trees that resemble each other are equal** but for lines. -/
theorem Node.Resembles.alike (hn : n.Everywhere (Whole (lexemes source)))
    (hn' : n'.Everywhere (Whole (lexemes source'))) (h : n.Resembles n') :
    n.Alike (.ofLines (fun _ _ => True) fun _ => trivial) n' := by
  induction hn generalizing n' with
  | @intro n hn _ ih =>
    obtain ⟨hkind, htext, hdescending, -, hchildren⟩ := h
    obtain ⟨hvalue, hslot⟩ := hn.fields_eq hn'.self hkind htext
    refine .intro hkind trivial ?_ hvalue hslot hdescending ?_
    · rw [← htext]
      by_cases hnull : n.text = .null
      · rw [hnull]
        exact .null
      · obtain ⟨-, s, hs, -⟩ := hn.fitting.text hnull
        rw [hs]
        exact .text rfl
    · refine List.forall₂_iff_zip.2 ⟨hchildren.length_eq, fun {m m'} hmem => ?_⟩
      obtain ⟨hm, hm'⟩ := List.of_mem_zip hmem
      exact ih m hm (hn'.child hm') (List.forall₂_zip hchildren hmem)

end Trees

/-! ### Dumps -/

/-- **The dump determines the tree.** Two texts that are read without errors, with any names declared,
give trees that can be dumped. If the dumps are the same text, the trees are equal, and corresponding
nodes resemble each other: in what they show, and, if they are statements, in their lines. Only such
trees have the same dump. -/
theorem dump_determines {source source' : Text} {table table' : SymbolTable}
    (h : (parse source table #[]).errorCount = .ok 0)
    (h' : (parse source' table' #[]).errorCount = .ok 0) :
    ∃ tree tree' s s', (parse source table #[]).tree = .ok tree ∧
      (parse source' table' #[]).tree = .ok tree' ∧ tree.dump = .ok s ∧ tree'.dump = .ok s' ∧
      (s = s' → tree.same tree' = true) ∧ (s = s' ↔ tree.Resembles tree') := by
  obtain ⟨tree, htree, hshaped, -⟩ := exists_tree_of_errorCount h
  obtain ⟨tree', htree', hshaped', -⟩ := exists_tree_of_errorCount h'
  obtain ⟨-, hfitting, -⟩ := sketched_of_tree htree
  obtain ⟨-, hfitting', -⟩ := sketched_of_tree htree'
  have hwhole := hshaped.everywhere_whole hfitting
  have hwhole' := hshaped'.everywhere_whole hfitting'
  have hlegible : tree.Everywhere Legible :=
    everywhere_iff.2 fun m hm => (everywhere_iff.1 hwhole m hm).legible
  have hlegible' : tree'.Everywhere Legible :=
    everywhere_iff.2 fun m hm => (everywhere_iff.1 hwhole' m hm).legible
  obtain ⟨s, hs⟩ := exists_dump hlegible
  obtain ⟨s', hs'⟩ := exists_dump hlegible'
  have hresembles (heq : s = s') : tree.Resembles tree' :=
    resembles_of_dump hlegible hlegible' hs (heq ▸ hs')
  refine ⟨tree, tree', s, s', htree, htree', hs, hs', fun heq => ?_, hresembles, fun heq => ?_⟩
  · obtain ⟨hbuilt, -⟩ := exists_meets_of_tree htree
    exact ((hresembles heq).alike hwhole hwhole').same (fun _ _ h => h) hbuilt.everywhere_isProper
  · have hdump := heq.dump_eq hlegible hlegible'
    rw [hs, hs'] at hdump
    exact Except.ok.inj hdump

/-- A string with quotes, brackets and a line end looks like the rest of its node and the end of the
one around it. The string starts on another line of the second text. -/
theorem dump_determines_string :
    let source : Text := "PROGRAM p; BEGIN a := 'it''s />\n    </ASSIGN>'\n; writeln(a) END."
    let source' : Text := "PROGRAM p; BEGIN a :=\n'it''s />\n    </ASSIGN>'; writeln(a) END."
    (parse source .empty #[]).errorCount = .ok 0 ∧ (parse source' .empty #[]).errorCount = .ok 0 ∧
      ∃ tree tree' s, (parse source .empty #[]).tree = .ok tree ∧
        (parse source' .empty #[]).tree = .ok tree' ∧ tree.dump = .ok s ∧ tree'.dump = .ok s ∧
        tree.same tree' = true ∧ tree.Resembles tree' := by
  intro source source'
  have hread : (parse source .empty #[]).errorCount.toOption = some 0 ∧
      (parse source' .empty #[]).errorCount.toOption = some 0 ∧
      ((parse source .empty #[]).tree.toOption.map fun t => t.dump.toOption) =
        (parse source' .empty #[]).tree.toOption.map fun t => t.dump.toOption := by
    decide +kernel
  obtain ⟨hcount, hcount', hdump⟩ := hread
  have hcount := eq_ok_of_toOption hcount
  have hcount' := eq_ok_of_toOption hcount'
  obtain ⟨tree, tree', s, s', htree, htree', hs, hs', hsame, hresembles⟩ :=
    dump_determines hcount hcount'
  have heq : s = s' := by simpa [htree, htree', hs, hs', Except.toOption] using hdump
  subst heq
  exact ⟨hcount, hcount', tree, tree', s, htree, htree', hs, hs', hsame rfl, hresembles.1 rfl⟩

end MiniPascal

import MiniPascal.Node.Basic
import MiniPascal.Proofs.SymbolTable

/-!
# The names in a tree

A tree **mentions** names in the order of the program text: the name of the program and the
targets of assignments are declared, and every other variable is used. A name is declared from
its declaration on, so that the right-hand side of an assignment may use its target.

* `MiniPascal.Node.mentions`: the names of a tree, from left to right.
* `MiniPascal.Declared`: every name is declared before it is used.
* `MiniPascal.SymbolTable.enterAll`: the symbol table behind the declarations.
-/

namespace MiniPascal

/-- A name in a program: it is declared, or it is used. -/
inductive Mention
  | declares (name : Text)
  | uses (name : Text)
deriving DecidableEq

/-! ### The mentions of a tree -/

namespace Node

mutual

/-- The names that a tree declares and uses, in the order of the program text. The first child of
an assignment is its target, which is declared and not used. -/
def mentions : Node → List Mention
  | ⟨.var, _, .text name, _, _, _, _⟩ => [.uses name]
  | ⟨.program, _, .text name, _, _, _, children⟩ => .declares name :: mentionsAll children
  | ⟨.assign, _, _, _, _, _, ⟨_, _, .text name, _, _, _, _⟩ :: children⟩ =>
    .declares name :: mentionsAll children
  | ⟨_, _, _, _, _, _, children⟩ => mentionsAll children

/-- The names that some trees declare and use. -/
def mentionsAll : List Node → List Mention
  | [] => []
  | n :: ns => mentions n ++ mentionsAll ns

end

@[simp] theorem mentionsAll_nil : mentionsAll [] = [] := rfl

@[simp] theorem mentionsAll_cons (n : Node) (ns : List Node) :
    mentionsAll (n :: ns) = mentions n ++ mentionsAll ns := rfl

@[simp] theorem mentionsAll_append (ns ms : List Node) :
    mentionsAll (ns ++ ms) = mentionsAll ns ++ mentionsAll ms := by
  induction ns with
  | nil => rfl
  | cons n ns ih => simp [ih]

/-- A node of any other kind mentions what its children mention. -/
theorem mentions_of_kind {n : Node} (hv : n.kind ≠ .var) (hp : n.kind ≠ .program)
    (ha : n.kind ≠ .assign) : n.mentions = mentionsAll n.children := by
  obtain ⟨kind, line, text, value, slot, descending, children⟩ := n
  rw [mentions.eq_def]
  cases kind <;> simp_all

/-- The target of an assignment is declared in front of all else. -/
theorem mentions_assign {n v : Node} {ns : List Node} (hk : n.kind = .assign)
    (hc : n.children = v :: ns) :
    n.mentions =
      match v.text with
      | .text name => .declares name :: mentionsAll ns
      | _ => mentions v ++ mentionsAll ns := by
  obtain ⟨kind, line, text, value, slot, descending, children⟩ := n
  obtain rfl : kind = .assign := hk
  obtain rfl : children = v :: ns := hc
  obtain ⟨kind', line', text', value', slot', descending', children'⟩ := v
  rw [mentions.eq_def]
  cases text' <;> rfl

theorem mentions_program (line : Int) (name : Text) (children : List Node) :
    mentions { kind := .program, line, text := .text name, children } =
      .declares name :: mentionsAll children := by
  simp [mentions]

end Node

/-! ### Declarations before uses -/

namespace SymbolTable

/-- The table behind some mentions: declared names are entered. -/
def enterAll (table : SymbolTable) : List Mention → SymbolTable
  | [] => table
  | .declares name :: ms => (table.enter name).enterAll ms
  | .uses _ :: ms => table.enterAll ms

@[simp] theorem enterAll_append (table : SymbolTable) (ms ms' : List Mention) :
    table.enterAll (ms ++ ms') = (table.enterAll ms).enterAll ms' := by
  induction ms generalizing table with
  | nil => rfl
  | cons m ms ih => cases m <;> simp [enterAll, ih]

end SymbolTable

/-- Every name that is used is in the table, or it is declared before. -/
def Declared (table : SymbolTable) : List Mention → Prop
  | [] => True
  | .declares name :: ms => Declared (table.enter name) ms
  | .uses name :: ms => table.contains name = true ∧ Declared table ms

@[simp] theorem declared_nil (table : SymbolTable) : Declared table [] := trivial

@[simp] theorem declared_append (table : SymbolTable) (ms ms' : List Mention) :
    Declared table (ms ++ ms') ↔ Declared table ms ∧ Declared (table.enterAll ms) ms' := by
  induction ms generalizing table with
  | nil => simp [Declared, SymbolTable.enterAll]
  | cons m ms ih => cases m <;> simp [Declared, SymbolTable.enterAll, ih, and_assoc]

/-- **Declarations before uses, in terms of the text**: whatever stands in front of a use, the
name was in the table at the start or one of the names declared there has the same key. -/
theorem declared_iff (table : SymbolTable) (ms : List Mention) :
    Declared table ms ↔ ∀ before name after, ms = before ++ .uses name :: after →
      table.contains name = true ∨
        ∃ other, .declares other ∈ before ∧ SymbolTable.key other = SymbolTable.key name := by
  induction ms generalizing table with
  | nil => simp
  | cons m ms ih =>
    cases m with
    | declares declared =>
      -- the name moves between the table and the mentions in front of the use
      rw [Declared, ih]
      constructor
      · intro h before name after he
        cases before with
        | nil => cases he
        | cons b before =>
          obtain ⟨rfl, htail⟩ := List.cons.inj he
          rcases h before name after htail with hc | ⟨other, ho, hk⟩
          · rw [SymbolTable.contains_enter, Bool.or_eq_true, decide_eq_true_eq] at hc
            exact hc.imp id fun hk => ⟨declared, by simp, hk⟩
          · exact .inr ⟨other, List.mem_cons_of_mem _ ho, hk⟩
      · intro h before name after he
        rw [SymbolTable.contains_enter, Bool.or_eq_true, decide_eq_true_eq]
        rcases h (.declares declared :: before) name after (by rw [he]; rfl) with
          hc | ⟨other, ho, hk⟩
        · exact .inl (.inl hc)
        · rcases List.mem_cons.1 ho with heq | ho
          · cases heq
            exact .inl (.inr hk)
          · exact .inr ⟨other, ho, hk⟩
    | uses used =>
      rw [Declared, ih]
      constructor
      · rintro ⟨hused, h⟩ before name after he
        cases before with
        | nil =>
          cases he
          exact .inl hused
        | cons b before =>
          obtain ⟨rfl, htail⟩ := List.cons.inj he
          exact (h before name after htail).imp id fun ⟨other, ho, hk⟩ =>
            ⟨other, List.mem_cons_of_mem _ ho, hk⟩
      · intro h
        -- nothing stands in front of the first use, so that its name is in the table
        refine ⟨(h [] used ms rfl).resolve_right (by simp), fun before name after he => ?_⟩
        rcases h (.uses used :: before) name after (by rw [he]; rfl) with hc | ⟨other, ho, hk⟩
        · exact .inl hc
        · exact .inr ⟨other, by simpa using ho, hk⟩

end MiniPascal

import MiniPascal.Proofs.Node.Occurrence
import MiniPascal.Proofs.Node.Shape
import MiniPascal.Token.Feed

/-!
# The shape of incomplete trees

A reader that meets an error leaves out of the tree what it could not read, and goes on. What it
gives then is a **sketch** of a program: every node has the children that its kind calls for, in
their order, but for those that are missing. Only two parts are never missing, because a reader
starts with them: the target of an assignment, which is bound, and the labels of a branch, of which
there may be none. An argument of WRITE may be missing, but not in front of a field width.

Leaves are never incomplete. Each shows the text and the value of a token.

A tree without errors has the shape `MiniPascal.Shaped`, in which nothing is missing. What saving a
tree relies on (`MiniPascal.Built`) says less than either: it knows of no order.

* `MiniPascal.Token.Writes`: what the leaf of a token shows.
* `MiniPascal.Sketched`: the shape of nodes some of whose children are missing.
* `MiniPascal.Node.Fitting`: the fields of a node fit its kind.
-/

namespace MiniPascal

open Node

/-! ### Leaves -/

/-- The text of a number, behind a minus sign if it has one. -/
def Text.signed (negative : Bool) (text : Text) : Text := if negative then "-" ++ text else text

/-- **What the leaf of a token shows**: the text of the token, and its value. A number may stand
behind a minus sign. A name is shown by a variable or by the program. -/
inductive Token.Writes (t : Token) : Node.Kind → Text → Datum → Prop
  | var : t.kind = .identifier → Writes t .var t.text .null
  | program : t.kind = .identifier → Writes t .program t.text .null
  | integer {n : Int} (negative : Bool) : t.kind = .integer n →
    Writes t .integerConstant (Text.signed negative t.text) (.int (if negative then -n else n))
  | real {x : Binary64} (negative : Bool) : t.kind = .real x →
    Writes t .realConstant (Text.signed negative t.text) (.real (if negative then x.neg else x))
  | character {c : CodePoint} : t.kind = .character c →
    Writes t .stringConstant t.text (.text [c])
  | string {s : Text} : t.kind = .string s → Writes t .stringConstant t.text (.text s)

/-- A token among the lexemes has the leaf. -/
def Shown (ls : List Lexeme) (kind : Node.Kind) (text : Text) (value : Datum) : Prop :=
  ∃ t, .token t ∈ ls ∧ t.Writes kind text value

/-- The kinds of constants. -/
def Node.Kind.isConstant : Kind → Bool
  | integerConstant | realConstant | stringConstant => true
  | _ => false

/-! ### Sketches -/

/-- **The shape of incomplete nodes**, whose leaves show tokens among `ls`. Children are given in
order, lists of bounded length stand for parts that may be missing, and all fields that are not given
are empty. -/
inductive Sketched (ls : List Lexeme) : Role → Node → Prop
  | var (line : Int) {name : Text} {slot : Option Text} : Shown ls .var name .null →
    (∀ key, slot = some key → key = SymbolTable.key name) →
    Sketched ls .variable { kind := .var, line, text := .text name, slot }
  | integer (line : Int) {text : Text} {n : Int} : Shown ls .integerConstant text (.int n) →
    Sketched ls .integer { kind := .integerConstant, line, text := .text text, value := .int n }
  | number {n : Node} : Sketched ls .integer n → Sketched ls .constant n
  | real (line : Int) {text : Text} {x : Binary64} : Shown ls .realConstant text (.real x) →
    Sketched ls .constant { kind := .realConstant, line, text := .text text, value := .real x }
  | string (line : Int) {text s : Text} : Shown ls .stringConstant text (.text s) →
    Sketched ls .constant { kind := .stringConstant, line, text := .text text, value := .text s }
  | ofVariable {n : Node} : Sketched ls .variable n → Sketched ls .leaf n
  | ofConstant {n : Node} : Sketched ls .constant n → Sketched ls .leaf n
  | ofLeaf {n : Node} : Sketched ls .leaf n → Sketched ls .expression n
  | not (line : Int) {ns : List Node} : ns.length ≤ 1 → (∀ n ∈ ns, Sketched ls .expression n) →
    Sketched ls .expression { kind := .not, line, children := ns }
  | binary (line : Int) {kind : Node.Kind} {ns : List Node} : kind.isBinary = true →
    ns.length ≤ 2 → (∀ n ∈ ns, Sketched ls .expression n) →
    Sketched ls .expression { kind, line, children := ns }
  | assign (line : Int) {v : Node} {es : List Node} : Sketched ls .variable v → v.slot ≠ none →
    es.length ≤ 1 → (∀ n ∈ es, Sketched ls .expression n) →
    Sketched ls .assignment { kind := .assign, line, children := v :: es }
  | assignment {n : Node} : Sketched ls .assignment n → Sketched ls .statement n
  | compound (line : Int) {ns : List Node} : (∀ n ∈ ns, Sketched ls .statement n) →
    Sketched ls .statement { kind := .compound, line, children := ns }
  | conditional (line : Int) {es ns : List Node} : es.length ≤ 1 →
    (∀ n ∈ es, Sketched ls .expression n) → ns.length ≤ 2 →
    (∀ n ∈ ns, Sketched ls .statement n) →
    Sketched ls .statement { kind := .conditional, line, children := es ++ ns }
  | whileLoop (line : Int) {es ns : List Node} : es.length ≤ 1 →
    (∀ n ∈ es, Sketched ls .expression n) → ns.length ≤ 1 →
    (∀ n ∈ ns, Sketched ls .statement n) →
    Sketched ls .statement { kind := .whileLoop, line, children := es ++ ns }
  | forLoop (line : Int) (descending : Bool) {as es ns : List Node} : as.length ≤ 1 →
    (∀ n ∈ as, Sketched ls .assignment n) → es.length ≤ 1 →
    (∀ n ∈ es, Sketched ls .expression n) → ns.length ≤ 1 →
    (∀ n ∈ ns, Sketched ls .statement n) →
    Sketched ls .statement { kind := .forLoop, line, descending, children := as ++ es ++ ns }
  | test (line : Int) {es : List Node} : es.length ≤ 1 → (∀ n ∈ es, Sketched ls .expression n) →
    Sketched ls .test { kind := .test, line, children := es }
  | loop (line : Int) {ns ts : List Node} : (∀ n ∈ ns, Sketched ls .statement n) →
    ts.length ≤ 1 → (∀ n ∈ ts, Sketched ls .test n) →
    Sketched ls .statement { kind := .loop, line, children := ns ++ ts }
  | select (line : Int) {es bs : List Node} : es.length ≤ 1 →
    (∀ n ∈ es, Sketched ls .expression n) → (∀ n ∈ bs, Sketched ls .branch n) →
    Sketched ls .statement { kind := .select, line, children := es ++ bs }
  | labels (line : Int) {ns : List Node} : (∀ n ∈ ns, Sketched ls .constant n) →
    Sketched ls .labels { kind := .selectConstants, line, children := ns }
  | branch (line : Int) {l : Node} {ns : List Node} : Sketched ls .labels l → ns.length ≤ 1 →
    (∀ n ∈ ns, Sketched ls .statement n) →
    Sketched ls .branch { kind := .selectBranch, line, children := l :: ns }
  | bareWrite (line : Int) {kind : Node.Kind} : kind = .write ∨ kind = .writeln →
    Sketched ls .statement { kind, line }
  | write (line : Int) {kind : Node.Kind} {n : Node} {ns : List Node} :
    kind = .write ∨ kind = .writeln → Sketched ls .leaf n → ns.length ≤ 2 →
    (∀ m ∈ ns, Sketched ls .integer m) → Sketched ls .statement { kind, line, children := n :: ns }
  | program (line : Int) {name : Option Text} {ns : List Node} :
    (∀ s ∈ name, Shown ls .program s .null) → ns.length ≤ 1 → (∀ n ∈ ns, n.kind = .compound) →
    (∀ n ∈ ns, Sketched ls .statement n) →
    Sketched ls .program
      { kind := .program, line, text := (name.map Datum.text).getD .null, children := ns }

variable {ls : List Lexeme} {role : Role} {n m : Node}

/-- The children of a sketch are sketches. -/
theorem Sketched.child (h : Sketched ls role n) (hm : m ∈ n.children) :
    ∃ role', Sketched ls role' m := by
  induction h with
  | var | integer | real | string | bareWrite => cases hm
  | number _ ih | ofVariable _ ih | ofConstant _ ih | ofLeaf _ ih | assignment _ ih => exact ih hm
  | not _ _ hs | binary _ _ _ hs | compound _ hs | test _ _ hs | labels _ hs | program _ _ _ _ hs =>
    exact ⟨_, hs m hm⟩
  | assign _ hv _ _ hs | branch _ hv _ hs | write _ _ hv _ hs =>
    rcases List.mem_cons.1 hm with rfl | hm
    · exact ⟨_, hv⟩
    · exact ⟨_, hs m hm⟩
  | conditional _ _ hl _ hr | whileLoop _ _ hl _ hr | loop _ hl _ hr | select _ _ hl hr =>
    rcases List.mem_append.1 hm with hm | hm
    · exact ⟨_, hl m hm⟩
    · exact ⟨_, hr m hm⟩
  | forLoop _ _ _ ha _ hl _ hr =>
    rcases List.mem_append.1 hm with hm | hm
    · rcases List.mem_append.1 hm with hm | hm
      · exact ⟨_, ha m hm⟩
      · exact ⟨_, hl m hm⟩
    · exact ⟨_, hr m hm⟩

/-! ### Fields -/

/-- **The fields of a node fit its kind.** A text, which shows a token, is on variables, constants and
perhaps on the program, a value on constants, a key on variables only, and only FOR loops count down.
The equality with a label is not among the kinds. -/
structure Node.Fitting (ls : List Lexeme) (n : Node) : Prop where
  text : n.text ≠ .null →
    (n.kind = .program ∨ n.kind = .var ∨ n.kind.isConstant = true) ∧
      ∃ s, n.text = .text s ∧ Shown ls n.kind s n.value
  text_ne_null : n.kind = .var ∨ n.kind.isConstant = true → n.text ≠ .null
  value : n.value ≠ .null ↔ n.kind.isConstant = true
  slot : ∀ key, n.slot = some key →
    n.kind = .var ∧ ∃ name, n.text = .text name ∧ key = SymbolTable.key name
  descending : n.descending = true → n.kind = .forLoop
  kind : n.kind ≠ .caseEqual ∧ n.kind ∈ Kind.all

/-- Nothing but the direction of a FOR loop stands in the fields of most kinds. -/
theorem Node.fitting_of_kind {kind : Node.Kind} {line : Int} {descending : Bool} {ns : List Node}
    (hv : kind ≠ .var) (hc : kind.isConstant = false) (hk : kind ≠ .caseEqual ∧ kind ∈ Kind.all)
    (hd : descending = true → kind = .forLoop) :
    Fitting ls { kind, line, descending, children := ns } where
  text h := absurd rfl h
  text_ne_null h := by simp [hv, hc] at h
  value := by simp [hc]
  slot := nofun
  descending := hd
  kind := hk

theorem Node.Kind.fits_of_isBinary {kind : Kind} (h : kind.isBinary = true) :
    kind ≠ .var ∧ kind.isConstant = false ∧ kind ≠ .caseEqual ∧ kind ∈ all := by
  cases kind <;> first | decide | cases h

/-- **The fields of a sketch.** -/
theorem Sketched.fitting (h : Sketched ls role n) : n.Fitting ls := by
  induction h with
  | var _ hshown hslot =>
    exact ⟨fun _ => ⟨.inr (.inl rfl), _, rfl, hshown⟩, by simp, by simp [Kind.isConstant],
      fun key hkey => ⟨rfl, _, rfl, hslot key hkey⟩, nofun, by simp [Kind.all]⟩
  | integer _ hshown | real _ hshown | string _ hshown =>
    exact ⟨fun _ => ⟨.inr (.inr rfl), _, rfl, hshown⟩, by simp, by simp [Kind.isConstant], nofun,
      nofun, by simp [Kind.all]⟩
  | number _ ih | ofVariable _ ih | ofConstant _ ih | ofLeaf _ ih | assignment _ ih => exact ih
  | binary _ hk =>
    obtain ⟨hv, hc, hk⟩ := Kind.fits_of_isBinary hk
    exact fitting_of_kind hv hc hk nofun
  | bareWrite _ hk | write _ hk =>
    rcases hk with rfl | rfl <;> exact fitting_of_kind (by decide) rfl (by decide) nofun
  | forLoop => exact fitting_of_kind (by decide) rfl (by decide) fun _ => rfl
  | @program _ name _ hname =>
    refine ⟨fun htext => ⟨.inl rfl, ?_⟩, by simp [Kind.isConstant], by simp [Kind.isConstant],
      nofun, nofun, by simp [Kind.all]⟩
    cases name with
    | none => exact absurd rfl htext
    | some s => exact ⟨s, rfl, hname s rfl⟩
  | _ => exact fitting_of_kind (by decide) rfl (by decide) nofun

/-- **Everywhere in a sketch** fields fit kinds, because every node of a sketch is one. -/
theorem Sketched.everywhere_fitting (h : Sketched ls role n) : n.Everywhere (Fitting ls) := by
  have hsketch : n.Everywhere fun m => ∃ role', Sketched ls role' m := by
    refine everywhere_of_child ?_ ⟨role, h⟩
    rintro m ⟨role', hm⟩ k hk
    exact hm.child hk
  refine everywhere_iff.2 fun m hm => ?_
  obtain ⟨role', hm⟩ := everywhere_iff.1 hsketch m hm
  exact hm.fitting

end MiniPascal

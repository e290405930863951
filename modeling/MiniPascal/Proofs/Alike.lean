import Mathlib.Data.List.Forall2
import MiniPascal.Proofs.Node.Part
import MiniPascal.Run.Machine
import MiniPascal.Token.Feed

/-!
# What two texts have in common

Two program texts may differ in a way that should not matter: in where their lines end, or in the
case of letters. Then everything that is made from them differs in the same way, and in nothing else.
A **likeness** says which lines and which spellings are taken for alike. It has to respect the one
thing that names are used for, their key.

Two things made from the texts are **alike** if they are equal but for lines and spellings, and these
are alike: tokens, reports, trees, and what stops a run.

* `MiniPascal.Likeness`: the lines and the spellings that are alike.
* `MiniPascal.Node.Alike`: trees that are alike.
* `MiniPascal.Stop.Alike`: runs that stop for the same reason.
-/

namespace MiniPascal

/-- **Which lines and which spellings are alike.** Alike names have one key, and a minus sign in
front changes nothing. -/
structure Likeness where
  line : Int → Int → Prop
  text : Text → Text → Prop
  line_refl : ∀ l, line l l
  text_refl : ∀ s, text s s
  text_minus : ∀ {s t : Text}, text s t → text ("-" ++ s) ("-" ++ t)
  key_eq : ∀ {s t : Text}, text s t → SymbolTable.key s = SymbolTable.key t

/-- Lines that are related are alike, and no spellings but equal ones. -/
def Likeness.ofLines (line : Int → Int → Prop) (hrefl : ∀ l, line l l) : Likeness where
  line := line
  text := Eq
  line_refl := hrefl
  text_refl _ := rfl
  text_minus h := by rw [h]
  key_eq h := by rw [h]

/-- Nothing but equal lines and equal spellings are alike. -/
def Likeness.exact : Likeness := .ofLines Eq fun _ => rfl

variable {A : Likeness}

theorem forall₂_toList {α β : Type} {R : α → β → Prop} {o : Option α} {o' : Option β}
    (h : Option.Rel R o o') : List.Forall₂ R o.toList o'.toList := by
  cases h with
  | some h => exact .cons h .nil
  | none => exact .nil

/-! ### Tokens and reports -/

/-- Tokens of one kind and value. -/
structure Token.Alike (A : Likeness) (t t' : Token) : Prop where
  kind : t.kind = t'.kind
  line : A.line t.line t'.line
  text : A.text t.text t'.text

/-- Alike tokens, or two overlong integers. -/
inductive Lexeme.Alike (A : Likeness) : Lexeme → Lexeme → Prop
  | token {t t' : Token} : t.Alike A t' → Alike A (.token t) (.token t')
  | overlong : Alike A .overlong .overlong

theorem Lexeme.alike_self (l : Lexeme) : l.Alike A l := by
  cases l with
  | token t => exact .token ⟨rfl, A.line_refl _, A.text_refl _⟩
  | overlong => exact .overlong

/-- Reports of the same error. -/
structure Report.Alike (A : Likeness) (r r' : Report) : Prop where
  kind : r.kind = r'.kind
  line : A.line r.line r'.line
  message : r.message = r'.message
  text : A.text r.text r'.text

/-- Alike tokens are reported alike. -/
theorem Token.Alike.reports {t t' : Token} (h : t.Alike A t') :
    List.Forall₂ (Report.Alike A) t.reports t'.reports := by
  obtain ⟨kind, line, text⟩ := t
  obtain ⟨kind', line', text'⟩ := t'
  obtain ⟨rfl, hline, htext⟩ := h
  cases kind with
  | error flaw => exact .cons ⟨rfl, hline, rfl, htext⟩ .nil
  | _ => exact .nil

/-! ### Trees -/

/-- Nothing, or alike spellings. -/
inductive Datum.Alike (A : Likeness) : Datum → Datum → Prop
  | null : Alike A .null .null
  | text {s s' : Text} : A.text s s' → Alike A (.text s) (.text s')

/-- What has a spelling can be shown. -/
theorem Datum.Alike.isSome_display? {d d' : Datum} (h : d.Alike A d') :
    d.display?.isSome = true ∧ d'.display?.isSome = true := by
  cases h <;> exact ⟨rfl, rfl⟩

/-- **Trees that are equal but for lines and spellings.** -/
inductive Node.Alike (A : Likeness) : Node → Node → Prop
  | intro {n n' : Node} : n.kind = n'.kind → A.line n.line n'.line → n.text.Alike A n'.text →
    n.value = n'.value → n.slot = n'.slot → n.descending = n'.descending →
    List.Forall₂ (Alike A) n.children n'.children → Alike A n n'

namespace Node.Alike

variable {n n' : Node}

theorem kind (h : n.Alike A n') : n.kind = n'.kind := by
  obtain ⟨h, -⟩ := h
  exact h

theorem line (h : n.Alike A n') : A.line n.line n'.line := by
  obtain ⟨-, h, -⟩ := h
  exact h

theorem text (h : n.Alike A n') : n.text.Alike A n'.text := by
  obtain ⟨-, -, h, -⟩ := h
  exact h

theorem value (h : n.Alike A n') : n.value = n'.value := by
  obtain ⟨-, -, -, h, -⟩ := h
  exact h

theorem slot (h : n.Alike A n') : n.slot = n'.slot := by
  obtain ⟨-, -, -, -, h, -⟩ := h
  exact h

theorem descending (h : n.Alike A n') : n.descending = n'.descending := by
  obtain ⟨-, -, -, -, -, h, -⟩ := h
  exact h

theorem children (h : n.Alike A n') : List.Forall₂ (Node.Alike A) n.children n'.children := by
  obtain ⟨-, -, -, -, -, -, h⟩ := h
  exact h

end Node.Alike

/-! ### What stops a run -/

/-- The same cause, with alike names. -/
inductive Cause.Alike (A : Likeness) : Cause → Cause → Prop
  | refl (cause : Cause) : Alike A cause cause
  | unassigned {name name' : Text} : A.text name name' → Alike A (.unassigned name) (.unassigned name')

/-- The same fault, on alike lines. -/
inductive Fault.Alike (A : Likeness) : Fault → Fault → Prop
  | refl (f : Fault) : Alike A f f
  | program {line line' : Int} {cause cause' : Cause} : A.line line line' → cause.Alike A cause' →
    Alike A (.program line cause) (.program line' cause')

/-- The same reason to stop. -/
inductive Stop.Alike (A : Likeness) : Stop → Stop → Prop
  | fault {f f' : Fault} : f.Alike A f' → Alike A (.fault f) (.fault f')
  | exhausted : Alike A .exhausted .exhausted

theorem Stop.Alike.eq_exhausted_iff {stop stop' : Stop} (h : stop.Alike A stop') :
    stop = .exhausted ↔ stop' = .exhausted := by
  cases h <;> simp

/-- Without any freedom the reason is the very same. -/
theorem Stop.Alike.eq {stop stop' : Stop} (h : stop.Alike .exact stop') : stop = stop' := by
  cases h with
  | exhausted => rfl
  | fault h =>
    cases h with
    | refl => rfl
    | program hline hcause =>
      obtain rfl := hline
      cases hcause with
      | refl => rfl
      | unassigned hname =>
        obtain rfl := hname
        rfl

end MiniPascal

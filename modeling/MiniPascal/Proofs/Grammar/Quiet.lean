import MiniPascal.Proofs.Grammar.Phrase
import MiniPascal.Proofs.Grammar.Readers
import MiniPascal.Proofs.Token.Lexeme

/-!
# Quiet steps

A step from one cursor to another is **quiet** if nothing is reported on the way. What such a step
has done to the cursor is known in full: it has passed some tokens, it has used names that are in
the symbol table, and it has entered others. This is `MiniPascal.Cursor.Quiet`.

* `MiniPascal.Cursor.ahead`: what is still to be read, the current token included.
* `MiniPascal.Cursor.Quiet`: passing tokens, using names and entering them.
-/

namespace MiniPascal

namespace Cursor

variable {c c' c'' : Cursor} {t : Token} {ts us : List Token} {ms ns : List Mention}

/-! ### What is in front -/

/-- What is still to be read, the current token included. -/
def ahead (c : Cursor) : List Lexeme :=
  if c.current.kind = .endOfFile then [] else .token c.current :: c.rest

/-- The end of the text stands at the end only, and the current token is no error token. -/
structure Calm (c : Cursor) : Prop where
  tidy : c.Tidy
  clean : c.current.isError = false

theorem ahead_of_ne (h : c.current.kind ≠ .endOfFile) : c.ahead = .token c.current :: c.rest :=
  if_neg h

theorem current_of_ahead {l : List Lexeme} (h : c.ahead = .token t :: l) :
    c.current = t ∧ c.rest = l ∧ t.kind ≠ .endOfFile := by
  unfold ahead at h
  split at h
  · cases h
  · rename_i hk
    cases h
    exact ⟨rfl, rfl, hk⟩

/-! ### Quiet steps -/

/-- **A quiet step**: the tokens `ts` are passed, and the names `ms` are met. -/
structure Quiet (c : Cursor) (ts : List Token) (ms : List Mention) (c' : Cursor) : Prop where
  ahead : c.ahead = ts.map .token ++ c'.ahead
  clean : ∀ t ∈ ts, t.isError = false
  declared : Declared c.table ms
  table : c'.table = c.table.enterAll ms
  reports : c'.reports = c.reports
  calm : c'.Calm

theorem Quiet.refl (hc : c.Calm) : Quiet c [] [] c :=
  ⟨by simp, by simp, by simp, rfl, rfl, hc⟩

theorem Quiet.trans (h : Quiet c ts ms c') (h' : Quiet c' us ns c'') :
    Quiet c (ts ++ us) (ms ++ ns) c'' where
  ahead := by rw [h.ahead, h'.ahead, List.map_append, List.append_assoc]
  clean t ht := (List.mem_append.1 ht).elim (h.clean t) (h'.clean t)
  declared := (declared_append _ _ _).2 ⟨h.declared, h.table ▸ h'.declared⟩
  table := by rw [h'.table, h.table, SymbolTable.enterAll_append]
  reports := h'.reports.trans h.reports
  calm := h'.calm

theorem Quiet.size_eq (h : Quiet c ts ms c') : c'.reports.size = c.reports.size := by
  rw [h.reports]

theorem Quiet.current (h : Quiet c (t :: ts) ms c') : c.current = t :=
  (current_of_ahead h.ahead).1

/-- The name of the current token is entered. -/
theorem quiet_enter (hc : c.Calm) (name : Text) :
    Quiet c [] [.declares name] { c with table := c.table.enter name } :=
  ⟨by simp [Cursor.ahead], by simp, by simp [Declared], rfl, rfl,
    ⟨hc.tidy.inner, hc.tidy.last⟩, hc.clean⟩

/-- A name that is used is in the table. -/
theorem quiet_use (hc : c.Calm) {name : Text} (h : c.table.contains name = true) :
    Quiet c [] [.uses name] c :=
  ⟨by simp, by simp, by simp [Declared, h], rfl, rfl, hc⟩

end Cursor

namespace Reading

open Cursor

variable {α : Type} {c c' : Cursor}

/-! ### Quiet actions -/

theorem Steady.grows {act : Reading α} {a : α} (hs : Steady 0 act) (h : act c = .ok a c') :
    c.reports.size ≤ c'.reports.size := ((hs c).follows h).size_le

/-- Moving on is quiet, unless the next token is an error token. -/
theorem quiet_advance {x : Unit} (hc : c.Calm) (hk : c.current.kind ≠ .endOfFile)
    (h : advance c = .ok x c') (hq : c'.reports.size = c.reports.size) :
    Quiet c [c.current] [] c' := by
  have htidy := (follows_advance h).tidy hc.tidy
  rcases advance_eq_ok h with ⟨hr, rfl⟩ | ⟨t, rest, hr, rfl⟩
  · refine ⟨?_, by simp [hc.clean], by simp, rfl, rfl, htidy, rfl⟩
    rw [ahead_of_ne hk, hr]
    simp [ahead]
  · have hclean : t.reports = [] := by
      simpa [Feed.note, ← Array.length_toList] using hq
    have hne : t.kind ≠ .endOfFile := hc.tidy.inner t (by simp [hr])
    refine ⟨?_, by simp [hc.clean], by simp, rfl, by simp [Feed.note, hclean], htidy,
      Token.isError_eq_false hclean⟩
    rw [ahead_of_ne hk, ahead_of_ne hne, hr]
    rfl

theorem size_lt_of_complain {w : Complaint} {x : Unit} (h : complain w c = .ok x c') :
    c.reports.size < c'.reports.size := by
  have := (complain_eq_ok h).2.2
  omega

/-- Nothing is rejected in quiet. -/
theorem size_lt_of_reject {w : Complaint} {x : Unit} (h : reject w c = .ok x c') :
    c.reports.size < c'.reports.size := by
  obtain ⟨_, c₁, hcomplain, hskip⟩ := bind_eq_ok.1 h
  rw [budget_bind] at hskip
  exact Nat.lt_of_lt_of_le (size_lt_of_complain hcomplain)
    (((steady_skip _).mono (Nat.zero_le _)).grows hskip)

/-- What a reader does behind a token that it rejects does not make it quiet again. -/
theorem size_lt_of_reject_bind {α : Type} {w : Complaint} {f : Unit → Reading α} {a : α}
    (hf : ∀ x, Steady 0 (f x)) (h : (reject w >>= f) c = .ok a c') :
    c.reports.size < c'.reports.size := by
  obtain ⟨x, c₁, hreject, h⟩ := bind_eq_ok.1 h
  exact Nat.lt_of_lt_of_le (size_lt_of_reject hreject) ((hf x).grows h)

theorem size_lt_of_reject_pure {α : Type} {w : Complaint} {a b : α}
    (h : (do reject w; return a : Reading α) c = .ok b c') :
    c.reports.size < c'.reports.size := size_lt_of_reject_bind (fun _ => steady_pure a) h

end Reading

end MiniPascal

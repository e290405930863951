import MiniPascal.Proofs.Grammar.Progress
import MiniPascal.Proofs.Node.Built

/-!
# What readers build

A reader may stop in the middle of a phrase, complain, skip tokens and go on, but it never drops a
tree that it has built, and it never puts one in front of another that it met before. So the
occurrences of names in the trees that it gives, in pre-order, are the ones that it met on its way:
it entered the names that are declared there, looked up the others, and complained about those that
it did not find.

This is said of cursors by `MiniPascal.Cursor.Meets` and of readers by `MiniPascal.Reading.Builds`,
which carries along the trees that are built already. These need not be finished: an assignment that
has only its target stands for the name that is entered before the right-hand side is read.

* `MiniPascal.Cursor.Meets`: occurrences on the way from one cursor to another.
* `MiniPascal.Reading.Silent`: nothing is met.
* `MiniPascal.Reading.Builds`: what is met is what is built.
-/

namespace MiniPascal

open Node

/-! ### Occurrences on the way -/

namespace Cursor

/-- No number in hand or in front is a NaN. -/
structure Numeric (c : Cursor) : Prop where
  inHand : c.current.kind ≠ .real .nan
  inFront : ∀ t, .token t ∈ c.rest → t.kind ≠ .real .nan

/-- **The occurrences `os` are met on the way from one cursor to another**: the declared names are
entered, the others are bound if they are there, and all that is reported as an error of meaning is
that some are not. -/
structure Meets (c : Cursor) (os : List Occurrence) (c' : Cursor) : Prop where
  table : c'.table = c.table.enterNames (os.filterMap Occurrence.declared?)
  resolved : Resolved c.table os
  reports : ∃ added, c'.reports.toList = c.reports.toList ++ added ∧
    ((added.filter (·.kind = .semantic)).map fun r => (r.line, r.text)) =
      os.filterMap Occurrence.unbound?
  numeric : c'.Numeric

variable {c c' c'' : Cursor} {os os' : List Occurrence}

theorem Meets.trans (h : Meets c os c') (h' : Meets c' os' c'') : Meets c (os ++ os') c'' := by
  obtain ⟨added, hadded, hmap⟩ := h.reports
  obtain ⟨added', hadded', hmap'⟩ := h'.reports
  refine ⟨?_, resolved_append.2 ⟨h.resolved, h.table ▸ h'.resolved⟩, ⟨added ++ added', ?_, ?_⟩,
    h'.numeric⟩
  · rw [h'.table, h.table, List.filterMap_append, SymbolTable.enterNames_append]
  · rw [hadded', hadded, List.append_assoc]
  · rw [List.filter_append, List.map_append, hmap, hmap', List.filterMap_append]

/-- Nothing is met if the table is the same and no report is about meaning. -/
theorem meets_nil (added : List Report) (htable : c'.table = c.table)
    (hreports : c'.reports.toList = c.reports.toList ++ added)
    (hkind : ∀ r ∈ added, r.kind ≠ .semantic) (hn : c'.Numeric) : Meets c [] c' := by
  refine ⟨htable, trivial, ⟨added, hreports, ?_⟩, hn⟩
  rw [List.filter_eq_nil_iff.2 fun r hr => by simpa using hkind r hr]
  rfl

theorem Meets.refl (hn : c.Numeric) : Meets c [] c :=
  meets_nil [] rfl (by simp) (by simp) hn

/-- A name is entered. -/
theorem meets_enter (hn : c.Numeric) (name : Text) :
    Meets c [.declares name] { c with table := c.table.enter name } :=
  ⟨rfl, trivial, ⟨[], by simp [Occurrence.unbound?]⟩, ⟨hn.inHand, hn.inFront⟩⟩

/-- A name is there. -/
theorem meets_bound (hn : c.Numeric) {name : Text} (h : c.table.contains name = true) (line : Int) :
    Meets c [.refers line name (some (SymbolTable.key name))] c :=
  ⟨rfl, ⟨(if_pos h).symm, trivial⟩, ⟨[], by simp [Occurrence.unbound?]⟩, hn⟩

end Cursor

theorem Token.kind_of_mem_reports {t : Token} {r : Report} (h : r ∈ t.reports) :
    r.kind = .token := by
  unfold reports at h
  split at h
  · rw [List.mem_singleton.1 h]
  · cases h

namespace Reading

open Cursor

variable {α β : Type} {c c' : Cursor} {ns ms : List Node} {x : Reading α} {f : α → Reading β}
  {trees : β → List Node}

/-! ### Silent actions -/

/-- **A silent action** meets nothing. -/
def Silent (act : Reading α) : Prop := ∀ ⦃c a c'⦄, act c = .ok a c' → c.Numeric → c.Meets [] c'

theorem Silent.bind (hx : Silent x) (hf : ∀ a, Silent (f a)) : Silent (x >>= f) := by
  intro c b c' h hn
  obtain ⟨a, c₁, h₁, h₂⟩ := bind_eq_ok.1 h
  have hmeets := hx h₁ hn
  exact hmeets.trans (hf a h₂ hmeets.numeric)

/-- An action that leaves the cursor as it is. -/
theorem silent_of_still (h : ∀ c, ∃ a, x c = .ok a c) : Silent x := by
  intro c a c' hx hn
  obtain ⟨b, hb⟩ := h c
  rw [hb] at hx
  cases hx
  exact .refl hn

theorem silent_pure (a : α) : Silent (pure a : Reading α) := silent_of_still fun _ => ⟨a, rfl⟩

theorem silent_throw {halt : Halt} : Silent (throw halt : Reading α) := fun _ _ _ => nofun

theorem silent_current : Silent current := silent_of_still fun _ => ⟨_, rfl⟩

theorem silent_kind : Silent kind := silent_of_still fun _ => ⟨_, rfl⟩

theorem silent_get : Silent (get : Reading Cursor) := silent_of_still fun _ => ⟨_, rfl⟩

theorem silent_reportCount : Silent reportCount := silent_of_still fun _ => ⟨_, rfl⟩

theorem silent_budget : Silent budget := silent_of_still fun _ => ⟨_, rfl⟩

/-- Moving on reports error tokens only. -/
theorem silent_advance : Silent advance := by
  intro c u c' h hn
  rcases advance_eq_ok h with ⟨-, rfl⟩ | ⟨t, rest, hr, rfl⟩
  · exact meets_nil [] rfl (by simp) (by simp) ⟨by simp, hn.inFront⟩
  · refine meets_nil t.reports rfl (by simp [Feed.note]) (fun r hr => ?_)
      ⟨hn.inFront t (by simp [hr]), fun t' h' => hn.inFront t' ?_⟩
    · rw [Token.kind_of_mem_reports hr]
      simp
    · rw [hr]
      exact List.mem_cons_of_mem _ h'

/-- A complaint about the grammar. -/
theorem silent_complain {w : Complaint} (hw : w ≠ .undeclared) : Silent (complain w) := by
  intro c u c' h hn
  cases h
  refine meets_nil [_] rfl Array.toList_push (fun r hr => ?_) ⟨hn.inHand, hn.inFront⟩
  rw [List.mem_singleton.1 hr]
  cases w <;> simp_all [Complaint.reportKind]

theorem silent_logProgram (name : Option Text) : Silent (logProgram name) := by
  intro c u c' h hn
  cases h
  exact meets_nil [] rfl (by simp) (by simp) ⟨hn.inHand, hn.inFront⟩

theorem silent_skip : ∀ k, Silent (skip k)
  | 0 => silent_throw
  | k + 1 => by
    refine silent_kind.bind fun _ => ?_
    split
    · exact silent_pure _
    · exact silent_advance.bind fun _ => silent_skip k

theorem silent_reject {w : Complaint} (hw : w ≠ .undeclared) : Silent (reject w) :=
  (silent_complain hw).bind fun _ => silent_budget.bind silent_skip

theorem silent_expect (expected : Token.Kind) {w : Complaint} (hw : w ≠ .undeclared) :
    Silent (expect expected w) := by
  refine silent_kind.bind fun _ => ?_
  split
  · exact silent_advance.bind fun _ => silent_pure _
  · exact (silent_reject hw).bind fun _ => silent_pure _

theorem silent_skipSemicolons : ∀ k, Silent (skipSemicolons k)
  | 0 => silent_throw
  | k + 1 => by
    refine silent_kind.bind fun _ => ?_
    split
    · exact silent_advance.bind fun _ => silent_skipSemicolons k
    · exact silent_pure _

/-! ### Actions that build -/

/-- At the given cursor the action builds trees behind `ns`. -/
def BuildsAt (c : Cursor) (ns : List Node) (act : Reading α) (trees : α → List Node) : Prop :=
  ∀ ⦃a c'⦄, act c = .ok a c' → c.Numeric → (∀ n ∈ ns, Built n) →
    (∀ n ∈ trees a, Built n) ∧
      ∃ os, (trees a).flatMap occurrences = ns.flatMap occurrences ++ os ∧ c.Meets os c'

/-- **The action builds trees behind `ns`**: the trees of its result go on from `ns`, and what it
meets are the occurrences that they have beyond those of `ns`. -/
def Builds (ns : List Node) (act : Reading α) (trees : α → List Node) : Prop :=
  ∀ c, BuildsAt c ns act trees

theorem Builds.bind {new : α → List Node} (hx : Builds [] x new)
    (hf : ∀ a, Builds (ns ++ new a) (f a) trees) : Builds ns (x >>= f) trees := by
  intro c b c' h hn hns
  obtain ⟨a, c₁, h₁, h₂⟩ := bind_eq_ok.1 h
  obtain ⟨hnew, os, hos, hmeets⟩ := hx c h₁ hn (by simp)
  obtain ⟨htrees, os', hos', hmeets'⟩ :=
    hf a c₁ h₂ hmeets.numeric (List.forall_mem_append.2 ⟨hns, hnew⟩)
  refine ⟨htrees, os ++ os', ?_, hmeets.trans hmeets'⟩
  rw [hos', List.flatMap_append, hos, List.flatMap_nil, List.nil_append, List.append_assoc]

theorem Silent.builds_bind (hx : Silent x) (hf : ∀ a, Builds ns (f a) trees) :
    Builds ns (x >>= f) trees := by
  intro c b c' h hn hns
  obtain ⟨a, c₁, h₁, h₂⟩ := bind_eq_ok.1 h
  have hmeets := hx h₁ hn
  obtain ⟨htrees, os, hos, hmeets'⟩ := hf a c₁ h₂ hmeets.numeric hns
  exact ⟨htrees, os, hos, hmeets.trans hmeets'⟩

theorem Builds.map {g : α → β} (hx : Builds ns x fun a => trees (g a)) :
    Builds ns (g <$> x) trees := by
  intro c b c' h
  obtain ⟨a, ha, rfl⟩ := map_eq_ok.1 h
  exact hx c ha

/-- Trees are put together that say the same. -/
theorem builds_pure {b : β} (hos : (trees b).flatMap occurrences = ns.flatMap occurrences)
    (hb : (∀ n ∈ ns, Built n) → ∀ n ∈ trees b, Built n) : Builds ns (pure b) trees := by
  intro c a c' h hn hns
  obtain ⟨rfl, rfl⟩ := pure_eq_ok.1 h
  exact ⟨hb hns, [], by rw [hos, List.append_nil], .refl hn⟩

/-- The trees are given as they are. -/
theorem builds_return {b : β} (h : trees b = ns) : Builds ns (pure b) trees :=
  builds_pure (by rw [h]) (by rw [h]; exact id)

theorem builds_throw {halt : Halt} : Builds ns (throw halt : Reading β) trees := fun _ _ _ => nofun

/-- **A node is put over the trees.** -/
theorem Builds.bare {line : Int} {kind : Node.Kind} {descending : Bool} {act : Reading β}
    (h : Builds [{ kind, line, descending, children := ns }] act trees) (hk : kind.isBare = true) :
    Builds ns act trees := by
  intro c b c' hact hn hns
  obtain ⟨htrees, os, hos, hmeets⟩ :=
    h c hact hn (List.forall_mem_singleton.2 (.bare line hk hns))
  exact ⟨htrees, os, by simpa [occurrences_bare hk] using hos, hmeets⟩

theorem builds_node {line : Int} {kind : Node.Kind} {descending : Bool} {b : β}
    (hb : trees b = [{ kind, line, descending, children := ns }]) (hk : kind.isBare = true) :
    Builds ns (pure b) trees :=
  (builds_return hb).bare hk

/-! ### At a cursor -/

theorem BuildsAt.current_bind {g : Token → Reading β} (h : BuildsAt c ns (g c.current) trees) :
    BuildsAt c ns (current >>= g) trees := h

theorem BuildsAt.of_numeric {act : Reading β} (h : c.Numeric → BuildsAt c ns act trees) :
    BuildsAt c ns act trees := fun _ _ hact hn => h hn hact hn

/-- **Trees are met and built**, which the rest of the action goes on from. -/
theorem BuildsAt.of_meets (new : List Node) {act rest : Reading β} {c₁ : Cursor}
    (hact : act c = rest c₁) (hmeets : c.Numeric → c.Meets (new.flatMap occurrences) c₁)
    (hnew : ∀ n ∈ new, Built n) (hrest : Builds (ns ++ new) rest trees) :
    BuildsAt c ns act trees := by
  intro b c' h hn hns
  rw [hact] at h
  obtain ⟨htrees, os, hos, hmeets'⟩ :=
    hrest c₁ h (hmeets hn).numeric (List.forall_mem_append.2 ⟨hns, hnew⟩)
  refine ⟨htrees, new.flatMap occurrences ++ os, ?_, (hmeets hn).trans hmeets'⟩
  rw [hos, List.flatMap_append, List.append_assoc]

end Reading

end MiniPascal

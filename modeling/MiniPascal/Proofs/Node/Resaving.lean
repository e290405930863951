import MiniPascal.Proofs.Node.Loading

/-!
# Saving what was loaded

A document that was written by hand says things in many ways: a line or a real may be given as a text, a
direction as a number, and what a node does not have may be left out or be null. Loading brings all of it
into one form. What was loaded is therefore saved as a document that is loaded as the very same tree,
whatever the names are that the table holds by then, and saving that tree gives the same document again.

The one thing that makes it so is that a loaded node is bound as it would be if it were loaded now, by its
name alone (`MiniPascal.Node.IsLoaded`).

* `MiniPascal.Node.ofDatum_toDatum`: loading a saved tree that was loaded.
* `MiniPascal.Node.resaving_is_stable`: loading, saving and loading again.
-/

namespace MiniPascal.Node

open Datum

/-- The names that loading a tree enters, in pre-order. -/
def enteredNames (n : Node) : List Text := n.preorder.filterMap fun m => nameOf? m.kind m.text

theorem enteredNames_eq (n : Node) :
    n.enteredNames = (nameOf? n.kind n.text).toList ++ n.children.flatMap enteredNames := by
  rw [enteredNames, preorder_eq, List.filterMap_cons, List.filterMap_flatMap]
  cases nameOf? n.kind n.text <;> rfl

/-- **A tree that was loaded is loaded as it is** when it was saved. -/
theorem ofDatum_toDatum {n : Node} (h : n.Everywhere IsLoaded) (table : SymbolTable) :
    ofDatum n.toDatum table = .ok n (table.enterNames n.enteredNames) := by
  induction h generalizing table with
  | @intro n hself _ ih =>
    rw [toDatum_eq, (describes_savedFields n).ofDatum_eq hself.kind hself.value,
      loader_bind (loadSlot_of_nameValid hself.name table), loader_bind (ofData_toData ih _),
      ← hself.slot, ← SymbolTable.enterNames_append, ← enteredNames_eq, List.map_id']
    cases n
    rfl

/-- A loaded variable is bound to the key of its name. -/
theorem IsLoaded.exists_name {v : Node} (h : v.IsLoaded) (hv : v.kind = .var) :
    ∃ name, v.text = .text name ∧ v.slot = some (SymbolTable.key name) := by
  obtain ⟨kind, line, text, value, slot, descending, children⟩ := v
  obtain rfl : kind = .var := hv
  have htext := h.name.1 rfl
  cases text with
  | text name => exact ⟨name, rfl, h.slot⟩
  | _ => cases htext

/-- **Loading, saving and loading again is loading.** Whatever document a tree was loaded from, and
whatever table it is loaded on again, what was saved of it is loaded as the very same tree: with the same
kind, line, text, value, direction and children at every node. So it is also saved as the same document.
Every variable is bound to the key of its name, which is in the table. -/
theorem resaving_is_stable {d : Datum} {table table₁ : SymbolTable} {tree : Node}
    (h : ofDatum d table = .ok tree table₁) (table' : SymbolTable) :
    ∃ tree' table'', ofDatum tree.toDatum table' = .ok tree' table'' ∧ tree' = tree ∧
      tree'.toDatum = tree.toDatum ∧
      ∀ v ∈ tree'.preorder, v.kind = .var →
        ∃ name, v.text = .text name ∧ v.slot = some (SymbolTable.key name) ∧
          table''.contains name = true := by
  have hloaded : tree.Everywhere IsLoaded := by
    have hwalks := walks_ofDatum d table
    rw [h] at hwalks
    cases hwalks with
    | ok hloaded _ => exact hloaded
  refine ⟨tree, _, ofDatum_toDatum hloaded table', rfl, rfl, fun v hv hk => ?_⟩
  obtain ⟨name, htext, hslot⟩ := (everywhere_iff.1 hloaded v hv).exists_name hk
  refine ⟨name, htext, hslot, SymbolTable.contains_enterNames.2 (.inr ?_)⟩
  refine List.mem_map_of_mem (List.mem_filterMap.2 ⟨v, hv, ?_⟩)
  rw [hk, htext]
  rfl

/-- A program by hand, with a line and a real in texts, a direction that is a list, and no children where
they may be left out. Its tree is found again on another table, with the variable bound there. -/
theorem resaving_is_stable_by_hand :
    let d : Datum := .record [field "text" (.text "P"), field "type" (.text "PROGRAM"),
      field "children" (.list [
        .record [field "type" (.text "VARIABLE"), field "line" (.text " 7 "), field "text" (.text "X"),
          field "children" (.record [])],
        .record [field "type" (.text "REAL_CONSTANT"), field "value" (.text "2.5"),
          field "text" .null, field "descending" (.list [.null])]])]
    let other : SymbolTable := ⟨[("y", .nothing)]⟩
    ∃ tree table', ofDatum d .empty = .ok tree table' ∧
      tree.preorder.map (fun n => (n.line, n.descending)) = [(0, false), (7, false), (0, true)] ∧
      ∃ table'', ofDatum tree.toDatum other = .ok tree table'' ∧ table''.contains "x" = true := by
  intro d other
  have hload : (match ofDatum d .empty with
      | .ok tree _ =>
        decide (tree.preorder.map (fun n => (n.line, n.descending)) =
          [(0, false), (7, false), (0, true)] ∧
          ∃ v ∈ tree.preorder, v.kind = .var ∧ v.slot = some (Text.ofString "x"))
      | .error _ _ => false) = true := by decide +kernel
  cases hd : ofDatum d .empty with
  | error => simp [hd] at hload
  | ok tree table' =>
    rw [hd, decide_eq_true_iff] at hload
    obtain ⟨hshape, v, hv, hk, hx⟩ := hload
    obtain ⟨tree', table'', hagain, rfl, -, hbound⟩ := resaving_is_stable hd other
    obtain ⟨name, -, hslot, hmem⟩ := hbound v hv hk
    have hkey : SymbolTable.key name = Text.ofString "x" := Option.some.inj (hslot.symm.trans hx)
    refine ⟨tree', table', rfl, hshape, table'', hagain, ?_⟩
    rw [SymbolTable.contains, hkey] at hmem
    exact hmem

end MiniPascal.Node

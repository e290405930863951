import MiniPascal.Proofs.Grammar.Source
import MiniPascal.Proofs.Node.Occurrence
import MiniPascal.Proofs.Run.Discipline
import MiniPascal.Proofs.Run.Fuel

/-!
# What a run depends on

A run depends on the variables that occur in its tree, and on nothing else that is in the symbol table.
Two tables that **agree** on these variables may hold different things for all others, may have them in
another order, or may not have them at all. Two runs of one tree on such tables are in step: they do the
same at every moment, so that they end in the same way or both of them diverge, and the tables go on to
agree.

Agreement is asked for name by name, in terms of the names as they are written in the tree. The run goes
by keys, and that every key it uses comes from such a name is a matter of the shape of the tree.

* `MiniPascal.Node.Occurs`: the names of the variables of a tree.
* `MiniPascal.Discipline.agreement`: an action does the same on machines that agree.
* `MiniPascal.runs_agree`: two runs on tables that agree.
-/

namespace MiniPascal

open Node

/-! ### Fewer variables -/

/-- The part of a table under the given keys. -/
def SymbolTable.restrict (table : SymbolTable) (keys : List Text) : SymbolTable :=
  ⟨table.entries.filter (·.1 ∈ keys)⟩

theorem SymbolTable.get?_restrict {table : SymbolTable} {keys : List Text} {key : Text}
    (h : key ∈ keys) : (table.restrict keys).get? key = table.get? key := by
  have entries (l : List (Text × Yield)) : find? key (l.filter (·.1 ∈ keys)) = find? key l := by
    induction l with
    | nil => rfl
    | cons e l ih =>
      obtain ⟨k, y⟩ := e
      by_cases hk : k = key
      · subst hk
        simp [find?, h]
      · by_cases hmem : k ∈ keys <;> simp [find?, hk, hmem, ih]
  exact entries table.entries

/-! ### Names that occur -/

/-- The name is the one of a variable of the tree. -/
def Node.Occurs (tree : Node) (name : Text) : Prop :=
  ∃ v ∈ tree.preorder, v.kind = .var ∧ v.text = .text name

/-- What is bound to a key is a variable with a name of that key. -/
theorem Shaped.variable_of_slot {role : Role} {n : Node} {key : Text} (h : Shaped role n)
    (hs : n.slot = some key) :
    n.kind = .var ∧ ∃ name, n.text = .text name ∧ SymbolTable.key name = key := by
  induction h with
  | var _ name => exact ⟨rfl, name, rfl, Option.some.inj hs⟩
  | number _ ih | ofVariable _ ih | ofConstant _ ih | ofLeaf _ ih | assignment _ _ _ ih => exact ih hs
  | _ => cases hs

/-- **Every key to which a tree binds its variables comes from a name that occurs.** -/
theorem Shaped.exists_occurs {role : Role} {tree : Node} {key : Text} (h : Shaped role tree)
    (hkey : tree.Binds key) : ∃ name, tree.Occurs name ∧ SymbolTable.key name = key := by
  obtain ⟨n, hn, hs⟩ := hkey
  obtain ⟨role', hrole⟩ := h.exists_role hn
  obtain ⟨hk, name, htext, hname⟩ := hrole.variable_of_slot hs
  have hmem : n ∈ tree.preorder := (everywhere_iff.2 fun _ hm => hm).of_hasNode hn
  exact ⟨name, ⟨n, hmem, hk, htext⟩, hname⟩

/-! ### Machines that agree -/

/-- **The machines agree on the variables of some keys**, and they have the same output and log. -/
structure Machine.AgreeOn (keys : Text → Prop) (m m' : Machine) : Prop where
  get? : ∀ key, keys key → m.table.get? key = m'.table.get? key
  output : m.output = m'.output
  log : m.log = m'.log

namespace Machine.AgreeOn

variable {keys : Text → Prop} {m m' : Machine}

theorem write (h : m.AgreeOn keys m') (s : Text) :
    AgreeOn keys { m with output := m.output ++ s } { m' with output := m'.output ++ s } :=
  ⟨h.get?, by simp only [h.output], h.log⟩

theorem push (h : m.AgreeOn keys m') (entry : Log.Entry) :
    AgreeOn keys { m with log := m.log.push entry } { m' with log := m'.log.push entry } :=
  ⟨h.get?, h.output, by simp only [h.log]⟩

/-- A variable that is changed in both machines may be any one. -/
theorem store (h : m.AgreeOn keys m') (key : Text) (y : Yield) :
    AgreeOn keys { m with table := m.table.store key y } { m' with table := m'.table.store key y } := by
  refine ⟨fun other hother => ?_, h.output, h.log⟩
  simp only [SymbolTable.get?_store, h.get? other hother]

end Machine.AgreeOn

namespace Run

variable {α β : Type} {keys : Text → Prop}

/-- The same result, or the same stop, with machines that agree. -/
inductive ResultsAgree (keys : Text → Prop) :
    EStateM.Result Stop Machine α → EStateM.Result Stop Machine α → Prop
  | ok (a : α) {m m' : Machine} (h : m.AgreeOn keys m') : ResultsAgree keys (.ok a m) (.ok a m')
  | error (stop : Stop) {m m' : Machine} (h : m.AgreeOn keys m') :
      ResultsAgree keys (.error stop m) (.error stop m')

theorem ResultsAgree.bind {act : Run α} {next : α → Run β} {m m' : Machine}
    (h : ResultsAgree keys (act m) (act m'))
    (h' : ∀ a, act.MayGive a → ∀ m m', m.AgreeOn keys m' → ResultsAgree keys (next a m) (next a m')) :
    ResultsAgree keys ((act >>= next) m) ((act >>= next) m') := by
  generalize hr : act m = r, hr' : act m' = r' at h
  cases h with
  | ok a hm =>
    rw [bind_of_ok hr, bind_of_ok hr']
    exact h' a ⟨m, _, hr⟩ _ _ hm
  | error stop hm =>
    rw [bind_of_error hr, bind_of_error hr']
    exact .error stop hm

/-- What a variable holds is the same in machines that agree on it. -/
theorem resultsAgree_load {key : Text} {m m' : Machine} (h : m.AgreeOn keys m') (hkey : keys key) :
    ResultsAgree keys (load (some key) m) (load (some key) m') := by
  rw [load_apply, load_apply, Option.bind_some, Option.bind_some, h.get? key hkey]
  cases m'.table.get? key with
  | some y => exact .ok y h
  | none => exact .error _ h

end Run

/-- An action does the same on machines that agree, and they go on to agree. -/
def Discipline.agreement (tree : Node) (keys : Text → Prop) (h : ∀ key, tree.Binds key → keys key) :
    Discipline tree where
  Obeys act := ∀ m m', m.AgreeOn keys m' → Run.ResultsAgree keys (act m) (act m')
  pure a _ _ hm := .ok a hm
  throw stop _ _ hm := .error stop hm
  bind hact hnext m m' hm := (hact m m' hm).bind hnext
  write _ s _ _ hm := .ok () (hm.write s)
  trace _ level least message? m m' hm := by
    unfold Run.trace
    split
    · exact .ok () hm
    · cases message? () with
      | some message => exact .ok () (hm.push _)
      | none => exact .error _ hm
  load key hkey _ _ hm := Run.resultsAgree_load hm (h key hkey)
  store key y _ _ _ _ hm := .ok () (hm.store key y)

/-! ### Runs that agree -/

/-- **Two runs of a tree agree**: both diverge, or they end in the same way with the same output, and
the names that occur in the tree hold the same. -/
def RunsAgree (level : Int) (tree : Node) (table table' : SymbolTable) : Prop :=
  Diverges level tree table ∧ Diverges level tree table' ∨
    ∃ e e', Ends level tree table e ∧ Ends level tree table' e' ∧ e.stop = e'.stop ∧
      e.output = e'.output ∧ e.log = e'.log ∧
      ∀ name, tree.Occurs name → e.table.lookup name = e'.table.lookup name

variable {level : Int} {tree : Node} {table table' : SymbolTable}

/-- Runs agree that do with every amount of fuel. -/
theorem runsAgree_of_execute
    (h : ∀ fuel, (execute level fuel tree table).stop = (execute level fuel tree table').stop ∧
      (execute level fuel tree table).output = (execute level fuel tree table').output ∧
      (execute level fuel tree table).log = (execute level fuel tree table').log ∧
      ∀ name, tree.Occurs name → (execute level fuel tree table).table.lookup name =
        (execute level fuel tree table').table.lookup name) :
    RunsAgree level tree table table' := by
  rcases diverges_or_ends level tree table with hdiverges | ⟨e, hends⟩
  · exact .inl ⟨hdiverges, fun fuel => (h fuel).1.symm.trans (hdiverges fuel)⟩
  · obtain ⟨hstop, fuel, hfuel⟩ := hends
    have he := hfuel fuel (Nat.le_refl fuel)
    have hagree := h fuel
    rw [he] at hagree
    have hends' := ends_of_stop_ne (hagree.1 ▸ hstop)
    exact .inr ⟨e, _, ⟨hstop, fuel, hfuel⟩, hends', hagree⟩

theorem Shaped.runsAgree {role : Role} (h : Shaped role tree)
    (hagree : ∀ name, tree.Occurs name → table.lookup name = table'.lookup name) (level : Int) :
    RunsAgree level tree table table' := by
  let keys (key : Text) : Prop := ∃ name, tree.Occurs name ∧ SymbolTable.key name = key
  have hstart : Machine.AgreeOn keys ⟨table, #[], #[]⟩ ⟨table', #[], #[]⟩ := by
    refine ⟨?_, rfl, rfl⟩
    rintro _ ⟨name, hname, rfl⟩
    exact hagree name hname
  refine runsAgree_of_execute fun fuel => ?_
  have hobeys := (Discipline.agreement tree keys fun _ => h.exists_occurs).obeys_visit h level fuel .root
  have hvisit := hobeys _ _ hstart
  unfold execute
  generalize Run.visit level fuel tree ⟨table, #[], #[]⟩ = r,
    Run.visit level fuel tree ⟨table', #[], #[]⟩ = r' at hvisit
  cases hvisit with
  | ok _ hm | error _ hm =>
    exact ⟨rfl, congrArg Array.toList hm.output, hm.log, fun name hname => hm.get? _ ⟨name, hname, rfl⟩⟩

/-- **A run depends only on the variables that occur.** The tree of a text without errors is run on two
symbol tables that agree on all names that occur in it, at any level of detail of the trace. Then the
runs agree. In particular what other programs have left in the table does not matter: the run agrees
with that on the part of the table under any keys among which are those of the tree. -/
theorem runs_agree {source : Text} {declared : SymbolTable}
    (h : (parse source declared #[]).errorCount = .ok 0) :
    ∃ tree, (parse source declared #[]).tree = .ok tree ∧
      (∀ level table table', (∀ name, tree.Occurs name → table.lookup name = table'.lookup name) →
        RunsAgree level tree table table') ∧
      ∀ level table keys, (∀ name, tree.Occurs name → SymbolTable.key name ∈ keys) →
        RunsAgree level tree table (table.restrict keys) := by
  obtain ⟨tree, htree, hshaped, -⟩ := exists_tree_of_errorCount h
  refine ⟨tree, htree, fun level table table' hagree => hshaped.runsAgree hagree level,
    fun level table keys hkeys => hshaped.runsAgree (fun name hname => ?_) level⟩
  exact (SymbolTable.get?_restrict (hkeys name hname)).symm

/-- A program that counts on from what a variable holds, in a table with a variable of another program
and without it. -/
theorem runs_agree_counting :
    let p := parse "PROGRAM a; BEGIN WHILE X < 2 DO BEGIN writeln(x); x := x + 1 END END."
      ⟨[("x", .nothing)]⟩ #[]
    let table : SymbolTable := ⟨[("other", .value (.integer 7)), ("x", .value (.integer 0))]⟩
    p.errorCount = .ok 0 ∧ ∃ tree e e', p.tree = .ok tree ∧ Ends 0 tree table e ∧
      Ends 0 tree ⟨[("x", .value (.integer 0))]⟩ e' ∧ e.output = "0\n1\n" ∧ e'.output = "0\n1\n" := by
  intro p table
  have hp : p.errorCount.toOption = some 0 ∧ (p.tree.toOption.map fun t =>
      ((execute 0 20 t table).stop, (execute 0 20 t table).output)) = some (none, Text.ofString "0\n1\n") ∧
      (p.tree.toOption.all fun t => t.preorder.all fun v =>
        v.kind ≠ .var || v.text.display?.map SymbolTable.key = some (Text.ofString "x")) = true := by
    decide +kernel
  obtain ⟨hcount, hrun, hnames⟩ := hp
  have hcount : p.errorCount = .ok 0 := eq_ok_of_toOption hcount
  obtain ⟨tree, htree, -, hagree⟩ := runs_agree hcount
  have htree : p.tree = .ok tree := htree
  rw [htree] at hrun hnames
  obtain ⟨hstop, houtput⟩ := Prod.mk.inj (Option.some.inj hrun)
  have hkeys (name : Text) (hname : tree.Occurs name) : SymbolTable.key name ∈ (["x"] : List Text) := by
    obtain ⟨v, hv, hk, htext⟩ := hname
    simpa [hk, htext, Datum.display?] using List.all_eq_true.1 hnames v hv
  have hends : Ends 0 tree table (execute 0 20 tree table) := ends_of_stop_ne (by simp [hstop])
  refine ⟨hcount, tree, ?_⟩
  rcases hagree 0 table ["x"] hkeys with ⟨hdiverges, -⟩ | ⟨e, e', he, he', -, hsame, -⟩
  · cases hstop.symm.trans (hdiverges 20)
  · obtain rfl := he.unique hends
    exact ⟨_, e', htree, he, he', houtput, hsame ▸ houtput⟩

end MiniPascal

import MiniPascal.Proofs.Node.Reload

/-!
# What loading does with a document

A document is loaded in one pass over the **values that are reached** from it: itself, and whatever
its children are made of, in pre-order. Of each object the fields are looked at in a fixed order. Its
name is entered when all fields are found valid but the children, and then the children are gone through.
So loading stops at the first value that is not valid by itself, with the fault of that value, and the
table has the names of the objects up to there.

Children need not be a list. A text and a record can be gone through, too; what they hold are texts, and
these are no objects. So only an empty one is of any use.

* `MiniPascal.Datum.LocallyValid`, `MiniPascal.Datum.reached`: valid values, and the values that are
  reached from a document.
* `MiniPascal.Node.Walks`: what a pass over some values comes to.
* `MiniPascal.Node.walks_ofDatum`: loading is such a pass.
* `MiniPascal.Node.loading_stops_at_first_invalid`: when loading succeeds, how it fails, and the table
  behind it.
-/

namespace MiniPascal

open Node

namespace Datum

/-! ### Values that are valid by themselves -/

/-- What a value gives one after the other when it is gone through: a list its elements, a text its
characters and a record its keys. Nothing else can be gone through. -/
def elements? : Datum → Option (List Datum)
  | list items => some items
  | text s => some (s.map fun c => text [c])
  | record fields => some (fields.map fun field => text field.1)
  | _ => none

/-- Whether the datum is a text. -/
def isText : Datum → Bool
  | text _ => true
  | _ => false

/-- The kind of node that a record names, if it names one. -/
def namedKind? (fields : List (Text × Datum)) : Option Kind :=
  match fieldD fields "type" with
  | text s => Kind.ofName? s
  | _ => none

/-- A name that a node of the kind may have: a variable needs one, a program may do without. -/
def NameValid (kind : Kind) (name : Datum) : Prop :=
  (kind = .var → name.isText = true) ∧
    (kind = .program → name.isNull = false → name.isText = true)

instance (kind : Kind) (name : Datum) : Decidable (NameValid kind name) :=
  inferInstanceAs (Decidable (_ ∧ _))

/-- **All fields of a record but its children are those of a node.** -/
structure HeadValid (fields : List (Text × Datum)) : Prop where
  kind : (namedKind? fields).isSome = true
  line : ∀ d ∈ find? "line" fields, d.toInteger.isOk = true
  value : namedKind? fields = some .realConstant → (fieldD fields "value").isNull = false →
    (fieldD fields "value").toReal.isOk = true
  name : ∀ kind ∈ namedKind? fields, NameValid kind (fieldD fields "text")

instance (fields : List (Text × Datum)) : Decidable (HeadValid fields) :=
  decidable_of_iff (_ ∧ _ ∧ _ ∧ _)
    ⟨fun ⟨kind, line, value, name⟩ => ⟨kind, line, value, name⟩,
      fun ⟨kind, line, value, name⟩ => ⟨kind, line, value, name⟩⟩

/-- **The value is valid by itself**: a record with the fields of a node, whose children, if it has
any, can be gone through. What these are does not count. -/
def LocallyValid : Datum → Prop
  | record fields =>
    HeadValid fields ∧ ∀ d ∈ find? "children" fields, d.elements?.isSome = true
  | _ => False

instance (d : Datum) : Decidable d.LocallyValid := by
  cases d <;> unfold LocallyValid <;> infer_instance

/-- The name that a node of the kind enters: a variable and a program have one. -/
def nameOf? : Kind → Datum → Option Text
  | .var, text name | .program, text name => some name
  | _, _ => none

/-- The name that an object enters, if nothing but its children is at fault. -/
def enteredName? : Datum → Option Text
  | record fields =>
    if HeadValid fields then (namedKind? fields).bind (nameOf? · (fieldD fields "text")) else none
  | _ => none

/-! ### The values that are reached -/

mutual

/-- **The values that are reached** from a document through children, in pre-order. -/
def reached : Datum → List Datum
  | record fields => record fields :: reachedBelow fields
  | d => [d]

/-- The values that are reached through the children of a record. -/
def reachedBelow : List (Text × Datum) → List Datum
  | [] => []
  | (k, d) :: fields => if k = "children" then reachedFrom d else reachedBelow fields

/-- The values that are reached from the elements of a value. -/
def reachedFrom : Datum → List Datum
  | list items => reachedAll items
  | text s => s.map fun c => text [c]
  | record fields => fields.map fun field => text field.1
  | _ => []

/-- The values that are reached from some documents. -/
def reachedAll : List Datum → List Datum
  | [] => []
  | d :: ds => reached d ++ reachedAll ds

end

/-- What the children of a value give when they are gone through. -/
def members : Datum → List Datum
  | record fields => ((find? "children" fields).bind elements?).getD []
  | _ => []

theorem reachedBelow_eq (fields : List (Text × Datum)) :
    reachedBelow fields = ((find? "children" fields).map reachedFrom).getD [] := by
  induction fields with
  | nil => rfl
  | cons field fields ih =>
    obtain ⟨k, d⟩ := field
    rw [reachedBelow, find?, ih]
    by_cases h : k = Text.ofString "children" <;> simp [h]

theorem reachedAll_eq_flatMap (ds : List Datum) : reachedAll ds = ds.flatMap reached := by
  induction ds with
  | nil => rfl
  | cons d ds ih => rw [reachedAll, ih, List.flatMap_cons]

theorem reachedFrom_eq (d : Datum) : reachedFrom d = (d.elements?.getD []).flatMap reached := by
  cases d with
  | list items => rw [reachedFrom, reachedAll_eq_flatMap]; rfl
  | text s => simp [reachedFrom, elements?, List.flatMap_map, reached, ← List.map_eq_flatMap]
  | record fields =>
    simp [reachedFrom, elements?, List.flatMap_map, reached, ← List.map_eq_flatMap]
  | _ => rfl

/-- From a value there are reached the value, and what is reached from its children. -/
theorem reached_eq (d : Datum) : d.reached = d :: d.members.flatMap reached := by
  cases d with
  | record fields =>
    rw [reached, reachedBelow_eq, members]
    cases find? "children" fields with
    | none => rfl
    | some d => rw [Option.map_some, Option.getD_some, reachedFrom_eq, Option.bind_some]
  | _ => rfl

end Datum

open Datum

namespace Node

/-! ### Loading the head of a node -/

section Head

variable {fields : List (Text × Datum)}

theorem ofExcept_error_bind {α β : Type} (fault : LoadFault) (f : α → Loader β)
    (table : SymbolTable) :
    (ofExcept (.error fault : Except LoadFault α) >>= f) table = .error fault table := rfl

/-- The kind of a record is the one that it names, if there is such a kind. -/
theorem loadKind_cases (fields : List (Text × Datum)) :
    (∃ kind, namedKind? fields = some kind ∧ Kind.ofName? kind.name = some kind ∧
      loadKind fields = .ok kind) ∨
      namedKind? fields = none ∧ ∃ fault, loadKind fields = .error fault := by
  unfold namedKind? loadKind
  cases hd : fieldD fields "type" with
  | text s =>
    cases hs : Kind.ofName? s with
    | some kind =>
      have hname : kind.name = s := by simpa using List.find?_some hs
      exact .inl ⟨kind, hs, by rw [hname, hs], by simp [hs]⟩
    | none => exact .inr ⟨hs, .unknownKind s, by simp [hs, display?]⟩
  | list items => exact .inr ⟨rfl, _, rfl⟩
  | record fields => exact .inr ⟨rfl, _, rfl⟩
  | _ =>
    refine .inr ⟨rfl, ?_⟩
    dsimp only
    split
    · simp_all
    · exact ⟨_, rfl⟩
    · exact ⟨_, rfl⟩

theorem isOk_mapError {ε ε' α : Type} (f : ε → ε') (x : Except ε α) :
    (x.mapError f).isOk = x.isOk := by
  cases x <;> rfl

theorem isOk_map {ε α β : Type} (f : α → β) (x : Except ε α) : (x.map f).isOk = x.isOk := by
  cases x <;> rfl

theorem exists_of_isOk {ε α : Type} {x : Except ε α} (h : x.isOk = true) : ∃ a, x = .ok a := by
  cases x with
  | ok a => exact ⟨a, rfl⟩
  | error => cases h

theorem exists_of_not_isOk {ε α : Type} {x : Except ε α} (h : ¬x.isOk = true) :
    ∃ e, x = .error e := by
  cases x with
  | ok => exact absurd rfl h
  | error e => exact ⟨e, rfl⟩

theorem isOk_loadLine (fields : List (Text × Datum)) :
    (loadLine fields).isOk = true ↔ ∀ d ∈ find? "line" fields, d.toInteger.isOk = true := by
  unfold loadLine
  cases find? "line" fields with
  | none => simp [Except.isOk, Except.toBool]
  | some d => simp [isOk_mapError]

theorem isOk_loadValue (kind : Kind) (fields : List (Text × Datum)) :
    (loadValue kind fields).isOk = true ↔
      (kind = .realConstant → (fieldD fields "value").isNull = false →
        (fieldD fields "value").toReal.isOk = true) := by
  unfold loadValue
  dsimp only
  split
  · simp_all [isOk_mapError, isOk_map]
  · simp_all [Except.isOk, Except.toBool]

/-- The value that is loaded for a real constant is a real, if it is there. -/
theorem real_of_loadValue {kind : Kind} {value : Datum} (h : loadValue kind fields = .ok value)
    (hk : kind = .realConstant) : value = .null ∨ ∃ x, value = .real x := by
  subst hk
  unfold loadValue at h
  dsimp only at h
  split at h
  · cases hx : (fieldD fields "value").toReal with
    | ok x =>
      rw [hx] at h
      cases h
      exact .inr ⟨x, rfl⟩
    | error fault =>
      rw [hx] at h
      cases h
  · cases h
    cases hv : fieldD fields "value" <;> simp_all [isNull]

/-- A valid name is entered, and a variable is bound to its key. -/
theorem loadSlot_of_nameValid {n : Node} (h : NameValid n.kind n.text) (table : SymbolTable) :
    loadSlot n.kind n.text table =
      .ok n.boundSlot (table.enterNames (nameOf? n.kind n.text).toList) := by
  obtain ⟨hvar, hprogram⟩ := h
  obtain ⟨kind, line, name, value, slot, descending, children⟩ := n
  cases kind with
  | var =>
    cases name with
    | text s => rfl
    | _ => cases hvar rfl
  | program =>
    cases name with
    | text s => rfl
    | null => rfl
    | _ => cases hprogram rfl rfl
  | _ => rfl

theorem loadSlot_of_not_nameValid {kind : Kind} {name : Datum} (h : ¬NameValid kind name) :
    ∃ fault, ∀ table, loadSlot kind name table = .error fault table := by
  cases kind with
  | var =>
    cases name with
    | text s => exact absurd ⟨fun _ => rfl, nofun⟩ h
    | _ => exact ⟨_, fun _ => rfl⟩
  | program =>
    cases name with
    | text s => exact absurd ⟨nofun, fun _ _ => rfl⟩ h
    | null => exact absurd ⟨nofun, nofun⟩ h
    | _ => exact ⟨_, fun _ => rfl⟩
  | _ => exact absurd ⟨nofun, nofun⟩ h

end Head

/-! ### Loaded nodes -/

/-- **What a node is that was loaded**, whatever its children are. -/
structure IsLoaded (n : Node) : Prop where
  kind : Kind.ofName? n.kind.name = some n.kind
  value : n.kind = .realConstant → n.value = .null ∨ ∃ x, n.value = .real x
  name : NameValid n.kind n.text
  slot : n.slot = n.boundSlot

section Head

variable {fields : List (Text × Datum)}

/-- **A record with a valid head makes a node** of its children, behind the name that it enters. -/
theorem loadNode_of_headValid (h : HeadValid fields) :
    ∃ make : List Node → Node, (∀ ns, (make ns).IsLoaded ∧ (make ns).children = ns) ∧
      ∀ children table, loadNode fields children table =
        (match childrenFault? (find? "children" fields) with
          | some fault => throw fault
          | none => make <$> children : Loader Node)
        (table.enterNames (enteredName? (.record fields)).toList) := by
  rcases loadKind_cases fields with ⟨kind, hnamed, hkind, hload⟩ | ⟨hnone, -⟩
  · obtain ⟨line, hline⟩ := exists_of_isOk ((isOk_loadLine fields).2 h.line)
    obtain ⟨value, hvalue⟩ := exists_of_isOk
      ((isOk_loadValue kind fields).2 fun hk => h.value (hk ▸ hnamed))
    have hname := h.name kind hnamed
    let make (ns : List Node) : Node :=
      { kind, line, text := fieldD fields "text", value
        slot := boundSlot { kind, line, text := fieldD fields "text" }
        descending := (fieldD fields "descending").isTruthy, children := ns }
    refine ⟨make, fun ns => ⟨⟨hkind, real_of_loadValue hvalue, hname, rfl⟩, rfl⟩,
      fun children table => ?_⟩
    have hslot := loadSlot_of_nameValid (n := make []) hname table
    have hentered : enteredName? (.record fields) = nameOf? kind (fieldD fields "text") := by
      rw [enteredName?, if_pos h, hnamed, Option.bind_some]
    rw [loadNode, hload, ofExcept_bind, hline, ofExcept_bind, hvalue, ofExcept_bind, hentered]
    refine (loader_bind hslot).trans ?_
    cases childrenFault? (find? "children" fields) <;> rfl
  · have := h.kind
    rw [hnone] at this
    cases this

/-- A record without a valid head is not loaded, and enters nothing. -/
theorem loadNode_of_not_headValid (h : ¬HeadValid fields) :
    ∃ fault, ∀ children table, loadNode fields children table = .error fault table := by
  rcases loadKind_cases fields with ⟨kind, hnamed, -, hload⟩ | ⟨-, fault, hload⟩
  · by_cases hline : (loadLine fields).isOk = true
    · obtain ⟨line, hline'⟩ := exists_of_isOk hline
      by_cases hvalue : (loadValue kind fields).isOk = true
      · obtain ⟨value, hvalue'⟩ := exists_of_isOk hvalue
        have hname : ¬NameValid kind (fieldD fields "text") := fun hname =>
          h ⟨by rw [hnamed]; rfl, (isOk_loadLine fields).1 hline,
            fun hk => (isOk_loadValue kind fields).1 hvalue (Option.some.inj (hnamed.symm.trans hk)),
            fun kind' hk => by
              rw [hnamed] at hk
              exact Option.some.inj hk ▸ hname⟩
        obtain ⟨fault, hslot⟩ := loadSlot_of_not_nameValid hname
        refine ⟨fault, fun children table => ?_⟩
        rw [loadNode, hload, ofExcept_bind, hline', ofExcept_bind, hvalue', ofExcept_bind]
        simp only [bind, EStateM.bind, hslot]
      · obtain ⟨fault, hvalue'⟩ := exists_of_not_isOk hvalue
        refine ⟨fault, fun children table => ?_⟩
        rw [loadNode, hload, ofExcept_bind, hline', ofExcept_bind, hvalue', ofExcept_error_bind]
    · obtain ⟨fault, hline'⟩ := exists_of_not_isOk hline
      refine ⟨fault, fun children table => ?_⟩
      rw [loadNode, hload, ofExcept_bind, hline', ofExcept_error_bind]
  · refine ⟨fault, fun children table => ?_⟩
    rw [loadNode, hload, ofExcept_error_bind]

end Head

/-! ### A pass over some values -/

/-- **Loading the value fails** with the fault, whatever the table is. -/
def Fails (d : Datum) (fault : LoadFault) : Prop :=
  ∀ table, ∃ table', ofDatum d table = .error fault table'

/-- **What a pass over some values comes to** that starts with the table. If all of them are valid, it
gives something, and all names are entered. Otherwise it fails as the first one does that is not, and
the names up to that one are entered. -/
inductive Walks {α : Type} (p : α → Prop) (values : List Datum) (table : SymbolTable) :
    EStateM.Result LoadFault SymbolTable α → Prop
  | ok {a : α} : p a → (∀ v ∈ values, v.LocallyValid) →
    Walks p values table (.ok a (table.enterNames (values.filterMap enteredName?)))
  | error (before : List Datum) (bad : Datum) (after : List Datum) {fault : LoadFault} :
    values = before ++ bad :: after → (∀ v ∈ before, v.LocallyValid) → ¬bad.LocallyValid →
    Fails bad fault →
    Walks p values table
      (.error fault (table.enterNames ((before ++ [bad]).filterMap enteredName?)))

section Walks

variable {α β : Type} {p : α → Prop} {q : β → Prop} {values values' : List Datum}
  {table : SymbolTable}

theorem walks_nil {a : α} (h : p a) : Walks p [] table (.ok a table) := .ok h nofun

/-- A pass goes on behind some values that are valid. -/
theorem Walks.append {r : EStateM.Result LoadFault SymbolTable α}
    (h : ∀ v ∈ values, v.LocallyValid)
    (hr : Walks p values' (table.enterNames (values.filterMap enteredName?)) r) :
    Walks p (values ++ values') table r := by
  cases hr with
  | ok ha h' =>
    rw [← SymbolTable.enterNames_append, ← List.filterMap_append]
    exact .ok ha (List.forall_mem_append.2 ⟨h, h'⟩)
  | error before bad after hsplit hbefore hbad hfails =>
    rw [← SymbolTable.enterNames_append, ← List.filterMap_append, ← List.append_assoc]
    refine .error (values ++ before) bad after ?_ (List.forall_mem_append.2 ⟨h, hbefore⟩) hbad hfails
    rw [hsplit, List.append_assoc]

theorem toList_enteredName? (d : Datum) :
    d.enteredName?.toList = [d].filterMap enteredName? := by
  rw [List.filterMap_cons, List.filterMap_nil]
  cases d.enteredName? <;> rfl

theorem Walks.cons {r : EStateM.Result LoadFault SymbolTable α} {d : Datum} (h : d.LocallyValid)
    (hr : Walks p values (table.enterNames d.enteredName?.toList) r) :
    Walks p (d :: values) table r := by
  rw [toList_enteredName?] at hr
  exact .append (List.forall_mem_singleton.2 h) hr

/-- A pass ends at a value that is not valid. -/
theorem Walks.stop {d : Datum} {fault : LoadFault} (h : ¬d.LocallyValid) (hfails : Fails d fault) :
    Walks p (d :: values) table (.error fault (table.enterNames d.enteredName?.toList)) := by
  rw [toList_enteredName?]
  exact .error [] d values rfl nofun h hfails

/-- A pass over more values goes no further than the first one if that fails. -/
theorem Walks.bind {act : Loader α} {next : α → Loader β} (h : Walks p values table (act table))
    (hnext : ∀ a, p a → ∀ table', Walks q values' table' (next a table')) :
    Walks q (values ++ values') table ((act >>= next) table) := by
  generalize hr : act table = r at h
  cases h with
  | ok ha hvalid =>
    rw [loader_bind hr]
    exact .append hvalid (hnext _ ha _)
  | @error before bad after fault hsplit hbefore hbad hfails =>
    have herror : (act >>= next) table =
        .error fault (table.enterNames ((before ++ [bad]).filterMap enteredName?)) := by
      simp only [Bind.bind, EStateM.bind, hr]
    rw [herror]
    exact .error before bad (after ++ values') (by simp [hsplit]) hbefore hbad hfails

theorem Walks.map {act : Loader α} {f : α → β} (h : Walks p values table (act table))
    (hf : ∀ a, p a → q (f a)) : Walks q values table ((f <$> act) table) := by
  have hbind : Walks q (values ++ []) table ((act >>= fun a => pure (f a)) table) :=
    h.bind fun a ha _ => walks_nil (hf a ha)
  rwa [List.append_nil] at hbind

end Walks

/-! ### Loading is a pass -/

theorem fails_text (s : Text) : Fails (.text s) .notRecord := fun table => ⟨table, rfl⟩

/-- Children that are given by something other than a list are valid only if there are none of them. -/
theorem walks_of_childrenFault? {α : Type} {p : α → Prop} {d : Datum} {fault : LoadFault}
    (h : childrenFault? (some d) = some fault) (hd : d.elements?.isSome = true)
    (table : SymbolTable) : Walks p (reachedFrom d) table (.error fault table) := by
  have first (s : Text) (after : List Datum) :
      Walks p (.text s :: after) table (.error .notRecord table) :=
    .error [] (.text s) after rfl nofun (fun h => h) (fails_text s)
  cases d with
  | text s =>
    cases s with
    | nil => cases h
    | cons c s =>
      cases h
      exact first [c] _
  | record fields =>
    cases fields with
    | nil => cases h
    | cons field fields =>
      cases h
      exact first field.1 _
  | list => cases h
  | _ => cases hd

/-- Loading a record is a pass, if loading its children is one. -/
theorem walks_record {fields : List (Text × Datum)}
    (h : childrenFault? (find? "children" fields) = none → ∀ table,
      Walks (∀ n ∈ ·, n.Everywhere IsLoaded) (reachedBelow fields) table
        (ofChildren fields table)) (table : SymbolTable) :
    Walks (Everywhere IsLoaded) (reached (.record fields)) table
      (ofDatum (.record fields) table) := by
  rw [reached, ofDatum]
  by_cases hhead : HeadValid fields
  · obtain ⟨make, hmake, hload⟩ := loadNode_of_headValid hhead
    have hnode (ns : List Node) (hns : ∀ n ∈ ns, n.Everywhere IsLoaded) :
        (make ns).Everywhere IsLoaded := .intro (hmake ns).1 (by rwa [(hmake ns).2])
    rw [hload]
    cases hd : find? "children" fields with
    | none =>
      rw [hd] at h
      refine .cons ⟨hhead, fun d' hd' => ?_⟩ ((h rfl _).map hnode)
      cases hd.symm.trans hd'
    | some d =>
      rw [hd] at h
      by_cases helements : d.elements?.isSome = true
      · refine .cons ⟨hhead, fun d' hd' => ?_⟩ ?_
        · exact Option.some.inj (hd.symm.trans hd') ▸ helements
        cases hfault : childrenFault? (some d) with
        | none => exact (h hfault _).map hnode
        | some fault =>
          -- the children can be gone through, and the first of them is no object
          rw [reachedBelow_eq, hd]
          exact walks_of_childrenFault? hfault helements _
      · obtain ⟨fault, hfault⟩ : ∃ fault, childrenFault? (some d) = some fault := by
          cases d <;> first | exact ⟨_, rfl⟩ | exact absurd rfl helements
        rw [hfault]
        refine .stop (fun hlocal => helements (hlocal.2 d hd)) fun table' => ?_
        rw [ofDatum, hload, hd, hfault]
        exact ⟨_, rfl⟩
  · obtain ⟨fault, hload⟩ := loadNode_of_not_headValid hhead
    have hstop : Walks (Everywhere IsLoaded) (.record fields :: reachedBelow fields) table
        (.error fault (table.enterNames (enteredName? (.record fields)).toList)) :=
      .stop (fun hlocal => hhead hlocal.1) fun table' => ⟨table', by rw [ofDatum, hload]⟩
    rw [hload]
    rwa [enteredName?, if_neg hhead] at hstop

mutual

/-- **Loading is a pass over the values that are reached.** -/
theorem walks_ofDatum : (d : Datum) → (table : SymbolTable) →
    Walks (Everywhere IsLoaded) d.reached table (ofDatum d table)
  | .record fields, table => walks_record (walks_ofChildren fields) table
  | .null, _ | .bool _, _ | .int _, _ | .real _, _ | .text _, _ | .list _, _ =>
    .error [] _ [] rfl (List.forall_mem_nil _) id fun table' => ⟨table', rfl⟩

theorem walks_ofChildren : (fields : List (Text × Datum)) →
    childrenFault? (find? "children" fields) = none → (table : SymbolTable) →
    Walks (∀ n ∈ ·, n.Everywhere IsLoaded) (reachedBelow fields) table (ofChildren fields table)
  | [], _, table => walks_nil (List.forall_mem_nil _)
  | (k, d) :: fields, h, table => by
    rw [find?] at h
    rw [reachedBelow, ofChildren]
    by_cases hk : k = Text.ofString "children"
    · rw [if_pos hk] at h ⊢
      rw [if_pos hk]
      exact walks_ofItems d h table
    · rw [if_neg hk] at h ⊢
      rw [if_neg hk]
      exact walks_ofChildren fields h table

theorem walks_ofItems : (d : Datum) → childrenFault? (some d) = none → (table : SymbolTable) →
    Walks (∀ n ∈ ·, n.Everywhere IsLoaded) (reachedFrom d) table (ofItems d table)
  | .list items, _, table => by
    rw [reachedFrom, ofItems]
    exact walks_ofData items table
  | .text [], _, table | .record [], _, table => walks_nil (List.forall_mem_nil _)

theorem walks_ofData : (ds : List Datum) → (table : SymbolTable) →
    Walks (∀ n ∈ ·, n.Everywhere IsLoaded) (reachedAll ds) table (ofData ds table)
  | [], table => walks_nil (List.forall_mem_nil _)
  | d :: ds, table => by
    rw [reachedAll, ofData]
    refine (walks_ofDatum d table).bind fun n hn table' => ?_
    exact (walks_ofData ds table').map fun ns hns => List.forall_mem_cons.2 ⟨hn, hns⟩

end

/-- The first value that is not valid, and what is in front of it, can be told from all values. -/
theorem eq_of_first_invalid {before before' after after' : List Datum} {bad bad' : Datum}
    (h : before ++ bad :: after = before' ++ bad' :: after') (hbefore : ∀ v ∈ before, v.LocallyValid)
    (hbefore' : ∀ v ∈ before', v.LocallyValid) (hbad : ¬bad.LocallyValid)
    (hbad' : ¬bad'.LocallyValid) : before = before' ∧ bad = bad' := by
  have run {vs : List Datum} {v : Datum} (ws : List Datum) (hvs : ∀ v ∈ vs, v.LocallyValid)
      (hv : ¬v.LocallyValid) : (vs ++ v :: ws).takeWhile (fun v => v.LocallyValid) = vs := by
    rw [List.takeWhile_append_of_pos (by simpa using hvs),
      List.takeWhile_cons_of_neg (by simpa using hv), List.append_nil]
  have hsame : before = before' := by
    rw [← run after hbefore hbad, h, run after' hbefore' hbad']
  subst hsame
  exact ⟨rfl, (List.cons.inj (List.append_cancel_left h)).1⟩

/-- **Loading stops at the first value that is not valid by itself.** It succeeds exactly if all values
that are reached are valid, and otherwise fails as the first one does that is not. In both cases the old
entries of the table are as before, and behind them there is one for every new name of the objects up to
there: of an object that is at fault only if nothing but its children is. -/
theorem loading_stops_at_first_invalid (d : Datum) (table : SymbolTable) :
    ((∃ tree table', ofDatum d table = .ok tree table') ↔ ∀ v ∈ d.reached, v.LocallyValid) ∧
    (∀ tree table', ofDatum d table = .ok tree table' →
      table'.entries = table.entries ++ table.newEntries (d.reached.filterMap enteredName?)) ∧
    ∀ before bad after, d.reached = before ++ bad :: after → (∀ v ∈ before, v.LocallyValid) →
      ¬bad.LocallyValid → ∃ fault table', ofDatum d table = .error fault table' ∧ Fails bad fault ∧
        table'.entries =
          table.entries ++ table.newEntries ((before ++ [bad]).filterMap enteredName?) := by
  have hwalks := walks_ofDatum d table
  generalize hr : ofDatum d table = r at hwalks
  cases hwalks with
  | @ok tree _ hvalid =>
    refine ⟨⟨fun _ => hvalid, fun _ => ⟨_, _, rfl⟩⟩, ?_, ?_⟩
    · rintro _ _ ⟨⟩
      exact SymbolTable.entries_enterNames _ _
    · intro before bad after hsplit _ hbad
      exact absurd (hvalid bad (by simp [hsplit])) hbad
  | @error before bad after fault hsplit hbefore hbad hfails =>
    refine ⟨⟨nofun, fun hvalid => absurd (hvalid bad (by simp [hsplit])) hbad⟩, nofun, ?_⟩
    intro before' bad' after' hsplit' hbefore' hbad'
    obtain ⟨rfl, rfl⟩ :=
      eq_of_first_invalid (hsplit.symm.trans hsplit') hbefore hbefore' hbad hbad'
    exact ⟨fault, _, rfl, hfails, SymbolTable.entries_enterNames _ _⟩

/-- Of three children the second one has a number where its own children should be. Its name is entered
behind that of the first one, and the third one, which has no name, is not looked at. -/
theorem loading_stops_at_children :
    let named (name : String) (children : Datum) : Datum :=
      .record [field "type" (.text "VARIABLE"), field "text" (.text name), field "children" children]
    let children := [named "A" (.text []), named "B" (.int 1), .record [field "type" (.text "VARIABLE")]]
    ∃ table', ofDatum (.record [field "type" (.text "COMPOUND"), field "children" (.list children)])
        .empty = .error (.childrenNotSequence "int") table' ∧
      table'.entries = [(Text.ofString "a", .nothing), (Text.ofString "b", .nothing)] := by
  intro named children
  let d : Datum := .record [field "type" (.text "COMPOUND"), field "children" (.list children)]
  have hbefore : ∀ v ∈ [d, named "A" (.text [])], v.LocallyValid := by decide +kernel
  have hbad : ¬(named "B" (.int 1)).LocallyValid := by decide +kernel
  obtain ⟨fault, table', hload, hfails, hentries⟩ :=
    (loading_stops_at_first_invalid d .empty).2.2 _ _ _ rfl hbefore hbad
  -- the fault is that of the second child when it is loaded on its own
  obtain ⟨table₁, hfault⟩ := hfails .empty
  obtain rfl : .childrenNotSequence "int" = fault := by
    cases hfault
    rfl
  have hnames : ([d, named "A" (.text [])] ++ [named "B" (.int 1)]).filterMap enteredName? =
      [Text.ofString "A", Text.ofString "B"] := by decide +kernel
  have hkeys : [Text.ofString "A", Text.ofString "B"].map SymbolTable.key =
      [Text.ofString "a", Text.ofString "b"] := by decide +kernel
  refine ⟨table', hload, hentries.trans ?_⟩
  rw [hnames, SymbolTable.newEntries, hkeys]
  rfl

end Node

end MiniPascal

import MiniPascal.Proofs.Grammar.Builders
import MiniPascal.Proofs.Node.Binding

/-!
# Reading with more names declared

A text is read twice, and the second time more names are declared from the start. At every point the
second cursor then stands **beside** the first one: at the same token, with all names that are there
the first time. A variable that is unbound the first time may be bound the second time, and is not
complained about then. So on the way between two points the second reading **echoes** the first: it
makes the same reports but for errors of meaning, and the very same ones if there are none of those.

Not every reader echoes itself, because some of them count the reports of a part to find out whether
anything is wrong with it. So a reader need echo itself only where its tree has no unbound variable
that matters (`MiniPascal.Node.Undisturbed`). A tree tells of its parts, but a reader has its parts
before it has its tree. Therefore what a tree says of the parts that were read already is carried
along.

* `MiniPascal.Cursor.Beside`: a cursor at the same token with more names.
* `MiniPascal.Cursor.Echo`: the reports on two ways that start side by side and end so.
* `MiniPascal.Reading.Echoes`: a reader does with more names what another does with fewer.
* `MiniPascal.Reading.Echoes.bind`: this is kept by sequencing.
-/

namespace MiniPascal

/-! ### Reports -/

/-- Whether a report stays the same with more names: errors of meaning need not, and neither need
complaints about a missing semicolon, unless strictly asked for. -/
def Report.lasting (strict : Bool) (r : Report) : Bool :=
  r.kind ≠ .semantic && (strict || r.message ≠ Complaint.missingSemicolon.message)

namespace Cursor

/-- No error of meaning is reported between two cursors. -/
def NoSemantic (c d : Cursor) : Prop :=
  d.reports.toList.filter (·.kind = .semantic) = c.reports.toList.filter (·.kind = .semantic)

/-- **A cursor beside another** is at the same place and has all its names. -/
structure Beside (c c' : Cursor) : Prop where
  current : c'.current = c.current
  rest : c'.rest = c.rest
  lastLine : c'.lastLine = c.lastLine
  contains : ∀ {name}, c.table.contains name = true → c'.table.contains name = true
  numeric : c.Numeric

/-- **The way from `c'` to `d'` echoes that from `c` to `d`**: it ends beside it, and the reports on
it are the same but for those that need not last. If `m` holds, they are the very same. -/
structure Echo (strict : Bool) (m : Prop) (c c' d d' : Cursor) : Prop where
  beside : d.Beside d'
  reports : ∃ added added', d.reports.toList = c.reports.toList ++ added ∧
    d'.reports.toList = c'.reports.toList ++ added' ∧
    added'.filter (·.lasting strict) = added.filter (·.lasting strict) ∧ (m → added' = added)

variable {strict : Bool} {m m' : Prop} {c c' d d' e e' : Cursor} {added added' : List Report}

theorem noSemantic_iff (h : d.reports.toList = c.reports.toList ++ added) :
    c.NoSemantic d ↔ added.filter (·.kind = .semantic) = [] := by
  rw [NoSemantic, h, List.filter_append, List.append_right_eq_self]

theorem NoSemantic.trans (h : c.NoSemantic d) (h' : d.NoSemantic e) : c.NoSemantic e :=
  Eq.trans h' h

theorem noSemantic_of_size_eq (hf : Follows c d) (h : d.reports.size = c.reports.size) :
    c.NoSemantic d := by
  obtain ⟨added, hadded⟩ := hf.reports
  have hnil : added = [] := by
    simpa [← Array.length_toList, hadded] using h
  rw [noSemantic_iff hadded, hnil]
  rfl

theorem Meets.noSemantic {os : List Occurrence} (h : Meets c os d)
    (hos : os.filterMap Occurrence.unbound? = []) : c.NoSemantic d := by
  obtain ⟨added, hadded, hmap⟩ := h.reports
  rw [noSemantic_iff hadded]
  exact List.map_eq_nil_iff.1 (hmap.trans hos)

/-! ### Ways that are echoed -/

theorem echo_refl (h : c.Beside c') : Echo strict m c c' c c' :=
  ⟨h, [], [], by simp, by simp, rfl, fun _ => rfl⟩

/-- The same is reported on both ways. -/
theorem echo_of_added (added : List Report) (hd : d.Beside d')
    (h : d.reports.toList = c.reports.toList ++ added)
    (h' : d'.reports.toList = c'.reports.toList ++ added) : Echo strict m c c' d d' :=
  ⟨hd, added, added, h, h', rfl, fun _ => rfl⟩

theorem Echo.imp (h : Echo strict m c c' d d') (hm : m' → m) : Echo strict m' c c' d d' := by
  obtain ⟨hd, added, added', h, h', hfilter, hsame⟩ := h
  exact ⟨hd, added, added', h, h', hfilter, fun hm' => hsame (hm hm')⟩

theorem Echo.append (h : Echo strict m c c' d d') (h' : Echo strict m' d d' e e') :
    Echo strict (m ∧ m') c c' e e' := by
  obtain ⟨-, r, r', hr, hr', hfilter, hsame⟩ := h
  obtain ⟨he, s, s', hs, hs', hfilter', hsame'⟩ := h'
  refine ⟨he, r ++ s, r' ++ s', ?_, ?_, ?_, fun hm => ?_⟩
  · rw [hs, hr, List.append_assoc]
  · rw [hs', hr', List.append_assoc]
  · rw [List.filter_append, List.filter_append, hfilter, hfilter']
  · rw [hsame hm.1, hsame' hm.2]

/-- Both parts of a way without errors of meaning are without them. -/
theorem Echo.noSemantic_iff (h : Echo strict m c c' d d') (h' : Echo strict m' d d' e e') :
    c.NoSemantic e ↔ c.NoSemantic d ∧ d.NoSemantic e := by
  obtain ⟨-, r, -, hr, -⟩ := h
  obtain ⟨-, s, -, hs, -⟩ := h'
  rw [Cursor.noSemantic_iff hr, Cursor.noSemantic_iff hs, ← List.append_eq_nil_iff,
    ← List.filter_append]
  exact Cursor.noSemantic_iff (by rw [hs, hr, List.append_assoc])

theorem Echo.trans (h : Echo strict (c.NoSemantic d) c c' d d')
    (h' : Echo strict (d.NoSemantic e) d d' e e') : Echo strict (c.NoSemantic e) c c' e e' :=
  (h.append h').imp (h.noSemantic_iff h').1

/-- **Whether anything is reported does not depend on the names**, unless that is an error of
meaning. -/
theorem Echo.size_iff (h : Echo strict m c c' d d') (hm : m) :
    d'.reports.size = c'.reports.size ↔ d.reports.size = c.reports.size := by
  obtain ⟨-, added, added', h, h', -, hsame⟩ := h
  simp [← Array.length_toList, h, h', hsame hm]

end Cursor

namespace Reading

open Cursor Node

variable {α β γ δ : Type} {strict : Bool} {c c' d : Cursor} {Q : Prop} {P : α → Prop}
  {P' : β → Prop} {f : α → γ} {f' : β → δ} {x x' : Reading β} {g g' : β → Reading α}
  {act act' : Reading α}

/-! ### Readers that echo others -/

/-- At the given cursors the second reader echoes the first, if the result of that has `P`. -/
def EchoesAt (strict : Bool) (c c' : Cursor) (Q : Prop) (P : α → Prop) (f : α → γ)
    (act act' : Reading α) : Prop :=
  ∀ ⦃a d⦄, act c = .ok a d → P a → Q ∧ (c.Beside c' → ∃ a' d', act' c' = .ok a' d' ∧ f a' = f a ∧
    Echo strict (c.NoSemantic d) c c' d d')

/-- **The second reader echoes the first**: if the result of that has `P`, then the second one,
started beside it, gives a result of which `f` is the same, and the way to it is an echo. What `P`
says of the parts that the result is made of, and that were read before, is `Q`. -/
def Echoes (strict : Bool) (Q : Prop) (P : α → Prop) (f : α → γ) (act act' : Reading α) : Prop :=
  ∀ c c', EchoesAt strict c c' Q P f act act'

/-- A reader whose result is the same with more names. -/
abbrev Repeats (strict : Bool) (act : Reading α) : Prop :=
  Echoes strict True (fun _ => True) id act act

/-- A reader that echoes itself without any condition, and whose tree may be missing. -/
abbrev EchoesFreely (strict : Bool) (act : Reading (Option Node)) : Prop :=
  Echoes strict True (fun _ => True) (Option.map unbind) act act

/-- A reader that echoes itself and whose tree may be missing. -/
abbrev EchoesOption (strict : Bool) (act : Reading (Option Node)) : Prop :=
  Echoes strict True (fun o => ∀ n ∈ o, n.Undisturbed strict) (Option.map unbind) act act

/-- A reader of trees that echoes itself. -/
abbrev EchoesAll (strict : Bool) (act : Reading (List Node)) : Prop :=
  Echoes strict True (fun ns => ∀ n ∈ ns, n.Undisturbed strict) (List.map unbind) act act

/-- A reader of a tree that echoes itself. -/
abbrev EchoesNode (strict : Bool) (act : Reading Node) : Prop :=
  Echoes strict True (Undisturbed strict) unbind act act

/-- An echo at the given cursors. -/
theorem EchoesAt.exists {a : α} (h : EchoesAt strict c c' Q P f act act') (hact : act c = .ok a d)
    (ha : P a) (hc : c.Beside c') : ∃ a' d', act' c' = .ok a' d' ∧ f a' = f a ∧
      Echo strict (c.NoSemantic d) c c' d d' := (h hact ha).2 hc

theorem echoes_pure {a a' : α} (h : f a' = f a) (hQ : P a → Q) :
    Echoes strict Q P f (pure a) (pure a') := by
  intro c c' b d hb hP
  obtain ⟨rfl, rfl⟩ := pure_eq_ok.1 hb
  exact ⟨hQ hP, fun hc => ⟨a', c', rfl, h, echo_refl hc⟩⟩

/-- The very same is given. -/
theorem echoes_same {a : α} : Echoes strict True P f (pure a) (pure a) :=
  echoes_pure rfl fun _ => trivial

theorem echoes_throw {halt : Halt} : Echoes strict Q P f (throw halt) act' := fun _ _ _ _ => nofun

/-- **What was read first is a part of the result**, so that the property of the result tells of
it. -/
theorem Echoes.bind (hx : Echoes strict True P' f' x x')
    (hg : ∀ a a', f' a' = f' a → Echoes strict (Q ∧ P' a) P f (g a) (g' a')) :
    Echoes strict Q P f (x >>= g) (x' >>= g') := by
  intro c c' b d h hb
  obtain ⟨a, c₁, h₁, h₂⟩ := bind_eq_ok.1 h
  obtain ⟨⟨hQ, ha⟩, -⟩ := hg a a rfl c₁ c₁ h₂ hb
  refine ⟨hQ, fun hc => ?_⟩
  obtain ⟨a', c₁', h₁', haa, hecho⟩ := (hx c c').exists h₁ ha hc
  obtain ⟨b', d', h₂', hbb, hecho'⟩ := (hg a a' haa c₁ c₁').exists h₂ hb hecho.beside
  exact ⟨b', d', (bind_of_ok h₁').trans h₂', hbb, hecho.trans hecho'⟩

/-- What was read first echoes without any condition. -/
theorem Echoes.seq (hx : Echoes strict True (fun _ => True) f' x x')
    (hg : ∀ a a', f' a' = f' a → Echoes strict Q P f (g a) (g' a')) :
    Echoes strict Q P f (x >>= g) (x' >>= g') := by
  refine hx.bind fun a a' h c c' b d hb hP => ?_
  obtain ⟨hQ, hecho⟩ := hg a a' h c c' hb hP
  exact ⟨⟨hQ, trivial⟩, hecho⟩

/-- What was read first is the same. -/
theorem Echoes.seq_eq (hx : Echoes strict True (fun _ => True) id x x')
    (hg : ∀ a, Echoes strict Q P f (g a) (g' a)) : Echoes strict Q P f (x >>= g) (x' >>= g') := by
  refine hx.seq fun a a' h => ?_
  obtain rfl : a' = a := h
  exact hg a'

theorem Echoes.map {h : β → α} (hx : Echoes strict Q P' f' x x') (hP : ∀ a, P (h a) → P' a)
    (hf : ∀ a a', f' a' = f' a → f (h a') = f (h a)) :
    Echoes strict Q P f (h <$> x) (h <$> x') := by
  intro c c' b d hb hPb
  obtain ⟨a, ha, rfl⟩ := map_eq_ok.1 hb
  obtain ⟨hQ, hecho⟩ := hx c c' ha (hP a hPb)
  refine ⟨hQ, fun hc => ?_⟩
  obtain ⟨a', d', ha', haa, hecho⟩ := hecho hc
  exact ⟨h a', d', map_eq_ok.2 ⟨a', ha', rfl⟩, hf a a' haa, hecho⟩

theorem EchoesAt.ite {act₁ act₁' : Reading α} {p : Prop} [Decidable p]
    (h : p → EchoesAt strict c c' Q P f act act')
    (h₁ : ¬p → EchoesAt strict c c' Q P f act₁ act₁') :
    EchoesAt strict c c' Q P f (if p then act else act₁) (if p then act' else act₁') := by
  split
  · exact h (by assumption)
  · exact h₁ (by assumption)

theorem Echoes.ite {act₁ act₁' : Reading α} {p : Prop} [Decidable p]
    (h : Echoes strict Q P f act act') (h₁ : Echoes strict Q P f act₁ act₁') :
    Echoes strict Q P f (if p then act else act₁) (if p then act' else act₁') :=
  fun c c' => .ite (fun _ => h c c') fun _ => h₁ c c'

theorem EchoesAt.get_bind {g g' : Cursor → Reading α}
    (h : EchoesAt strict c c' Q P f (g c) (g' c')) :
    EchoesAt strict c c' Q P f (get >>= g) (get >>= g') := h

theorem EchoesAt.reportCount_bind {g g' : Nat → Reading α}
    (h : EchoesAt strict c c' Q P f (g c.reports.size) (g' c'.reports.size)) :
    EchoesAt strict c c' Q P f (reportCount >>= g) (reportCount >>= g') := h

theorem EchoesAt.congr {act₁ act₁' : Reading α} (h₁ : act c = act₁ c) (h₁' : act' c' = act₁' c')
    (h : EchoesAt strict c c' Q P f act₁ act₁') : EchoesAt strict c c' Q P f act act' := by
  intro a d hact ha
  rw [h₁']
  exact h (h₁ ▸ hact) ha

/-- That the cursors are side by side may be used. -/
theorem EchoesAt.of_beside (h : c.Beside c' → EchoesAt strict c c' True P f act act') :
    EchoesAt strict c c' True P f act act' :=
  fun _ _ hact ha => ⟨trivial, fun hc => (h hc).exists hact ha hc⟩

/-- What looks at the place of the cursor only. -/
theorem echoes_of_beside {look : Reading β} (k : Cursor → β)
    (hlook : ∀ (g : β → Reading α) c, (look >>= g) c = g (k c) c)
    (hk : ∀ c c', c.Beside c' → k c' = k c) {g g' : β → Reading α}
    (hg : ∀ b, Echoes strict Q P f (g b) (g' b)) :
    Echoes strict Q P f (look >>= g) (look >>= g') := by
  intro c c' b d h hb
  rw [hlook] at h
  obtain ⟨hQ, hecho⟩ := hg (k c) c c' h hb
  refine ⟨hQ, fun hc => ?_⟩
  rw [hlook, hk c c' hc]
  exact hecho hc

theorem Echoes.current_bind {g g' : Token → Reading α}
    (hg : ∀ t, Echoes strict Q P f (g t) (g' t)) :
    Echoes strict Q P f (current >>= g) (current >>= g') :=
  echoes_of_beside (·.current) (fun g _ => Reading.current_bind g) (fun _ _ hc => hc.current) hg

theorem Echoes.kind_bind {g g' : Token.Kind → Reading α}
    (hg : ∀ k, Echoes strict Q P f (g k) (g' k)) :
    Echoes strict Q P f (kind >>= g) (kind >>= g') :=
  echoes_of_beside (·.current.kind) (fun g _ => Reading.kind_bind g)
    (fun _ _ hc => by rw [hc.current]) hg

theorem Echoes.budget_bind {g g' : Nat → Reading α} (hg : ∀ k, Echoes strict Q P f (g k) (g' k)) :
    Echoes strict Q P f (budget >>= g) (budget >>= g') :=
  echoes_of_beside (·.rest.length + 2) (fun g _ => Reading.budget_bind g)
    (fun _ _ hc => by rw [hc.rest]) hg

/-! ### Single steps -/

theorem repeats_advance : Repeats strict advance := by
  refine fun c c' u d h _ => ⟨trivial, fun hc => ?_⟩
  have hnumeric := (silent_advance h hc.numeric).numeric
  rcases advance_eq_ok h with ⟨hr, rfl⟩ | ⟨t, rest, hr, rfl⟩
  · refine ⟨(), { c' with current := ⟨.endOfFile, c'.lastLine, []⟩ }, ?_, rfl,
      echo_of_added [] ⟨?_, hc.rest, hc.lastLine, hc.contains, hnumeric⟩ ?_ ?_⟩
    · simp only [advance, Feed.next, hc.rest.trans hr]
    · rw [hc.lastLine]
    · simp
    · simp
  · refine ⟨(), { c' with
        toFeed := { c'.toFeed with rest, lastLine := t.line }.note t
        current := t }, ?_, rfl,
      echo_of_added t.reports ⟨rfl, rfl, rfl, hc.contains, hnumeric⟩ ?_ ?_⟩
    · simp only [advance, Feed.next, hc.rest.trans hr]
    · simp [Feed.note]
    · simp [Feed.note]

theorem repeats_complain (w : Complaint) : Repeats strict (complain w) := by
  refine fun c c' u d h _ => ⟨trivial, fun hc => ?_⟩
  obtain ⟨⟩ := h
  refine ⟨_, _, rfl, rfl, echo_of_added [⟨w.reportKind, c.current.line, w.message, c.current.text⟩]
    ⟨hc.current, hc.rest, hc.lastLine, hc.contains, hc.numeric.inHand, hc.numeric.inFront⟩
    Array.toList_push ?_⟩
  rw [Array.toList_push, hc.current]

/-- With more names there may be nothing to complain about. -/
theorem echo_of_undeclared {u : Unit} (hc : c.Beside c') (h : complain .undeclared c = .ok u d) :
    Echo strict (c.NoSemantic d) c c' d c' := by
  obtain ⟨⟩ := h
  refine ⟨⟨hc.current, hc.rest, hc.lastLine, hc.contains, hc.numeric.inHand, hc.numeric.inFront⟩,
    [_], [], Array.toList_push, by simp, rfl, fun hno => ?_⟩
  cases (noSemantic_iff Array.toList_push).1 hno

theorem repeats_enter (name : Text) :
    Repeats strict (modify fun c => { c with table := c.table.enter name } : Reading Unit) := by
  refine fun c c' u d h _ => ⟨trivial, fun hc => ?_⟩
  obtain ⟨⟩ := h
  refine ⟨_, _, rfl, rfl, echo_of_added [] ⟨hc.current, hc.rest, hc.lastLine, fun {other} h => ?_,
    hc.numeric.inHand, hc.numeric.inFront⟩ (by simp) (by simp)⟩
  rw [SymbolTable.contains_enter, Bool.or_eq_true] at h ⊢
  exact h.imp_left hc.contains

theorem repeats_logProgram (name : Option Text) : Repeats strict (logProgram name) := by
  refine fun c c' u d h _ => ⟨trivial, fun hc => ?_⟩
  obtain ⟨⟩ := h
  exact ⟨_, _, rfl, rfl, echo_of_added [] ⟨hc.current, hc.rest, hc.lastLine, hc.contains,
    hc.numeric.inHand, hc.numeric.inFront⟩ (by simp) (by simp)⟩

/-! ### Skipping -/

theorem repeats_skip : ∀ k, Repeats strict (skip k)
  | 0 => echoes_throw
  | k + 1 => .kind_bind fun _ => .ite echoes_same
    (repeats_advance.seq_eq fun _ => repeats_skip k)

theorem repeats_reject (w : Complaint) : Repeats strict (reject w) :=
  (repeats_complain w).seq_eq fun _ => .budget_bind repeats_skip

/-- Nothing is given but what stands for a part that cannot be read. -/
theorem echoes_reject_pure (w : Complaint) {a : α} :
    Echoes strict True P f (do reject w; return a) (do reject w; return a) :=
  (repeats_reject w).seq_eq fun _ => echoes_same

theorem repeats_expect (expected : Token.Kind) (w : Complaint) :
    Repeats strict (expect expected w) :=
  .kind_bind fun _ => .ite
    (repeats_advance.seq_eq fun _ => echoes_same)
    (echoes_reject_pure w)

theorem repeats_skipSemicolons : ∀ k, Repeats strict (skipSemicolons k)
  | 0 => echoes_throw
  | k + 1 => .kind_bind fun _ => .ite
    (repeats_advance.seq_eq fun _ => repeats_skipSemicolons k)
    echoes_same

/-! ### Readers without errors of meaning -/

theorem noSemantic_of_silent {u : α} (h : Silent act) (hact : act c = .ok u d) (hc : c.Numeric) :
    c.NoSemantic d := (h hact hc).noSemantic rfl

/-- **A reader whose trees have no unbound variables** reports no error of meaning. -/
theorem noSemantic_of_builds {a : α} {trees : α → List Node} (h : Builds [] act trees)
    (hact : act c = .ok a d) (hc : c.Numeric) (hbound : ∀ n ∈ trees a, n.Bound) :
    c.NoSemantic d := by
  obtain ⟨hbuilt, os, hos, hmeets⟩ := h c hact hc (by simp)
  refine hmeets.noSemantic ?_
  rw [List.flatMap_nil, List.nil_append] at hos
  rw [← hos]
  have hflat : (trees a).flatMap occurrences =
      ((trees a).flatMap preorder).filterMap occurrence? := by
    rw [List.filterMap_flatMap]
    rfl
  rw [hflat, unbound?_eq_nil_iff]
  · intro v hv
    obtain ⟨n, hn, hv⟩ := List.mem_flatMap.1 hv
    exact hbound n hn v hv
  · intro v hv hk
    obtain ⟨n, hn, hv⟩ := List.mem_flatMap.1 hv
    exact everywhere_iff.1 (everywhere_of_child (fun _ hb _ => hb.child) (hbuilt n hn)) v hv

end Reading

end MiniPascal

import Mathlib.Data.List.Forall2
import MiniPascal.Node.Dump
import MiniPascal.Proofs.Node.Occurrence
import MiniPascal.Proofs.Node.Sketch
import MiniPascal.Proofs.Text.Numeral
import MiniPascal.Proofs.Token.Spelling

/-!
# Reading a dump

Texts stand in a dump as they are, and the text of a string may hold anything, also what looks like
further lines of the dump. All the same a dump can be read back. What a node shows is read from left to
right: its kind, which has neither blank nor bracket in it, tells how its text is spelled, and so where
that ends; behind it stands a slash or a closing bracket, which tells whether there are children. The
children go on for as long as lines are indented one level deeper, and the line with the slash ends
them.

So no dump is the beginning of another with something behind it, and this is what the induction over
trees is about: two dumps that are the same up to what follows are of trees that look alike, and the
same follows them.

* `MiniPascal.Node.Legible`: the nodes whose dump can be read.
* `MiniPascal.Node.Resembles`: trees that agree in what a dump shows.
* `MiniPascal.Node.resembles_of_dumpAt`: trees whose dumps agree, resemble each other.
-/

namespace MiniPascal

/-! ### Where a text ends -/

namespace Text

/-- What goes on with a blank or a closing bracket. -/
def Ends (r : Text) : Prop := r.head? = some (.char ' ') ∨ r.head? = some (.char '>')

/-- A text without blanks and closing brackets. -/
def Plain (s : Text) : Prop := ∀ c ∈ s, c ≠ .char ' ' ∧ c ≠ .char '>'

theorem takeWhile_plain {s r : Text} (hs : Plain s) (hr : Ends r) :
    (s ++ r).takeWhile (fun c => c ≠ .char ' ' && c ≠ .char '>') = s := by
  rw [List.takeWhile_append_of_pos fun c hc => by simpa using hs c hc]
  cases r with
  | nil => rcases hr with hr | hr <;> cases hr
  | cons c r => rcases hr with hr | hr <;> simp_all

/-- **A plain text ends** at the first blank or closing bracket. -/
theorem plain_append {s s' r r' : Text} (hs : Plain s) (hs' : Plain s') (hr : Ends r) (hr' : Ends r')
    (h : s ++ r = s' ++ r') : s = s' ∧ r = r' := by
  have heq : s = s' := by
    rw [← takeWhile_plain hs hr, h, takeWhile_plain hs' hr']
  subst heq
  exact ⟨rfl, List.append_cancel_left h⟩

end Text

theorem Text.Ends.append {s r : Text} (hs : s = [] ∨ s.head? = some (.char ' ')) (hr : Ends r) :
    Ends (s ++ r) := by
  rcases s with _ | ⟨c, s⟩
  · exact hr
  · rcases hs with hs | hs
    · cases hs
    · exact .inl hs

theorem Text.Ends.head?_ne {r : Text} (hr : Ends r) : r.head? ≠ some (.char '\'') := by
  rcases hr with hr | hr <;> simp [hr]

/-! ### What a node shows -/

theorem Numeral.plain_write (n : Int) : Text.Plain (Numeral.write n) := by
  intro c hc
  obtain ⟨d, hd, rfl⟩ := List.mem_map.1 hc
  rw [toList_write] at hd
  rcases mem_chars hd with rfl | hd
  · decide
  · constructor <;> rintro ⟨⟩ <;> cases hd

theorem Numeral.write_inj {m n : Int} (h : (Numeral.write m : Text) = Numeral.write n) : m = n := by
  have hlist := List.map_injective_iff.2 (fun _ _ => CodePoint.char.inj) h
  rw [toList_write, toList_write] at hlist
  exact chars_inj hlist

namespace Node

/-- The kinds of nodes that show a text. -/
def Kind.hasText : Kind → Bool
  | program | var | integerConstant | realConstant | stringConstant => true
  | _ => false

/-- **The dump of the node can be read.** It shows a text if its kind has one, and otherwise nothing of
the kind, and only strings hold blanks and brackets. -/
structure Legible (n : Node) : Prop where
  kind : n.kind ∈ Kind.all
  text : n.kind.hasText = true →
    ∃ s, n.text = .text s ∧ (n.kind ≠ .stringConstant → Text.Plain s) ∧
      (n.kind = .stringConstant → ∃ v, s = Piece.literal v)
  bare : n.kind.hasText = false → n.text = .null ∧ n.value = .null
  direction : n.descending = true → n.kind = .forLoop

/-- The text of a node behind a blank. -/
def caption (n : Node) : Text :=
  match n.text with
  | .text s => .char ' ' :: s
  | _ => []

/-- The direction of a FOR loop. -/
def direction (n : Node) : Text :=
  Text.ofString <|
    if n.kind = .forLoop then
      if n.descending then " direction=\"downto\"" else " direction=\"to\""
    else ""

/-- The line of a statement. -/
def place (n : Node) : Text :=
  Text.ofString (if n.kind.isStatement then " line " ++ Numeral.write n.line else "")

/-- What a node shows behind its kind. -/
def details (n : Node) : Text := n.caption ++ n.direction ++ n.place

theorem Legible.dumpHead {n : Node} (h : n.Legible) :
    n.dumpHead = .ok (n.kind.name ++ n.details) := by
  have hlabel : n.dumpLabel = .ok n.caption := by
    unfold dumpLabel caption
    cases hk : n.kind.hasText with
    | true =>
      obtain ⟨s, hs, -⟩ := h.text hk
      rw [hs]
      rfl
    | false =>
      obtain ⟨htext, hvalue⟩ := h.bare hk
      rw [htext, hvalue]
  unfold Node.dumpHead
  rw [hlabel, details, ← List.append_assoc, ← List.append_assoc]
  rfl

/-! ### What follows a kind -/

section Details

variable {n n' : Node} {r r' : Text}

theorem head?_caption (n : Node) : n.caption = [] ∨ n.caption.head? = some (.char ' ') := by
  unfold caption
  split
  · exact .inr rfl
  · exact .inl rfl

theorem head?_direction (n : Node) : n.direction = [] ∨ n.direction.head? = some (.char ' ') := by
  unfold direction
  split
  · split <;> exact .inr rfl
  · exact .inl rfl

theorem place_of_isStatement (h : n.kind.isStatement = true) :
    n.place = " line " ++ (Numeral.write n.line : Text) := by
  rw [place, if_pos h, Text.ofString, Text.ofChars, String.toList_append, List.map_append]
  rfl

theorem head?_place (n : Node) : n.place = [] ∨ n.place.head? = some (.char ' ') := by
  by_cases h : n.kind.isStatement = true
  · rw [place_of_isStatement h]
    exact .inr rfl
  · rw [place, if_neg h]
    exact .inl rfl

/-- A blank goes in front of everything that a node shows behind its kind. -/
theorem ends_details (n : Node) (hr : Text.Ends r) : Text.Ends (n.details ++ r) := by
  rw [details, List.append_assoc, List.append_assoc]
  exact .append n.head?_caption (.append n.head?_direction (.append n.head?_place hr))

theorem caption_append (hn : n.Legible) (hn' : n'.Legible) (hk : n.kind = n'.kind)
    (hr : Text.Ends r) (hr' : Text.Ends r') (h : n.caption ++ r = n'.caption ++ r') :
    n.text = n'.text ∧ r = r' := by
  cases htext : n.kind.hasText with
  | false =>
    obtain ⟨hnull, -⟩ := hn.bare htext
    obtain ⟨hnull', -⟩ := hn'.bare (hk ▸ htext)
    rw [caption, caption, hnull, hnull'] at h
    exact ⟨hnull.trans hnull'.symm, h⟩
  | true =>
    obtain ⟨s, hs, hplain, hstring⟩ := hn.text htext
    obtain ⟨s', hs', hplain', hstring'⟩ := hn'.text (hk ▸ htext)
    rw [caption, caption, hs, hs'] at h
    have h : s ++ r = s' ++ r' := (List.cons.inj h).2
    have hsplit : s = s' ∧ r = r' := by
      by_cases hc : n.kind = .stringConstant
      · obtain ⟨v, rfl⟩ := hstring hc
        obtain ⟨v', rfl⟩ := hstring' (hk ▸ hc)
        obtain ⟨rfl, hrest⟩ := Piece.literal_append hr.head?_ne hr'.head?_ne h
        exact ⟨rfl, hrest⟩
      · exact Text.plain_append (hplain hc) (hplain' (hk ▸ hc)) hr hr' h
    rw [hs, hs', hsplit.1]
    exact ⟨rfl, hsplit.2⟩

theorem direction_append (hk : n.kind = n'.kind) (h : n.direction ++ r = n'.direction ++ r') :
    (n.kind = .forLoop → n.descending = n'.descending) ∧ r = r' := by
  by_cases hloop : n.kind = .forLoop
  · have hloop' : n'.kind = .forLoop := hk ▸ hloop
    unfold direction at h
    rw [if_pos hloop, if_pos hloop'] at h
    generalize n.descending = d, n'.descending = d' at h ⊢
    cases d <;> cases d'
    · exact ⟨fun _ => rfl, List.append_cancel_left h⟩
    · simp [Text.ofString, Text.ofChars] at h
    · simp [Text.ofString, Text.ofChars] at h
    · exact ⟨fun _ => rfl, List.append_cancel_left h⟩
  · unfold direction at h
    rw [if_neg hloop, if_neg (hk ▸ hloop)] at h
    exact ⟨fun hl => absurd hl hloop, h⟩

theorem place_append (hk : n.kind = n'.kind) (hr : Text.Ends r) (hr' : Text.Ends r')
    (h : n.place ++ r = n'.place ++ r') :
    (n.kind.isStatement = true → n.line = n'.line) ∧ r = r' := by
  by_cases hs : n.kind.isStatement = true
  · rw [place_of_isStatement hs, place_of_isStatement (hk ▸ hs), List.append_assoc,
      List.append_assoc] at h
    obtain ⟨hline, hrest⟩ := Text.plain_append (Numeral.plain_write _) (Numeral.plain_write _) hr hr'
      (List.append_cancel_left h)
    exact ⟨fun _ => Numeral.write_inj hline, hrest⟩
  · rw [place, place, if_neg hs, if_neg (hk ▸ hs)] at h
    exact ⟨fun hs' => absurd hs' hs, h⟩

/-- **What a node shows can be told from what follows it.** -/
theorem details_append (hn : n.Legible) (hn' : n'.Legible) (hk : n.kind = n'.kind)
    (hr : Text.Ends r) (hr' : Text.Ends r') (h : n.details ++ r = n'.details ++ r') :
    n.text = n'.text ∧ n.descending = n'.descending ∧
      (n.kind.isStatement = true → n.line = n'.line) ∧ r = r' := by
  rw [details, details, List.append_assoc, List.append_assoc, List.append_assoc,
    List.append_assoc] at h
  obtain ⟨htext, h⟩ := caption_append hn hn' hk
    (.append n.head?_direction (.append n.head?_place hr))
    (.append n'.head?_direction (.append n'.head?_place hr')) h
  obtain ⟨hdirection, h⟩ := direction_append hk h
  obtain ⟨hline, h⟩ := place_append hk hr hr' h
  refine ⟨htext, ?_, hline, h⟩
  by_cases hloop : n.kind = .forLoop
  · exact hdirection hloop
  · have hup : n.descending = false := by simpa using mt hn.direction hloop
    have hup' : n'.descending = false := by simpa using mt hn'.direction (hk ▸ hloop)
    rw [hup, hup']

theorem plain_name {kind : Kind} (h : kind ∈ Kind.all) : Text.Plain kind.name := by
  revert kind
  unfold Text.Plain
  decide +kernel

theorem name_inj {kind kind' : Kind} (h : kind ∈ Kind.all) (h' : kind' ∈ Kind.all)
    (heq : kind.name = kind'.name) : kind = kind' := by
  have key : ∀ k ∈ Kind.all, Kind.ofName? k.name = some k := by decide +kernel
  rw [← Option.some_inj, ← key kind h, heq, key kind' h']

end Details

/-! ### Trees -/

/-- **Trees that agree in what a dump shows**: kinds, texts, directions and the lines of statements. -/
inductive Resembles : Node → Node → Prop
  | intro {n n' : Node} : n.kind = n'.kind → n.text = n'.text → n.descending = n'.descending →
    (n.kind.isStatement = true → n.line = n'.line) →
    List.Forall₂ Resembles n.children n'.children → Resembles n n'

section Trees

variable {n n' : Node} {depth : Nat}

/-- What stands behind the details of a node: the end of its line and, if there are children, these
and the line that ends them. -/
inductive Closing (depth : Nat) (n : Node) : Text → Prop
  | leaf : n.children = [] → Closing depth n " />\n"
  | parent {inner : List Text} : n.children ≠ [] → dumpAllAt (depth + 1) n.children = .ok inner →
    Closing depth n (">\n" ++ (inner.flatten ++ (dumpIndent depth ++ ("</" ++ (n.kind.name ++ ">\n")))))

theorem Closing.ends {close : Text} (h : Closing depth n close) (r : Text) :
    Text.Ends (close ++ r) := by
  cases h with
  | leaf => exact .inl rfl
  | parent => exact .inr rfl

theorem closing_of_dumpAt (hn : n.Legible) {ls : List Text} (h : n.dumpAt depth = .ok ls) :
    ∃ close, Closing depth n close ∧
      ls.flatten = dumpIndent depth ++ .char '<' :: (n.kind.name ++ (n.details ++ close)) := by
  have hhead := hn.dumpHead
  obtain ⟨kind, line, text, value, slot, descending, children⟩ := n
  rw [dumpAt, hhead] at h
  simp only [bind, Except.bind, pure, Except.pure] at h
  split at h
  · rename_i hempty
    cases h
    refine ⟨_, .leaf (List.isEmpty_iff.1 hempty), ?_⟩
    simp [Text.ofString, Text.ofChars]
  · rename_i hempty
    split at h
    · cases h
    · rename_i inner hinner
      cases h
      refine ⟨_, .parent (fun hnil => hempty (List.isEmpty_iff.2 hnil)) hinner, ?_⟩
      simp [Text.ofString, Text.ofChars]

theorem dumpAllAt_cons {ns : List Node} {ls : List Text} (h : dumpAllAt depth (n :: ns) = .ok ls) :
    ∃ first rest, n.dumpAt depth = .ok first ∧ dumpAllAt depth ns = .ok rest ∧
      ls = first ++ rest := by
  rw [dumpAllAt] at h
  simp only [bind, Except.bind, pure, Except.pure] at h
  split at h
  · cases h
  · rename_i first hfirst
    split at h
    · cases h
    · rename_i rest hrest
      cases h
      exact ⟨first, rest, hfirst, hrest, rfl⟩

/-- A dump can be made of every tree that can be read in it. -/
theorem exists_dumpAt (h : n.Everywhere Legible) : ∀ depth, ∃ ls, n.dumpAt depth = .ok ls := by
  induction h with
  | @intro n hn _ ih =>
    have hall (depth : Nat) : ∀ ns : List Node, (∀ m ∈ ns, m ∈ n.children) →
        ∃ ls, dumpAllAt depth ns = .ok ls := by
      intro ns hns
      induction ns with
      | nil => exact ⟨[], rfl⟩
      | cons m ns ihns =>
        obtain ⟨first, hfirst⟩ := ih m (hns m List.mem_cons_self) depth
        obtain ⟨rest, hrest⟩ := ihns fun k hk => hns k (List.mem_cons_of_mem m hk)
        exact ⟨first ++ rest, by rw [dumpAllAt, hfirst, hrest]; rfl⟩
    intro depth
    have hhead := hn.dumpHead
    obtain ⟨inner, hinner⟩ := hall (depth + 1) n.children fun _ => id
    obtain ⟨kind, line, text, value, slot, descending, children⟩ := n
    rw [dumpAt, hhead, show dumpAllAt (depth + 1) children = .ok inner from hinner]
    simp only [bind, Except.bind, pure, Except.pure]
    split
    · exact ⟨_, rfl⟩
    · exact ⟨_, rfl⟩

theorem dumpIndent_succ (depth : Nat) : dumpIndent (depth + 1) = dumpIndent depth ++ Text.spaces 4 := by
  rw [dumpIndent, Nat.mul_succ, Text.spaces, List.replicate_add]
  rfl

/-- **Lists of trees** of which the dumps agree up to the line that ends them. -/
theorem forall₂_resembles_of_dumpAllAt {ns : List Node} {x x' : Text}
    (ih : ∀ n ∈ ns, ∀ n' ls ls' (r r' : Text), n'.Everywhere Legible → n.dumpAt (depth + 1) = .ok ls →
      n'.dumpAt (depth + 1) = .ok ls' → ls.flatten ++ r = ls'.flatten ++ r' →
      n.Resembles n' ∧ r = r')
    (hns : ∀ n ∈ ns, n.Everywhere Legible) {ns' : List Node} (hns' : ∀ n ∈ ns', n.Everywhere Legible)
    {ls ls' : List Text} (h : dumpAllAt (depth + 1) ns = .ok ls)
    (h' : dumpAllAt (depth + 1) ns' = .ok ls')
    (heq : ls.flatten ++ (dumpIndent depth ++ ("</" ++ x)) =
      ls'.flatten ++ (dumpIndent depth ++ ("</" ++ x'))) :
    List.Forall₂ Resembles ns ns' ∧ x = x' := by
  -- a child starts with more blanks than the line that ends its parent
  have apart {n : Node} {ns : List Node} (hn : n.Everywhere Legible) {ls : List Text} {y y' : Text}
      (h : dumpAllAt (depth + 1) (n :: ns) = .ok ls) :
      ls.flatten ++ y ≠ dumpIndent depth ++ ("</" ++ y') := by
    intro heq
    obtain ⟨first, rest, hfirst, -, rfl⟩ := dumpAllAt_cons h
    obtain ⟨close, -, hflat⟩ := closing_of_dumpAt hn.self hfirst
    rw [List.flatten_append, hflat, dumpIndent_succ] at heq
    simp only [List.append_assoc] at heq
    exact absurd (congrArg List.head? (List.append_cancel_left heq))
      (by simp [Text.spaces, Text.ofString, Text.ofChars, List.replicate])
  induction ns generalizing ns' ls ls' with
  | nil =>
    cases h
    rcases ns' with _ | ⟨n', ns'⟩
    · cases h'
      exact ⟨.nil, List.append_cancel_left (List.append_cancel_left heq)⟩
    · exact absurd heq.symm (apart (hns' n' List.mem_cons_self) h')
  | cons n ns ihns =>
    rcases ns' with _ | ⟨n', ns'⟩
    · cases h'
      exact absurd heq (apart (hns n List.mem_cons_self) h)
    · obtain ⟨first, rest, hfirst, hrest, rfl⟩ := dumpAllAt_cons h
      obtain ⟨first', rest', hfirst', hrest', rfl⟩ := dumpAllAt_cons h'
      simp only [List.flatten_append, List.append_assoc] at heq
      obtain ⟨hn, hbehind⟩ := ih n List.mem_cons_self n' first first' _ _
        (hns' n' List.mem_cons_self) hfirst hfirst' heq
      obtain ⟨hforall, hx⟩ := ihns (fun m hm => ih m (List.mem_cons_of_mem n hm))
        (fun m hm => hns m (List.mem_cons_of_mem n hm))
        (fun m hm => hns' m (List.mem_cons_of_mem n' hm)) hrest hrest' hbehind
      exact ⟨.cons hn hforall, hx⟩

/-- **Trees whose dumps agree, resemble each other**, and the same stands behind the dumps. -/
theorem resembles_of_dumpAt (hn : n.Everywhere Legible) :
    ∀ depth n' ls ls' (r r' : Text), n'.Everywhere Legible → n.dumpAt depth = .ok ls →
      n'.dumpAt depth = .ok ls' → ls.flatten ++ r = ls'.flatten ++ r' → n.Resembles n' ∧ r = r' := by
  induction hn with
  | @intro n hn hchildren ih =>
    intro depth n' ls ls' r r' hn' h h' heq
    obtain ⟨close, hclose, hflat⟩ := closing_of_dumpAt hn h
    obtain ⟨close', hclose', hflat'⟩ := closing_of_dumpAt hn'.self h'
    rw [hflat, hflat'] at heq
    simp only [List.append_assoc, List.cons_append] at heq
    have heq := (List.cons.inj (List.append_cancel_left heq)).2
    -- the kind comes first, then its details, then what tells whether there are children
    obtain ⟨hname, heq⟩ := Text.plain_append (plain_name hn.kind) (plain_name hn'.self.kind)
      (ends_details n (hclose.ends r)) (ends_details n' (hclose'.ends r')) heq
    have hkind := name_inj hn.kind hn'.self.kind hname
    obtain ⟨htext, hdescending, hline, heq⟩ :=
      details_append hn hn'.self hkind (hclose.ends r) (hclose'.ends r') heq
    rcases hclose with hleaf | @⟨inner, hparent, hinner⟩ <;>
      rcases hclose' with hleaf' | @⟨inner', hparent', hinner'⟩
    · refine ⟨.intro hkind htext hdescending hline ?_, List.append_cancel_left heq⟩
      rw [hleaf, hleaf']
      exact .nil
    · exact absurd (congrArg List.head? heq) (by simp [Text.ofString, Text.ofChars])
    · exact absurd (congrArg List.head? heq) (by simp [Text.ofString, Text.ofChars])
    · simp only [List.append_assoc] at heq
      obtain ⟨hforall, hrest⟩ := forall₂_resembles_of_dumpAllAt (fun m hm => ih m hm (depth + 1))
        hchildren (fun m hm => hn'.child hm) hinner hinner' (List.append_cancel_left heq)
      refine ⟨.intro hkind htext hdescending hline hforall, ?_⟩
      rw [hkind] at hrest
      exact List.append_cancel_left (List.append_cancel_left hrest)

theorem exists_dump (h : n.Everywhere Legible) : ∃ s, n.dump = .ok s := by
  obtain ⟨ls, hls⟩ := exists_dumpAt h 0
  exact ⟨ls.flatten, by rw [dump, hls]; rfl⟩

/-- **The dump of a tree determines it**, up to what a dump does not show. -/
theorem resembles_of_dump {s : Text} (hn : n.Everywhere Legible) (hn' : n'.Everywhere Legible)
    (h : n.dump = .ok s) (h' : n'.dump = .ok s) : n.Resembles n' := by
  unfold dump at h h'
  obtain ⟨ls, hls⟩ := exists_dumpAt hn 0
  obtain ⟨ls', hls'⟩ := exists_dumpAt hn' 0
  rw [hls] at h
  rw [hls'] at h'
  refine (resembles_of_dumpAt hn 0 n' ls ls' [] [] hn' hls hls' ?_).1
  rw [List.append_nil, List.append_nil, Except.ok.inj h, Except.ok.inj h']

theorem Resembles.details_eq (h : n.Resembles n') : n.details = n'.details := by
  obtain ⟨hkind, htext, hdescending, hline, -⟩ := h
  have hcaption : n.caption = n'.caption := by rw [caption, caption, htext]
  have hdirection : n.direction = n'.direction := by
    rw [direction, direction, hkind, hdescending]
  have hplace : n.place = n'.place := by
    by_cases hs : n.kind.isStatement = true
    · rw [place, place, hkind, hline hs]
    · rw [place, place, if_neg hs, if_neg (hkind ▸ hs)]
  rw [details, details, hcaption, hdirection, hplace]

theorem dumpAllAt_congr {ns ns' : List Node}
    (h : List.Forall₂ (fun m m' => m.dumpAt depth = m'.dumpAt depth) ns ns') :
    dumpAllAt depth ns = dumpAllAt depth ns' := by
  induction h with
  | nil => rfl
  | cons hm _ ih => rw [dumpAllAt, dumpAllAt, hm, ih]

/-- Trees that resemble each other have one dump. -/
theorem Resembles.dumpAt_eq (hn : n.Everywhere Legible) (hn' : n'.Everywhere Legible)
    (h : n.Resembles n') (depth : Nat) : n.dumpAt depth = n'.dumpAt depth := by
  induction hn generalizing n' depth with
  | @intro n hn _ ih =>
    have hdetails := h.details_eq
    obtain ⟨hkind, -, -, -, hchildren⟩ := h
    have hall : dumpAllAt (depth + 1) n.children = dumpAllAt (depth + 1) n'.children := by
      refine dumpAllAt_congr (List.forall₂_iff_zip.2 ⟨hchildren.length_eq, fun {m m'} hmem => ?_⟩)
      obtain ⟨hm, hm'⟩ := List.of_mem_zip hmem
      exact ih m hm (hn'.child hm') (List.forall₂_zip hchildren hmem) (depth + 1)
    have hempty : n.children.isEmpty = n'.children.isEmpty := by
      rw [Bool.eq_iff_iff, List.isEmpty_iff_length_eq_zero, List.isEmpty_iff_length_eq_zero,
        hchildren.length_eq]
    have hhead := hn.dumpHead
    have hhead' := hn'.self.dumpHead
    rw [hkind, hdetails, ← hhead'] at hhead
    obtain ⟨kind, line, text, value, slot, descending, children⟩ := n
    obtain ⟨kind', line', text', value', slot', descending', children'⟩ := n'
    dsimp only at hkind hall hempty
    rw [dumpAt, dumpAt, hhead, hkind, hall, hempty]

theorem Resembles.dump_eq (hn : n.Everywhere Legible) (hn' : n'.Everywhere Legible)
    (h : n.Resembles n') : n.dump = n'.dump := by
  rw [dump, dump, h.dumpAt_eq hn hn']

end Trees

end Node

end MiniPascal

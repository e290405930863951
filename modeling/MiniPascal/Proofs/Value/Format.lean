import Mathlib.Algebra.Group.Int.Defs
import MiniPascal.Proofs.Binary64.Integer
import MiniPascal.Value.Format

/-!
# The field of a value

A value is first written without a field, and then spaces fill the field up on one side. The field never
takes anything away: a value that is longer than the field is written in full. The number of places has
no bearing on a value that is no number.

An integer with a number of places becomes a real first. If it has at most 53 binary digits, then all of
its decimal digits are written even so, with zeros behind the point.

* `MiniPascal.Value.Fills`: a text fills a field with another one.
* `MiniPascal.Value.format_null`: a value without a field.
* `MiniPascal.Value.bodyText_exact`: an exact integer with decimal places.
* `MiniPascal.Value.format_in_full`: fields pad, and never cut.
-/

namespace MiniPascal.Value

/-! ### Filling a field -/

/-- A width or a number of places, as the datum that asks for it. -/
def request : Option Int → Datum
  | none => .null
  | some n => .int n

/-- **The text `s` is `t` in a field of the given width**, filled up with spaces on the side that the sign
of the width tells. -/
structure Fills (width : Option Int) (t s : Text) : Prop where
  length : s.length = max (width.elim 0 Int.natAbs) t.length
  /-- Without a width there is no field. -/
  alone : width = none → s = t
  right : ∀ w, width = some w → 0 ≤ w → ∃ k, s = Text.spaces k ++ t
  left : ∀ w, width = some w → w < 0 → ∃ k, s = t ++ Text.spaces k

theorem length_spaces (k : Nat) : (Text.spaces k).length = k := List.length_replicate

theorem pad_fills (width : Option Int) (t : Text) : Fills width t (pad width t) := by
  cases width with
  | none => exact ⟨(Nat.zero_max _).symm, fun _ => rfl, nofun, nofun⟩
  | some w =>
    by_cases hw : 0 ≤ w
    · have hpad : pad (some w) t = Text.spaces (w.natAbs - t.length) ++ t := if_pos hw
      refine ⟨?_, nofun, ?_, ?_⟩
      · rw [hpad, List.length_append, length_spaces, Option.elim_some]
        omega
      · rintro w' ⟨⟩ -
        exact ⟨_, hpad⟩
      · rintro w' ⟨⟩ hneg
        omega
    · have hpad : pad (some w) t = t ++ Text.spaces (w.natAbs - t.length) := if_neg hw
      refine ⟨?_, nofun, ?_, ?_⟩
      · rw [hpad, List.length_append, length_spaces, Option.elim_some]
        omega
      · rintro w' ⟨⟩ hnonneg
        exact absurd hnonneg hw
      · rintro w' ⟨⟩ -
        exact ⟨_, hpad⟩

/-- A width is taken as it is, or refused. -/
theorem eq_of_fieldWidth? {width w : Option Int} (h : fieldWidth? (request width) = .ok w) :
    w = width := by
  cases width with
  | none => exact (Except.ok.inj h).symm
  | some n =>
    rw [request, fieldWidth?] at h
    split at h
    · cases h
    · exact (Except.ok.inj h).symm

/-! ### Without a field -/

variable (v : Value) (places : Datum)

/-- Without a width, the value stays as it is. -/
theorem format_null : v.format .null places = v.bodyText places := by
  rw [format]
  cases v.bodyText places <;> rfl

theorem format_eq_ok_iff {width : Datum} {s : Text} :
    v.format width places = .ok s ↔
      ∃ t w, v.bodyText places = .ok t ∧ fieldWidth? width = .ok w ∧ s = pad w t := by
  rw [format]
  cases v.bodyText places with
  | error f => simp [bind, Except.bind]
  | ok t =>
    cases fieldWidth? width with
    | error f => simp [bind, Except.bind]
    | ok w => simp [bind, Except.bind, pure, Except.pure, eq_comm]

/-- What is no number is written in its natural form. -/
theorem bodyText_of_not_numeric (h : v.isNumeric = false) :
    v.bodyText places = v.plainText := by
  cases v with
  | integer n => cases h
  | real x => cases h
  | boolean b => cases places <;> rfl
  | text s => cases places <;> rfl

theorem plainText_of_not_numeric (h : v.isNumeric = false) : ∃ t, v.plainText = .ok t := by
  cases v with
  | integer n => cases h
  | real x => cases h
  | boolean b => exact ⟨_, rfl⟩
  | text s => exact ⟨_, rfl⟩

/-! ### Integers with places -/

/-- The given number of decimal places, all of them zero, with the point in front. -/
def zeroPlaces (places : Int) : Text :=
  if 0 < places then .char '.' :: List.replicate places.toNat (.char '0') else []

/-- The decimals of an exact integer as a text. -/
theorem ofChars_fraction (places : Int) :
    Text.ofChars (if places.toNat = 0 then [] else '.' :: List.replicate places.toNat '0') =
      zeroPlaces places := by
  by_cases h : 0 < places
  · have hne : places.toNat ≠ 0 := by omega
    rw [if_neg hne, zeroPlaces, if_pos h, Text.ofChars, List.map_cons, List.map_replicate]
  · have heq : places.toNat = 0 := by omega
    rw [if_pos heq, zeroPlaces, if_neg h]
    rfl

/-- **An integer of at most 53 binary digits with decimal places** is written in full, although a real is
made of it. -/
theorem bodyText_exact {n places : Int} (hn : n.natAbs ≤ 2 ^ 53) (hplaces : places ≤ maxPlaces) :
    (integer n).bodyText (.int places) =
      .ok (Text.ofString (Numeral.write n) ++ zeroPlaces places) := by
  obtain ⟨m, e, hx, hexact⟩ := Binary64.ofInt_exact hn
  have hcount : decimalPlaces (.int places) = .ok places.toNat := if_neg (by omega)
  have hfixed : (Binary64.ofInt n).toFixed places.toNat =
      String.ofList (Numeral.chars n ++
        if places.toNat = 0 then [] else '.' :: List.replicate places.toNat '0') := by
    rw [hx, Binary64.toFixed, Binary64.fixedPlaces_of_exact hexact, Numeral.chars]
  have htext : fixedText (Binary64.ofInt n) (.int places) =
      .ok (Text.ofString (Numeral.write n) ++ zeroPlaces places) := by
    rw [fixedText, hcount, Except.map, hfixed, Text.ofString, Text.ofString, Numeral.write,
      String.toList_ofList, String.toList_ofList, ← ofChars_fraction]
    exact congrArg Except.ok List.map_append
  have hfinite : (Binary64.ofInt n).isInfinite = false := by rw [hx]; rfl
  simp only [bodyText, hfinite, Bool.false_eq_true, if_false, htext]

/-! ### Fields and values -/

/-- **A value is written in full**, in every field and with any number of places. -/
structure WrittenInFull (v : Value) : Prop where
  /-- A field holds the value as it is written without one. -/
  fills (width places : Option Int) (s : Text)
    (h : v.format (request width) (request places) = .ok s) :
    ∃ t, v.format .null (request places) = .ok t ∧ Fills width t s
  /-- Truth values and texts have no places. -/
  placeless (h : v.isNumeric = false) : ∃ t, ∀ places : Datum, v.format .null places = .ok t
  /-- An integer of at most 53 binary digits loses nothing when it is written as a real. -/
  exactly (n places : Int) (h : v = integer n) (hn : n.natAbs ≤ 2 ^ 53)
    (hplaces : places ≤ maxPlaces) :
    v.format .null (.int places) = .ok (Text.ofString (Numeral.write n) ++ zeroPlaces places)

/-- **Fields pad, and never cut.** -/
theorem format_in_full (v : Value) : v.WrittenInFull where
  fills width places s h := by
    obtain ⟨t, w, hbody, hwidth, rfl⟩ := (format_eq_ok_iff v _).1 h
    rw [eq_of_fieldWidth? hwidth]
    exact ⟨t, (format_null v _).trans hbody, pad_fills width t⟩
  placeless h := by
    obtain ⟨t, ht⟩ := plainText_of_not_numeric v h
    refine ⟨t, fun places => ?_⟩
    rw [format_null, bodyText_of_not_numeric v places h, ht]
  exactly n places h hn hplaces := by
    rw [h, format_null, bodyText_exact hn hplaces]

/-- The greatest exact integer with two places, at the left end of a field. -/
theorem format_in_full_exact :
    (∃ t, (integer (2 ^ 53)).format .null (.int 2) = .ok t ∧
      Fills (some (-22)) t (Text.ofString "9007199254740992.00   ")) ∧
    (integer (2 ^ 53)).format .null (.int 2) =
      .ok (Text.ofString (Numeral.write (2 ^ 53)) ++ zeroPlaces 2) ∧
    (∃ t, ∀ places : Datum, (text (Text.ofString "pi")).format .null places = .ok t) :=
  ⟨(format_in_full (integer (2 ^ 53))).fills (some (-22)) (some 2) _ rfl,
    (format_in_full (integer (2 ^ 53))).exactly _ 2 rfl (by decide) (by decide),
    (format_in_full (text (Text.ofString "pi"))).placeless rfl⟩

end MiniPascal.Value

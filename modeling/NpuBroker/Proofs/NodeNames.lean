import NpuBroker.Proofs.Naming
import NpuBroker.Text.Digits
import Mathlib.Data.Set.Function

/-!
# The grammar of node names

A name is `npu` and the number of a device, and for a part of it `pe` and one number, or two that
ascend with a `-` between them. A pattern finds the numbers, which lets digits of any script through
but no zero in front of other digits; each number is then read as a byte, which lets any zeros
through but only ASCII digits. Together they leave one spelling for each number.

* `Decimal.matched_and_unsigned?_iff`: what the pattern and the reader of bytes both let through.
* `UnitId.name_injective`: units are known by their names, proper or not.
* `UnitId.name_bijOn`: names and proper units, one to one.
-/
namespace NpuBroker

/-! ## Numbers in names -/

namespace Decimal

variable {cs : List Char} {n : Nat}

/-- What the pattern takes for a number: `0`, or digits of any script behind one from `1` to `9`. -/
def Matched (cs : List Char) : Prop :=
  cs = ['0'] ∨
    ∃ c ds, cs = c :: ds ∧ c.isDigit = true ∧ c ≠ '0' ∧ ∀ d ∈ ds, Text.isDecimal d = true

/-- ASCII digits with this value, of which the first is not `0` unless it is the only one. -/
def Canonical (cs : List Char) (n : Nat) : Prop :=
  (∀ c ∈ cs, c.isDigit = true) ∧ (∃ c ds, cs = c :: ds ∧ (c = '0' → ds = [])) ∧
    Nat.ofDigitChars 10 cs 0 = n

/-- No number is written with `0` in front of other digits. -/
theorem eq_nil_of_digits_eq_cons {ds : List Char} (h : digits n = '0' :: ds) : ds = [] := by
  by_contra hne
  have hd : ∀ c ∈ ds, c.isDigit = true := fun c hc =>
    isDigit_of_mem_digits (h ▸ List.mem_cons_of_mem _ hc)
  have hvalue : Nat.ofDigitChars 10 ds 0 = n := by
    rw [← Nat.ofDigitChars_ten_toDigits (n := n), ← digits, h, Nat.ofDigitChars_cons]
    rfl
  -- the other digits alone would be a numeral of the same number, so no shorter than all of them
  obtain ⟨zeros, hzeros⟩ := numeral_ofDigitChars hne hd
  have hlength := congrArg List.length hzeros
  rw [hvalue, h, List.length_append, List.length_cons] at hlength
  omega

theorem canonical_iff : Canonical cs n ↔ cs = digits n := by
  constructor
  · rintro ⟨hd, ⟨c, ds, rfl, hzero⟩, rfl⟩
    obtain ⟨zeros, hzeros⟩ := numeral_ofDigitChars (List.cons_ne_nil c ds) hd
    cases zeros with
    | zero => exact hzeros
    | succ zeros =>
      rw [List.replicate_succ, List.cons_append, List.cons.injEq] at hzeros
      have hnil := hzeros.2.symm.trans (hzero hzeros.1)
      exact absurd (List.append_eq_nil_iff.1 hnil).2 (digits_ne_nil _)
  · rintro rfl
    refine ⟨fun c => isDigit_of_mem_digits, ?_, Nat.ofDigitChars_ten_toDigits⟩
    obtain ⟨c, ds, hcs⟩ := List.exists_cons_of_ne_nil (digits_ne_nil n)
    refine ⟨c, ds, hcs, ?_⟩
    rintro rfl
    exact eq_nil_of_digits_eq_cons hcs

theorem digits_injective : Function.Injective digits := by
  intro m n h
  rw [← @Nat.ofDigitChars_ten_toDigits m, ← @Nat.ofDigitChars_ten_toDigits n]
  exact congrArg (Nat.ofDigitChars 10 · 0) h

/-- A number in front of something that is no digit is known by the text. -/
theorem digits_append_inj {m n : Nat} {xs ys : List Char}
    (hx : ∀ c, xs.head? = some c → c.isDigit = false)
    (hy : ∀ c, ys.head? = some c → c.isDigit = false)
    (h : digits m ++ xs = digits n ++ ys) : m = n ∧ xs = ys := by
  have hdigit : ∀ k : Nat, ∀ c ∈ digits k, c.isDigit = true := fun _ _ => isDigit_of_mem_digits
  obtain ⟨htake, hdrop⟩ := Text.cut_run xs (hdigit m) hx
  obtain ⟨htake', hdrop'⟩ := Text.cut_run ys (hdigit n) hy
  rw [h, htake'] at htake
  rw [h, hdrop'] at hdrop
  exact ⟨digits_injective htake.symm, hdrop.symm⟩

theorem nat?_eq_some_iff_value {cs : List Char} :
    nat? cs = some n ↔ cs ≠ [] ∧ (∀ c ∈ cs, c.isDigit = true) ∧ Nat.ofDigitChars 10 cs 0 = n := by
  simp [nat?, and_assoc]

/-- Without a sign in front a byte is read as any number is. -/
theorem unsigned?_of_isDigit {bound : Nat} {c : Char} {ds : List Char} (hc : c.isDigit = true) :
    unsigned? bound (c :: ds) = (nat? (c :: ds)).bind (below? bound) := by
  have hplus : c ≠ '+' := by
    rintro rfl
    cases hc
  simp [unsigned?, hplus]

/-- A number that is found and can be read as a byte is written the one way that there is. -/
theorem matched_and_unsigned?_iff {i : Index} :
    Matched cs ∧ unsigned? 256 cs = some i ↔ Canonical cs i := by
  constructor
  · rintro ⟨hm, hi⟩
    obtain ⟨c, ds, rfl, hc, hzero⟩ :
        ∃ c ds, cs = c :: ds ∧ c.isDigit = true ∧ (c = '0' → ds = []) := by
      rcases hm with rfl | ⟨c, ds, rfl, hc, hne, -⟩
      · exact ⟨'0', [], rfl, rfl, fun _ => rfl⟩
      · exact ⟨c, ds, rfl, hc, fun h => absurd h hne⟩
    rw [unsigned?_of_isDigit hc, Option.bind_eq_some_iff] at hi
    obtain ⟨n, hn, hi⟩ := hi
    rw [below?_eq_some_iff] at hi
    obtain ⟨-, hd, hvalue⟩ := nat?_eq_some_iff_value.1 hn
    exact ⟨hd, ⟨c, ds, rfl, hzero⟩, hvalue.trans hi⟩
  · rintro ⟨hd, ⟨c, ds, rfl, hzero⟩, hvalue⟩
    have hc := hd c List.mem_cons_self
    refine ⟨?_, ?_⟩
    · by_cases h0 : c = '0'
      · exact .inl (by rw [hzero h0, h0])
      · exact .inr ⟨c, ds, rfl, hc, h0, fun d hmem =>
          Text.isDecimal_of_isDigit (hd d (List.mem_cons_of_mem _ hmem))⟩
    · rw [unsigned?_of_isDigit hc, Option.bind_eq_some_iff]
      have hread := nat?_eq_some_iff_value.2 ⟨List.cons_ne_nil c ds, hd, hvalue⟩
      exact ⟨i, hread, below?_eq_some_iff.2 rfl⟩

end Decimal

/-! ## Names -/

/-- Spans are known by their texts, also those that descend. -/
theorem Span.chars_injective : Function.Injective Span.chars := by
  have hsingle : ∀ pe : Index, chars (.single pe) = Decimal.digits pe ++ [] := fun _ =>
    (List.append_nil _).symm
  intro s t h
  cases s with
  | single pe =>
    cases t with
    | single pe' => rw [Fin.ext (Decimal.digits_injective h)]
    | fused first' last' =>
      rw [hsingle] at h
      cases (Decimal.digits_append_inj (by simp) (by simp) h).2
  | fused first last =>
    cases t with
    | single pe' =>
      rw [hsingle] at h
      cases (Decimal.digits_append_inj (by simp) (by simp) h).2
    | fused first' last' =>
      obtain ⟨hfirst, hrest⟩ := Decimal.digits_append_inj (by simp) (by simp) h
      rw [Fin.ext hfirst, Fin.ext (Decimal.digits_injective (List.cons.inj hrest).2)]

namespace UnitId

/-- How a unit is written when its numbers are written as `num` says. -/
inductive Written (num : List Char → Index → Prop) : List Char → UnitId → Prop
  | whole {cs : List Char} {device : Index} :
    num cs device → Written num ('n' :: 'p' :: 'u' :: cs) ⟨device, none⟩
  | part {cs ss : List Char} {device : Index} {s : Span} :
    num cs device → s.Written num ss →
      Written num ('n' :: 'p' :: 'u' :: (cs ++ 'p' :: 'e' :: ss)) ⟨device, some s⟩

variable {u : UnitId} {cs : List Char}

theorem written_digits_iff :
    Written (fun cs i => cs = Decimal.digits i) cs u ↔ u.Proper ∧ cs = u.chars := by
  have hspan : ∀ (s : Span) ss, s.Written (fun cs i => cs = Decimal.digits i) ss ↔
      (∀ first last, s = .fused first last → first < last) ∧ ss = s.chars := by
    intro s ss
    rw [← spanOf?_index?_iff, spanOf?_eq_some_iff (fun _ _ => index?_eq_some_iff)]
    rintro cs i rfl
    exact fun c => Decimal.isDigit_of_mem_digits
  constructor
  · intro h
    cases h with
    | whole hdevice => exact ⟨by simp [Proper], by simp [chars, hdevice]⟩
    | part hdevice hs =>
      obtain ⟨hasc, rfl⟩ := (hspan _ _).1 hs
      exact ⟨by simpa [Proper] using hasc, by simp [chars, hdevice]⟩
  · rintro ⟨hp, rfl⟩
    obtain ⟨device, span⟩ := u
    cases span with
    | none =>
      have hchars : chars ⟨device, none⟩ = 'n' :: 'p' :: 'u' :: Decimal.digits device := by
        simp [chars]
      exact hchars ▸ .whole rfl
    | some s =>
      have hchars : chars ⟨device, some s⟩ =
          'n' :: 'p' :: 'u' :: (Decimal.digits device ++ 'p' :: 'e' :: s.chars) := by simp [chars]
      exact hchars ▸ .part rfl ((hspan _ _).2 ⟨by simpa [Proper] using hp, rfl⟩)

/-- Texts are read as their numbers are, if these are written one way only. -/
theorem ofName?_iff_written {num : List Char → Index → Prop}
    (hnum : ∀ cs i, num cs i ↔ cs = Decimal.digits i) {name : String} :
    ofName? name = some u ↔ Written num name.toList u := by
  obtain rfl : num = fun (cs : List Char) (i : Index) => cs = Decimal.digits i :=
    funext fun cs => funext fun i => propext (hnum cs i)
  rw [ofName?, ofChars?_eq_some_iff, written_digits_iff]

/-- Units are known by their names, also those with a range that descends. -/
theorem name_injective : Function.Injective UnitId.name := by
  intro u v h
  obtain ⟨device, span⟩ := u
  obtain ⟨device', span'⟩ := v
  have hchars := String.ofList_injective h
  simp only [chars, List.append_assoc, List.append_cancel_left_eq] at hchars
  cases span with
  | none =>
    cases span' with
    | none =>
      obtain ⟨hdevice, -⟩ := Decimal.digits_append_inj (by simp) (by simp) hchars
      rw [Fin.ext hdevice]
    | some s' => cases (Decimal.digits_append_inj (by simp) (by simp) hchars).2
  | some s =>
    cases span' with
    | none => cases (Decimal.digits_append_inj (by simp) (by simp) hchars).2
    | some s' =>
      obtain ⟨hdevice, hspan⟩ := Decimal.digits_append_inj (by simp) (by simp) hchars
      rw [Fin.ext hdevice, Span.chars_injective (List.append_cancel_left hspan)]

theorem proper_iff :
    u.Proper ↔ ¬ ∃ first last, u.span = some (.fused first last) ∧ last ≤ first := by
  simp only [Proper, not_exists, not_and, Fin.not_le]

/-- **Names and proper units, one to one.** A text is read as a unit exactly when it is the name of
that unit, and the unit is not a range that fails to ascend. What is read are the texts in which the
pattern finds numbers that can be read as bytes. They are the texts in which each number is given in
ASCII digits, without `0` in front, and is below 256, and ranges ascend. -/
theorem name_bijOn :
    (∀ (name : String) (u : UnitId), ofName? name = some u ↔
      name = u.name ∧ ¬ ∃ first last, u.span = some (.fused first last) ∧ last ≤ first) ∧
    (∀ (name : String) (u : UnitId), ofName? name = some u ↔
      Written (fun cs i => Decimal.Matched cs ∧ Decimal.unsigned? 256 cs = some i) name.toList u) ∧
    (∀ (name : String) (u : UnitId), ofName? name = some u ↔
      Written (fun cs i => Decimal.Canonical cs i) name.toList u) ∧
    Set.BijOn UnitId.name {u | u.Proper} {name | (ofName? name).isSome} := by
  refine ⟨fun name u => ?_, fun name u => ofName?_iff_written fun cs i => ?_,
    fun name u => ofName?_iff_written fun cs i => Decimal.canonical_iff, ?_, ?_, ?_⟩
  · rw [ofName?_eq_some_iff, proper_iff, and_comm]
  · rw [Decimal.matched_and_unsigned?_iff, Decimal.canonical_iff]
  · intro u hu
    exact Option.isSome_iff_exists.2 ⟨u, ofName?_eq_some_iff.2 ⟨hu, rfl⟩⟩
  · intro u hu v hv he
    have hread : ofName? u.name = some v := ofName?_eq_some_iff.2 ⟨hv, he⟩
    rw [ofName?_eq_some_iff.2 ⟨hu, rfl⟩, Option.some.injEq] at hread
    exact hread
  · intro name hname
    obtain ⟨u, hu⟩ := Option.isSome_iff_exists.1 hname
    obtain ⟨hp, rfl⟩ := ofName?_eq_some_iff.1 hu
    exact ⟨u, hp, rfl⟩

end UnitId
end NpuBroker

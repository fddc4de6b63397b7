import NpuBroker.Proofs.Pieces
import NpuBroker.UnitId
import Mathlib.Data.List.Induction

/-!
# Names

How numbers, spans and units are written. A reader answers exactly when a text is written that
way, and then with what is written.

* `Decimal.nat?_eq_some_iff`: a number is its digits, behind any number of zeros.
* `Decimal.unsigned?_eq_some_iff`: where a sign may stand in front, a `+` makes no difference.
* `UnitId.spanOf?_eq_some_iff`: a span is a number, or two with a `-` between them that ascend.
* `UnitId.ofChars?_eq_some_iff`: every proper unit has one name, and no other text is a name.
-/
namespace NpuBroker

/-! ## Numbers -/

namespace Decimal

/-- The digits of `n`, behind any number of zeros. -/
def Numeral (cs : List Char) (n : Nat) : Prop :=
  ∃ zeros, cs = List.replicate zeros '0' ++ digits n

theorem Numeral.isDigit {cs : List Char} {n : Nat} (h : Numeral cs n) :
    ∀ c ∈ cs, c.isDigit = true := by
  obtain ⟨zeros, rfl⟩ := h
  intro c hc
  rcases List.mem_append.1 hc with hc | hc
  · rw [List.eq_of_mem_replicate hc]
    rfl
  · exact isDigit_of_mem_digits hc

theorem Numeral.ne_nil {cs : List Char} {n : Nat} (h : Numeral cs n) : cs ≠ [] := by
  obtain ⟨zeros, rfl⟩ := h
  simp [digits_ne_nil]

theorem numeral_digits (n : Nat) : Numeral (digits n) n := ⟨0, rfl⟩

theorem exists_digitChar {c : Char} (hc : c.isDigit = true) : ∃ d < 10, c = Nat.digitChar d := by
  have h := Char.isDigit_iff_toNat.1 hc
  have h0 : '0'.toNat = 48 := rfl
  have h9 : '9'.toNat = 57 := rfl
  refine ⟨c.toNat - 48, by omega, Char.toNat_inj.1 ?_⟩
  rw [Nat.toNat_digitChar_of_lt_ten (by omega)]
  omega

/-- A number read from the left is written from the left: one more digit behind a numeral. -/
theorem Numeral.snoc {ds : List Char} {n d : Nat} (h : Numeral ds n) (hd : d < 10) :
    Numeral (ds ++ [Nat.digitChar d]) (10 * n + d) := by
  obtain ⟨zeros, rfl⟩ := h
  have hone : digits d = [Nat.digitChar d] := Nat.toDigits_of_lt_base hd
  rcases Nat.eq_zero_or_pos n with rfl | hn
  · refine ⟨zeros + 1, ?_⟩
    have h0 : digits 0 = ['0'] := Nat.toDigits_zero 10
    rw [h0, Nat.mul_zero, Nat.zero_add, hone, List.replicate_succ']
  · refine ⟨zeros, ?_⟩
    have happ : digits n ++ digits d = digits (10 * n + d) :=
      Nat.toDigits_append_toDigits (by decide) hn hd
    rw [← happ, hone, List.append_assoc]

theorem numeral_ofDigitChars {cs : List Char} (hne : cs ≠ []) (hd : ∀ c ∈ cs, c.isDigit = true) :
    Numeral cs (Nat.ofDigitChars 10 cs 0) := by
  induction cs using List.reverseRecOn with
  | nil => exact absurd rfl hne
  | append_singleton ds c ih =>
    rw [List.forall_mem_append, List.forall_mem_singleton] at hd
    obtain ⟨d, hlt, rfl⟩ := exists_digitChar hd.2
    rw [Nat.ofDigitChars_append, Nat.ofDigitChars_cons_digitChar_of_lt_ten hlt,
      Nat.ofDigitChars_nil]
    by_cases hnil : ds = []
    · subst hnil
      have hone : digits d = [Nat.digitChar d] := Nat.toDigits_of_lt_base hlt
      exact ⟨0, by simp [hone]⟩
    · exact (ih hnil hd.1).snoc hlt

theorem nat?_eq_some_iff {cs : List Char} {n : Nat} : nat? cs = some n ↔ Numeral cs n := by
  constructor
  · intro h
    unfold nat? at h
    split at h
    · rename_i hcs
      rw [Option.some.injEq] at h
      exact h ▸ numeral_ofDigitChars hcs.1 (List.all_eq_true.1 hcs.2)
    · cases h
  · intro h
    rw [nat?, if_pos ⟨h.ne_nil, List.all_eq_true.2 h.isDigit⟩]
    obtain ⟨zeros, rfl⟩ := h
    rw [Nat.ofDigitChars_append, Nat.ofDigitChars_replicate_zero, Nat.mul_zero, digits,
      Nat.ofDigitChars_ten_toDigits]

/-- Behind a sign or without one. -/
theorem unsigned?_eq_some_iff {bound : Nat} {cs : List Char} {x : Fin bound} :
    unsigned? bound cs = some x ↔ ∃ ds, (cs = ds ∨ cs = '+' :: ds) ∧ Numeral ds x := by
  unfold unsigned?
  simp only [Option.bind_eq_some_iff, nat?_eq_some_iff, below?_eq_some_iff]
  constructor
  · rintro ⟨n, hn, rfl⟩
    split at hn
    · rename_i hplus
      obtain ⟨ds, rfl⟩ := List.head?_eq_some_iff.1 hplus
      exact ⟨ds, .inr rfl, hn⟩
    · exact ⟨cs, .inl rfl, hn⟩
  · rintro ⟨ds, rfl | rfl, hds⟩
    · have hplus : cs.head? ≠ some '+' := by
        intro hhead
        have hdigit := hds.isDigit _ (List.mem_of_head? hhead)
        cases hdigit
      exact ⟨x, by rwa [if_neg hplus], rfl⟩
    · exact ⟨x, by simpa using hds, rfl⟩

end Decimal

/-! ## Spans -/

/-- How a span is written when its numbers are written as `num` says. -/
inductive Span.Written (num : List Char → Index → Prop) : List Char → Span → Prop
  | single {cs : List Char} {pe : Index} : num cs pe → Written num cs (.single pe)
  | fused {as bs : List Char} {first last : Index} :
    num as first → num bs last → first < last → Written num (as ++ '-' :: bs) (.fused first last)

theorem Span.Written.isDigit_or {num : List Char → Index → Prop}
    (hd : ∀ cs i, num cs i → ∀ c ∈ cs, c.isDigit = true) {cs : List Char} {s : Span}
    (h : s.Written num cs) : ∀ c ∈ cs, c.isDigit = true ∨ c = '-' := by
  cases h with
  | single hpe => exact fun c hc => .inl (hd _ _ hpe c hc)
  | fused hfirst hlast _ =>
    rw [List.forall_mem_append, List.forall_mem_cons]
    exact ⟨fun c hc => .inl (hd _ _ hfirst c hc), .inr rfl,
      fun c hc => .inl (hd _ _ hlast c hc)⟩

theorem UnitId.mem_chars (u : UnitId) : ∀ c ∈ u.chars, c.isAlphanum = true ∨ c = '-' := by
  have hdigit : ∀ n : Nat, ∀ c ∈ Decimal.digits n, c.isAlphanum = true := fun n c hc => by
    rw [Char.isAlphanum, Decimal.isDigit_of_mem_digits hc, Bool.or_true]
  obtain ⟨device, span⟩ := u
  simp only [chars, List.forall_mem_append]
  refine ⟨⟨by simp, fun c hc => .inl (hdigit _ c hc)⟩, ?_⟩
  cases span with
  | none => simp
  | some s =>
    simp only [List.forall_mem_append]
    refine ⟨by simp, ?_⟩
    cases s with
    | single pe => exact fun c hc => .inl (hdigit _ c hc)
    | fused first last =>
      simp only [Span.chars, List.forall_mem_append, List.forall_mem_cons]
      exact ⟨fun c hc => .inl (hdigit _ c hc), by simp, fun c hc => .inl (hdigit _ c hc)⟩

namespace UnitId

theorem index?_eq_some_iff {cs : List Char} {i : Index} :
    index? cs = some i ↔ cs = Decimal.digits i := by
  simp only [index?, Option.bind_eq_some_iff, Decimal.canonical?_eq_some_iff,
    Decimal.below?_eq_some_iff]
  constructor
  · rintro ⟨n, rfl, rfl⟩
    rfl
  · intro h
    exact ⟨i, h, rfl⟩

theorem spanOf?_eq_some_iff {bound? : List Char → Option Index} {num : List Char → Index → Prop}
    (hb : ∀ cs i, bound? cs = some i ↔ num cs i)
    (hd : ∀ cs i, num cs i → ∀ c ∈ cs, c.isDigit = true) {cs : List Char} {s : Span} :
    spanOf? bound? cs = some s ↔ s.Written num cs := by
  constructor
  · intro h
    simp only [spanOf?, Option.bind_eq_bind, Option.bind_eq_some_iff, hb] at h
    obtain ⟨first, hfirst, h⟩ := h
    have hcs := List.takeWhile_append_dropWhile (p := Char.isDigit) (l := cs)
    split at h
    · rename_i hnil
      simp only [pure, Option.some.injEq] at h
      rw [hnil, List.append_nil] at hcs
      rw [hcs] at hfirst
      exact h ▸ .single hfirst
    · rename_i bs hdash
      simp only [Option.bind_eq_some_iff, hb, Span.ascending?] at h
      obtain ⟨last, hlast, h⟩ := h
      split at h
      · rename_i hlt
        rw [Option.some.injEq] at h
        rw [hdash] at hcs
        rw [← hcs, ← h]
        exact .fused hfirst hlast hlt
      · cases h
    · cases h
  · intro h
    cases h with
    | single hpe =>
      obtain ⟨htake, hdrop⟩ := Text.cut_run [] (hd _ _ hpe) (by simp)
      rw [List.append_nil] at htake hdrop
      simp [spanOf?, htake, hdrop, (hb _ _).2 hpe]
    | @fused as bs first last hfirst hlast hlt =>
      obtain ⟨htake, hdrop⟩ := Text.cut_run ('-' :: bs) (hd _ _ hfirst) (by simp)
      simp [spanOf?, htake, hdrop, (hb _ _).2 hfirst, (hb _ _).2 hlast, Span.ascending?, hlt]

/-- When numbers have one spelling each, so does a span that ascends. -/
theorem spanOf?_index?_iff {cs : List Char} {s : Span} :
    spanOf? index? cs = some s ↔
      (∀ first last, s = .fused first last → first < last) ∧ cs = s.chars := by
  have hdigit : ∀ (cs : List Char) (i : Index), cs = Decimal.digits i →
      ∀ c ∈ cs, c.isDigit = true := by
    rintro cs i rfl
    exact fun c => Decimal.isDigit_of_mem_digits
  rw [spanOf?_eq_some_iff (fun _ _ => index?_eq_some_iff) hdigit]
  constructor
  · intro h
    cases h with
    | single hpe => simp [Span.chars, hpe]
    | fused hfirst hlast hlt => simp [Span.chars, hfirst, hlast, hlt]
  · rintro ⟨hasc, rfl⟩
    cases s with
    | single pe => exact .single rfl
    | fused first last => exact .fused rfl rfl (hasc first last rfl)

/-! ## Units -/

/-- A unit whose range, if it is one, ascends. -/
def Proper (u : UnitId) : Prop :=
  ∀ first last, u.span = some (.fused first last) → first < last

theorem Proper.first_le_last {u : UnitId} (h : u.Proper) {s : Span}
    (hs : u.span = some s) : s.first ≤ s.last := by
  cases s with
  | single pe => exact Fin.le_refl pe
  | fused first last => exact Fin.le_of_lt (h first last hs)

/-- A proper unit contends with itself. -/
theorem Proper.overlaps_self {u : UnitId} (h : u.Proper) : u.overlaps u = true := by
  unfold overlaps
  cases hs : u.span with
  | none => simp
  | some s => simp [Span.overlaps, h.first_le_last hs]

/-- **One name.** A text is read as a unit exactly when it is the name of that unit. -/
theorem ofChars?_eq_some_iff {cs : List Char} {u : UnitId} :
    ofChars? cs = some u ↔ u.Proper ∧ cs = u.chars := by
  constructor
  · intro h
    unfold ofChars? at h
    split at h
    · rename_i rest
      have hrest := List.takeWhile_append_dropWhile (p := Char.isDigit) (l := rest)
      simp only [Option.bind_eq_bind, Option.bind_eq_some_iff, index?_eq_some_iff] at h
      obtain ⟨device, hdevice, h⟩ := h
      rw [hdevice] at hrest
      split at h
      · rename_i hnil
        simp only [pure, Option.some.injEq] at h
        subst h
        rw [hnil] at hrest
        exact ⟨by simp [Proper], by rw [← hrest]; rfl⟩
      · rename_i cs hpe
        simp only [Option.bind_eq_some_iff, spanOf?_index?_iff, pure, Option.some.injEq] at h
        obtain ⟨s, ⟨hasc, rfl⟩, rfl⟩ := h
        rw [hpe] at hrest
        exact ⟨by simpa [Proper] using hasc, by rw [← hrest]; rfl⟩
      · cases h
    · cases h
  · rintro ⟨hp, rfl⟩
    obtain ⟨device, span⟩ := u
    have hd : ∀ c ∈ Decimal.digits device.val, c.isDigit = true :=
      fun c => Decimal.isDigit_of_mem_digits
    cases span with
    | none =>
      obtain ⟨htake, hdrop⟩ := Text.cut_run [] hd (by simp)
      simp only [chars, ofChars?, List.cons_append, List.nil_append, htake, hdrop,
        index?_eq_some_iff.2 rfl]
      rfl
    | some s =>
      have hs : spanOf? index? s.chars = some s :=
        spanOf?_index?_iff.2 ⟨by simpa [Proper] using hp, rfl⟩
      obtain ⟨htake, hdrop⟩ := Text.cut_run ('p' :: 'e' :: s.chars) hd (by simp)
      simp only [chars, ofChars?, List.cons_append, List.nil_append, htake, hdrop,
        index?_eq_some_iff.2 rfl]
      simp [hs]

theorem ofName?_eq_some_iff {name : String} {u : UnitId} :
    ofName? name = some u ↔ u.Proper ∧ name = u.name := by
  rw [ofName?, ofChars?_eq_some_iff, UnitId.name, String.ext_iff, String.toList_ofList]

end UnitId
end NpuBroker

import NpuBroker.Utf8
import Mathlib.Logic.Function.Basic
import Mathlib.Tactic.SplitIfs

/-!
# Bytes of a text

A byte string is read as a text exactly when it is the bytes of that text. The first byte of a
character tells how many follow and from where to where the next one may go; these bounds are what
keeps out long spellings, surrogates and numbers that are no characters.

* `follow?_eq_some_iff`: the first bytes, and what may follow each.
* `encode_scalar`, `exists_of_encode`: such bytes are those of one character, and those of any
  character are such bytes.
* `decode?_eq_some_iff`: reading against writing.
-/
namespace NpuBroker.Utf8

/-! ## Continuation bytes -/

/-- `n` bytes, the first from `lo` to `hi` and the others continuation bytes. -/
inductive Runs : Nat → Nat → Nat → List UInt8 → Prop
  | nil {lo hi : Nat} : Runs 0 lo hi []
  | cons {n lo hi : Nat} {b : UInt8} {bs : List UInt8} :
    lo ≤ b.toNat → b.toNat ≤ hi → Runs n 0x80 0xBF bs → Runs (n + 1) lo hi (b :: bs)

variable {n lo hi : Nat} {more bs : List UInt8}

theorem Runs.length_eq (h : Runs n lo hi more) : more.length = n := by
  induction h with
  | nil => rfl
  | cons _ _ _ ih => rw [List.length_cons, ih]

theorem Runs.run_append (h : Runs n lo hi more) (rest : List UInt8) :
    run n lo hi (more ++ rest) = more := by
  induction h with
  | nil => rw [List.nil_append, run.eq_def]
  | cons hlo hhi _ ih => rw [List.cons_append, run, if_pos ⟨hlo, hhi⟩, ih]

/-- A run that is as long as it may be. -/
theorem runs_run (h : (run n lo hi bs).length = n) :
    Runs n lo hi (run n lo hi bs) ∧ bs = run n lo hi bs ++ bs.drop n := by
  fun_induction run n lo hi bs with
  | case1 n lo hi b bs hb ih =>
    rw [List.length_cons, Nat.add_right_cancel_iff] at h
    obtain ⟨hruns, hbs⟩ := ih h
    exact ⟨.cons hb.1 hb.2 hruns, by rw [List.cons_append, List.drop_succ_cons, ← hbs]⟩
  | case2 n lo hi b bs hb => simp at h
  | case3 n lo hi bs hcons =>
    cases n with
    | zero => exact ⟨.nil, by simp⟩
    | succ n => simp at h

/-! ## Characters -/

theorem follow?_eq_some_iff {b : Nat} : follow? b = some (n, lo, hi) ↔
    (n = 1 ∧ (0xC2 ≤ b ∧ b ≤ 0xDF) ∧ lo = 0x80 ∧ hi = 0xBF) ∨
    (n = 2 ∧ (0xE0 ≤ b ∧ b ≤ 0xEF) ∧ lo = (if b = 0xE0 then 0xA0 else 0x80) ∧
      hi = if b = 0xED then 0x9F else 0xBF) ∨
    (n = 3 ∧ (0xF0 ≤ b ∧ b ≤ 0xF4) ∧ lo = (if b = 0xF0 then 0x90 else 0x80) ∧
      hi = if b = 0xF4 then 0x8F else 0xBF) := by
  unfold follow?
  split_ifs <;> simp only [Option.some.injEq, Prod.mk.injEq, false_iff] <;> omega

theorem not_ascii_of_follow? {b : Nat} (h : follow? b = some (n, lo, hi)) : ¬ b < 0x80 := by
  have := follow?_eq_some_iff.1 h
  omega

/-- Numbers but those of surrogates are characters. -/
theorem val_ofNat {v : Nat} (hv : v < 0xD800 ∨ 0xDFFF < v ∧ v < 0x110000) :
    (Char.ofNat v).val.toNat = v := by
  have hvalid : v.isValidChar := hv
  rw [Char.ofNat, dif_pos hvalid]
  rfl

theorem ofNat_eq_of_mod {k : Nat} {b : UInt8} (h : k % 256 = b.toNat) : UInt8.ofNat k = b := by
  rw [← UInt8.toNat_inj, UInt8.toNat_ofNat', h]

/-- A first byte and as many as it asks for are the bytes of their character. -/
theorem encode_scalar {b : UInt8} (hf : follow? b.toNat = some (n, lo, hi))
    (hr : Runs n lo hi more) : String.utf8EncodeChar (scalar b.toNat more) = b :: more := by
  rcases follow?_eq_some_iff.1 hf with
    ⟨rfl, hb, rfl, rfl⟩ | ⟨rfl, hb, hlo, hhi⟩ | ⟨rfl, hb, hlo, hhi⟩
  · obtain _ | @⟨_, _, _, x, _, hx, hx', _ | _⟩ := hr
    have hscalar : scalar b.toNat [x] =
        Char.ofNat ((b.toNat - 0xC0) * 64 + (x.toNat - 0x80)) := rfl
    rw [hscalar, String.utf8EncodeChar, val_ofNat (by omega), if_neg (by omega),
      if_pos (by omega), @ofNat_eq_of_mod _ b (by omega), @ofNat_eq_of_mod _ x (by omega)]
  · obtain _ | @⟨_, _, _, x, _, hx, hx', _ | @⟨_, _, _, y, _, hy, hy', _ | _⟩⟩ := hr
    have hscalar : scalar b.toNat [x, y] = Char.ofNat
        (((b.toNat - 0xE0) * 64 + (x.toNat - 0x80)) * 64 + (y.toNat - 0x80)) := rfl
    -- the bounds on the second byte: not a spelling of two bytes, and no surrogate
    have hbounds : 0x80 ≤ x.toNat ∧ x.toNat ≤ 0xBF ∧
        0x20 ≤ (b.toNat - 0xE0) * 64 + (x.toNat - 0x80) ∧
        ((b.toNat - 0xE0) * 64 + (x.toNat - 0x80) < 0x360 ∨
          0x380 ≤ (b.toNat - 0xE0) * 64 + (x.toNat - 0x80)) := by
      split_ifs at hlo hhi <;> omega
    clear hlo hhi
    rw [hscalar, String.utf8EncodeChar, val_ofNat (by omega), if_neg (by omega),
      if_neg (by omega), if_pos (by omega), @ofNat_eq_of_mod _ b (by omega),
      @ofNat_eq_of_mod _ x (by omega), @ofNat_eq_of_mod _ y (by omega)]
  · obtain _ | @⟨_, _, _, x, _, hx, hx', _ | @⟨_, _, _, y, _, hy, hy',
      _ | @⟨_, _, _, z, _, hz, hz', _ | _⟩⟩⟩ := hr
    have hscalar : scalar b.toNat [x, y, z] = Char.ofNat
        ((((b.toNat - 0xF0) * 64 + (x.toNat - 0x80)) * 64 + (y.toNat - 0x80)) * 64 +
          (z.toNat - 0x80)) := rfl
    -- not a spelling of three bytes, and not past the last character
    have hbounds : 0x80 ≤ x.toNat ∧ x.toNat ≤ 0xBF ∧
        0x10 ≤ (b.toNat - 0xF0) * 64 + (x.toNat - 0x80) ∧
        (b.toNat - 0xF0) * 64 + (x.toNat - 0x80) < 0x110 := by
      split_ifs at hlo hhi <;> omega
    clear hlo hhi
    rw [hscalar, String.utf8EncodeChar, val_ofNat (by omega), if_neg (by omega),
      if_neg (by omega), if_neg (by omega), @ofNat_eq_of_mod _ b (by omega),
      @ofNat_eq_of_mod _ x (by omega), @ofNat_eq_of_mod _ y (by omega),
      @ofNat_eq_of_mod _ z (by omega)]

/-- The bytes of a character are one of ASCII, or a first byte and as many as it asks for. -/
theorem exists_of_encode (c : Char) :
    (c.toNat < 0x80 ∧ String.utf8EncodeChar c = [UInt8.ofNat c.toNat]) ∨
    ∃ b more n lo hi, String.utf8EncodeChar c = b :: more ∧ follow? b.toNat = some (n, lo, hi) ∧
      Runs n lo hi more := by
  have hvalid : c.val.toNat < 0xD800 ∨ 0xDFFF < c.val.toNat ∧ c.val.toNat < 0x110000 := c.valid
  have hc : c.toNat = c.val.toNat := rfl
  rw [hc, String.utf8EncodeChar]
  generalize c.val.toNat = v at hvalid
  split
  · exact .inl ⟨by omega, rfl⟩
  refine .inr ?_
  split
  · refine ⟨_, _, _, _, _, rfl, follow?_eq_some_iff.2 (.inl ⟨rfl, ?_, rfl, rfl⟩),
      .cons ?_ ?_ .nil⟩
    all_goals
      simp only [UInt8.toNat_ofNat']
      omega
  split
  · refine ⟨_, _, _, _, _, rfl, follow?_eq_some_iff.2 (.inr (.inl ⟨rfl, ?_, rfl, rfl⟩)),
      .cons ?_ ?_ (.cons ?_ ?_ .nil)⟩
    all_goals simp only [UInt8.toNat_ofNat']
    · omega
    · split_ifs <;> omega
    · split_ifs <;> omega
    all_goals omega
  · refine ⟨_, _, _, _, _, rfl, follow?_eq_some_iff.2 (.inr (.inr ⟨rfl, ?_, rfl, rfl⟩)),
      .cons ?_ ?_ (.cons ?_ ?_ (.cons ?_ ?_ .nil))⟩
    all_goals simp only [UInt8.toNat_ofNat']
    · omega
    · split_ifs <;> omega
    · split_ifs <;> omega
    all_goals omega

theorem utf8EncodeChar_injective : Function.Injective String.utf8EncodeChar := by
  intro c d hcd
  have hbytes : [c].utf8Encode = [d].utf8Encode := by
    rw [List.utf8Encode_singleton, List.utf8Encode_singleton, hcd]
  have hstring : String.ofList [c] = String.ofList [d] := by
    rw [← String.toByteArray_inj, String.toByteArray_ofList, String.toByteArray_ofList, hbytes]
  simpa using hstring

/-! ## Texts -/

theorem encode_cons (c : Char) (cs : List Char) :
    encode (c :: cs) = String.utf8EncodeChar c ++ encode cs := List.flatMap_cons

theorem pieces_encodeChar (c : Char) (rest : List UInt8) :
    pieces (String.utf8EncodeChar c ++ rest) = some c :: pieces rest := by
  rcases exists_of_encode c with ⟨hlow, hc⟩ | ⟨b, more, n, lo, hi, hc, hf, hr⟩
  · have hb : (UInt8.ofNat c.toNat).toNat = c.toNat := by
      rw [UInt8.toNat_ofNat']
      omega
    rw [hc, List.singleton_append, pieces, hb, if_pos hlow, Char.ofNat_toNat]
  · have hscalar : scalar b.toNat more = c :=
      utf8EncodeChar_injective ((encode_scalar hf hr).trans hc.symm)
    rw [hc, List.cons_append, pieces, if_neg (not_ascii_of_follow? hf), hf]
    dsimp only
    rw [hr.run_append, if_pos hr.length_eq, List.drop_left, hscalar]

theorem mapM_cons_eq_some_iff {p : Option Char} {ps : List (Option Char)} {cs : List Char} :
    (p :: ps).mapM id = some cs ↔ ∃ c ds, p = some c ∧ ps.mapM id = some ds ∧ cs = c :: ds := by
  simp only [List.mapM_cons, id_eq, Option.bind_eq_bind, Option.pure_def,
    Option.bind_eq_some_iff, Option.some.injEq, exists_and_left, eq_comm (a := cs)]

/-- **Reading against writing.** Bytes are read as a text exactly when they are the bytes of it. -/
theorem decode?_eq_some_iff {cs : List Char} : decode? bs = some cs ↔ bs = encode cs := by
  unfold decode?
  constructor
  · intro h
    fun_induction pieces bs generalizing cs with
    | case1 =>
      cases h
      rfl
    | case2 b bs hlow ih =>
      obtain ⟨c, ds, hc, hds, rfl⟩ := mapM_cons_eq_some_iff.1 h
      cases hc
      have hb : String.utf8EncodeChar (Char.ofNat b.toNat) = [b] := by
        rw [String.utf8EncodeChar, val_ofNat (by omega), if_pos (by omega), UInt8.ofNat_toNat]
      rw [encode_cons, hb, List.singleton_append, ih hds]
    | case3 b bs hlow hf ih =>
      obtain ⟨c, ds, hc, -⟩ := mapM_cons_eq_some_iff.1 h
      cases hc
    | case4 b bs hlow n lo hi hf more =>
      rename_i ih
      obtain ⟨c, ds, hc, hds, rfl⟩ := mapM_cons_eq_some_iff.1 h
      split at hc
      · rename_i hlength
        cases hc
        obtain ⟨hr, hbs⟩ := runs_run hlength
        rw [hlength] at ih hds
        rw [encode_cons, encode_scalar hf hr, ← ih hds, List.cons_append, ← hbs]
      · cases hc
  · rintro rfl
    induction cs with
    | nil =>
      rw [encode, List.flatMap_nil, pieces, List.mapM_nil]
      rfl
    | cons c cs ih =>
      rw [encode_cons, pieces_encodeChar, mapM_cons_eq_some_iff]
      exact ⟨c, cs, rfl, ih, rfl⟩

theorem decode?_encode (cs : List Char) : decode? (encode cs) = some cs :=
  decode?_eq_some_iff.2 rfl

end NpuBroker.Utf8

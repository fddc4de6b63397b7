/-!
# UTF-8

Bytes as text, strictly or with U+FFFD for what is no text. Both readers go over the same
`pieces`, so they differ only in what they make of a bad one.

* `lossy_eq_of_decode?`: on well-formed bytes the two readers agree.
-/
namespace NpuBroker.Utf8

/-- The bytes of a text. -/
def encode (cs : List Char) : List UInt8 := cs.flatMap String.utf8EncodeChar

/-- What may follow a first byte: how many more bytes, and the range of the next one. -/
def follow? (b : Nat) : Option (Nat × Nat × Nat) :=
  if 0xC2 ≤ b ∧ b ≤ 0xDF then some (1, 0x80, 0xBF)
  else if b = 0xE0 then some (2, 0xA0, 0xBF)
  else if b = 0xED then some (2, 0x80, 0x9F)
  else if 0xE1 ≤ b ∧ b ≤ 0xEF then some (2, 0x80, 0xBF)
  else if b = 0xF0 then some (3, 0x90, 0xBF)
  else if 0xF1 ≤ b ∧ b ≤ 0xF3 then some (3, 0x80, 0xBF)
  else if b = 0xF4 then some (3, 0x80, 0x8F)
  else none

/-- The longest run of at most `n` bytes, the first from `lo` to `hi` and the others
continuation bytes. -/
def run : Nat → Nat → Nat → List UInt8 → List UInt8
  | n + 1, lo, hi, b :: bs =>
    if lo ≤ b.toNat ∧ b.toNat ≤ hi then b :: run n 0x80 0xBF bs else []
  | _, _, _, _ => []

/-- The code point of a first byte with `n` bytes after it. -/
def scalar (first : Nat) (more : List UInt8) : Char :=
  let head := match more.length with
    | 1 => first - 0xC0
    | 2 => first - 0xE0
    | _ => first - 0xF0
  Char.ofNat (more.foldl (fun n b => n * 64 + (b.toNat - 0x80)) head)

/-- The characters of a byte string, with `none` for each longest bad start of one. -/
def pieces : List UInt8 → List (Option Char)
  | [] => []
  | b :: bs =>
    if b.toNat < 0x80 then some (Char.ofNat b.toNat) :: pieces bs
    else match follow? b.toNat with
      | none => none :: pieces bs
      | some (n, lo, hi) =>
        let more := run n lo hi bs
        (if more.length = n then some (scalar b.toNat more) else none) ::
          pieces (bs.drop more.length)
  termination_by bs => bs.length
  decreasing_by
    all_goals
      simp only [List.length_cons, List.length_drop]
      omega

/-- The text, if all of it is well formed. -/
def decode? (bs : List UInt8) : Option (List Char) := (pieces bs).mapM id

/-- The text, with U+FFFD for each longest bad start of a character. -/
def lossy (bs : List UInt8) : List Char := (pieces bs).map (·.getD '\uFFFD')

theorem lossy_eq_of_decode? {bs : List UInt8} {cs : List Char} (h : decode? bs = some cs) :
    lossy bs = cs := by
  have key : ∀ (ps : List (Option Char)) (cs : List Char), ps.mapM id = some cs →
      ps.map (·.getD '\uFFFD') = cs := by
    intro ps
    induction ps with
    | nil => simp
    | cons p ps ih =>
      intro cs h
      simp only [List.mapM_cons, id_eq, Option.bind_eq_bind, Option.pure_def,
        Option.bind_eq_some_iff, Option.some.injEq] at h
      obtain ⟨c, rfl, ds, hds, rfl⟩ := h
      simp [ih ds hds]
  exact key _ _ h

end NpuBroker.Utf8

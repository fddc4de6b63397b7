/-!
# Decimal numbers

Naturals and integers as ASCII digits. `digits` writes the one spelling without leading zeros;
`nat?` reads any, `canonical?` only that one.

* `nat?_digits`, `canonical?_eq_some_iff`: the readers against the writer.
-/
namespace NpuBroker.Decimal

/-- `n` without leading zeros. -/
def digits (n : Nat) : List Char := Nat.toDigits 10 n

def text (n : Nat) : String := String.ofList (digits n)

/-- A non-empty run of ASCII digits, leading zeros allowed. -/
def nat? (cs : List Char) : Option Nat :=
  if cs ≠ [] ∧ cs.all Char.isDigit then some (Nat.ofDigitChars 10 cs 0) else none

/-- The spelling without leading zeros only. -/
def canonical? (cs : List Char) : Option Nat :=
  (nat? cs).bind fun n => if digits n = cs then some n else none

/-- `x` itself, when it is below `bound`. -/
def below? (bound x : Nat) : Option (Fin bound) := if h : x < bound then some ⟨x, h⟩ else none

/-- An optional `+`, then digits, below `bound`. -/
def unsigned? (bound : Nat) (cs : List Char) : Option (Fin bound) :=
  (nat? (if cs.head? = some '+' then cs.tail else cs)).bind (below? bound)

/-- An optional sign, then digits. -/
def int? : List Char → Option Int
  | '-' :: cs => (nat? cs).map fun n => -(n : Int)
  | '+' :: cs => (nat? cs).map fun n => (n : Int)
  | cs => (nat? cs).map fun n => (n : Int)

/-- A signed number of 64 bits. -/
def int64? (cs : List Char) : Option Int :=
  (int? cs).filter fun n => -Int.pow 2 63 ≤ n && n < Int.pow 2 63

/-- `n` with a `-` when it is negative. -/
def signed : Int → List Char
  | .ofNat n => digits n
  | .negSucc n => '-' :: digits (n + 1)

theorem digits_ne_nil (n : Nat) : digits n ≠ [] := Nat.toDigits_ne_nil

theorem isDigit_of_mem_digits {n : Nat} {c : Char} (h : c ∈ digits n) : c.isDigit = true :=
  Nat.isDigit_of_mem_toDigits (by decide) (by decide) h

@[simp] theorem all_digits (n : Nat) : (digits n).all Char.isDigit = true :=
  List.all_eq_true.2 fun _ h => isDigit_of_mem_digits h

@[simp] theorem nat?_digits (n : Nat) : nat? (digits n) = some n := by
  rw [nat?, if_pos ⟨digits_ne_nil n, all_digits n⟩, digits, Nat.ofDigitChars_ten_toDigits]

@[simp] theorem canonical?_digits (n : Nat) : canonical? (digits n) = some n := by
  simp [canonical?]

theorem canonical?_eq_some_iff {cs : List Char} {n : Nat} :
    canonical? cs = some n ↔ cs = digits n := by
  constructor
  · intro h
    simp only [canonical?, Option.bind_eq_some_iff] at h
    obtain ⟨m, -, h⟩ := h
    split at h
    · rename_i hm
      simp only [Option.some.injEq] at h
      rw [← hm, h]
    · simp at h
  · rintro rfl
    exact canonical?_digits n

theorem below?_eq_some_iff {bound x : Nat} {y : Fin bound} : below? bound x = some y ↔ x = y := by
  unfold below?
  split
  · simp [Fin.ext_iff]
  · rename_i h
    simp only [reduceCtorEq, false_iff]
    omega

end NpuBroker.Decimal

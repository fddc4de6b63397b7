import NpuBroker.Decimal

/-!
# Binary floating point

Doubles as a sign, a natural mantissa and a power of two, in exact arithmetic. Only rounding to
the nearest is needed: of integers, of quotients and of decimals.

* `two_mul_roundDiv_le`, `le_two_mul_roundDiv`: a rounded quotient is off by at most a half.
-/
namespace NpuBroker

/-- `mantissa * 2 ^ exponent`, negated when `negative`. The mantissa has 53 bits, or fewer with the
least exponent, which is -1074. -/
structure Binary64 where
  negative : Bool
  mantissa : Nat
  exponent : Int
deriving DecidableEq

namespace Binary64

/-- The natural nearest to `num / den`, and of two the even one. -/
def roundDiv (num den : Nat) : Nat :=
  let q := num / den
  let r := num % den
  if den < 2 * r ∨ den = 2 * r ∧ q % 2 = 1 then q + 1 else q

/-- `num / den / 2 ^ e` as a quotient of naturals. -/
def scaled (num den : Nat) (e : Int) : Nat × Nat :=
  (num * Nat.pow 2 (-e).toNat, den * Nat.pow 2 e.toNat)

/-- The double nearest to `num / den`. -/
def ofRatio (negative : Bool) (num den : Nat) : Binary64 :=
  if num = 0 then ⟨negative, 0, 0⟩
  else
    let guess := (num.log2 : Int) - den.log2 - 52
    let (n, d) := scaled num den guess
    let e := max (if n / d < Nat.pow 2 52 then guess - 1 else guess) (-1074)
    let m := roundDiv (scaled num den e).1 (scaled num den e).2
    if m = Nat.pow 2 53 then ⟨negative, Nat.pow 2 52, e + 1⟩ else ⟨negative, m, e⟩

/-- The double nearest to `n`. -/
def ofInt (n : Int) : Binary64 := ofRatio (n < 0) n.natAbs 1

/-- The magnitude as a quotient of naturals. -/
def ratio (x : Binary64) : Nat × Nat := scaled x.mantissa 1 (-x.exponent)

/-- The double nearest to the quotient. -/
def divNat (x : Binary64) (d : Nat) : Binary64 :=
  ofRatio x.negative x.ratio.1 (x.ratio.2 * d)

/-- The double nearest to `n * 10 ^ e`, unless that is too large. -/
def ofDecimal? (negative : Bool) (n : Nat) (e : Int) : Option Binary64 :=
  let size : Int := (Decimal.digits n).length + e
  if n = 0 ∨ size < -330 then some ⟨negative, 0, 0⟩
  else if 310 < size then none
  else
    let x := ofRatio negative (n * Nat.pow 10 e.toNat) (Nat.pow 10 (-e).toNat)
    if x.exponent ≤ 971 then some x else none

/-- The double nearest to a decimal: digits with or without a point among or around them, and a
power of ten behind an `e`. -/
def ofText? (cs : List Char) : Option Binary64 := do
  let negative := cs.head? == some '-'
  let cs := if cs.head? = some '-' ∨ cs.head? = some '+' then cs.tail else cs
  let whole := cs.takeWhile Char.isDigit
  let rest := cs.dropWhile Char.isDigit
  let pointed := rest.head? == some '.'
  let places := if pointed then rest.tail.takeWhile Char.isDigit else []
  let rest := if pointed then rest.tail.dropWhile Char.isDigit else rest
  let n ← Decimal.nat? (whole ++ places)
  let e ← match rest with
    | [] => some 0
    | c :: power => if c = 'e' ∨ c = 'E' then Decimal.int? power else none
  ofDecimal? negative n (e - places.length)

/-- The 64 bits: sign, biased exponent, mantissa without its leading one. -/
def bits (x : Binary64) : Nat :=
  (if x.negative then Nat.pow 2 63 else 0) +
    if x.mantissa < Nat.pow 2 52 then x.mantissa
    else (x.exponent + 1075).toNat * Nat.pow 2 52 + (x.mantissa - Nat.pow 2 52)

/-- The bits as sixteen hexadecimal digits. -/
def hex (x : Binary64) : String :=
  let digits := Nat.toDigits 16 x.bits
  String.ofList (List.replicate (16 - digits.length) '0' ++ digits)

def sign (x : Binary64) : List Char := if x.negative then ['-'] else []

/-- With `places` digits after the point, rounded from the exact value. -/
def fixed (x : Binary64) (places : Nat) : List Char :=
  let digits := Decimal.digits (roundDiv (x.ratio.1 * Nat.pow 10 places) x.ratio.2)
  let digits := List.replicate (places + 1 - digits.length) '0' ++ digits
  let whole := digits.length - places
  x.sign ++ digits.take whole ++ '.' :: digits.drop whole

/-! ## The shortest decimal -/

/-- Four times the mantissa and the two ends of what rounds to the double, over one power of two.
Below a power of two the gap is half as wide, except at the least exponent. -/
def window (x : Binary64) : Nat × Nat × Nat :=
  let below := if x.mantissa = Nat.pow 2 52 ∧ x.exponent ≠ -1074 then 1 else 2
  (4 * x.mantissa - below, 4 * x.mantissa, 4 * x.mantissa + 2)

/-- The multiple of `10 ^ k` nearest to `x` that still rounds to it, by its factor. -/
def onGrid? (x : Binary64) (k : Int) : Option Nat :=
  let (low, middle, high) := x.window
  -- all in units of `2 ^ (exponent - 2)` times `10 ^ min k 0`
  let e := x.exponent - 2
  let unit := Nat.pow 2 e.toNat * Nat.pow 10 (-k).toNat
  let step := Nat.pow 10 k.toNat * Nat.pow 2 (-e).toNat
  let fits (n : Nat) : Bool :=
    if x.mantissa % 2 = 0 then low * unit ≤ n * step && n * step ≤ high * unit
    else low * unit < n * step && n * step < high * unit
  let below := middle * unit / step
  let gap := middle * unit % step
  let order := if 2 * gap < step ∨ 2 * gap = step ∧ below % 2 = 0 then [below, below + 1]
    else [below + 1, below]
  order.find? fits

/-- The fewest digits that are read back as `x`, without an exponent. -/
def shortest (x : Binary64) : List Char :=
  if x.mantissa = 0 then x.sign ++ ['0']
  else
    let top : Int := (Decimal.digits (x.ratio.1 / x.ratio.2)).length
    let grids := (List.range 400).map fun (i : Nat) => top - i
    let found := grids.findSome? fun k => (x.onGrid? k).map fun n => (n, k)
    match found with
    | none => []
    | some (n, k) =>
      let digits := Decimal.digits n ++ List.replicate k.toNat '0'
      if 0 ≤ k then x.sign ++ digits
      else
        let places := (-k).toNat
        let digits := List.replicate (places + 1 - digits.length) '0' ++ digits
        let whole := digits.length - places
        x.sign ++ digits.take whole ++ '.' :: digits.drop whole

/-! ## Rounding -/

theorem two_mul_roundDiv_le {num den : Nat} :
    2 * (roundDiv num den * den) ≤ 2 * num + den := by
  have hd := Nat.div_add_mod num den
  have hc := Nat.mul_comm den (num / den)
  unfold roundDiv
  dsimp only
  split
  · rw [Nat.add_mul]
    omega
  · omega

theorem le_two_mul_roundDiv {num den : Nat} (h : 0 < den) :
    2 * num ≤ 2 * (roundDiv num den * den) + den := by
  have hd := Nat.div_add_mod num den
  have hc := Nat.mul_comm den (num / den)
  have hr := Nat.mod_lt num h
  unfold roundDiv
  dsimp only
  split
  · rw [Nat.add_mul]
    omega
  · omega

end Binary64
end NpuBroker

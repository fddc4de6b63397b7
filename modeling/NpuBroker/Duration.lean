import NpuBroker.Decimal
import NpuBroker.Text.Blank

/-!
# Durations

Lengths of time, written as amounts of units: `1m 30s`, `0.25h`, `2 days 3hrs`. The whole part of
an amount and its fraction are counted apart, each in the unit's step: nanoseconds, or seconds from
a unit on that has a thousand of them or more. Neither count may leave 64 bits, and a fraction must
be a whole number of steps.
-/
namespace NpuBroker

inductive TimeUnit where
  | nanosecond
  | microsecond
  | millisecond
  | second
  | minute
  | hour
  | day
  | week
  | month
  | year
deriving DecidableEq

namespace TimeUnit

def all : List TimeUnit :=
  [nanosecond, microsecond, millisecond, second, minute, hour, day, week, month, year]

def spellings : TimeUnit → List String
  | .nanosecond => ["nanos", "nsec", "ns"]
  | .microsecond => ["usec", "us", "µs"]
  | .millisecond => ["millis", "msec", "ms"]
  | .second => ["seconds", "second", "secs", "sec", "s"]
  | .minute => ["minutes", "minute", "min", "mins", "m"]
  | .hour => ["hours", "hour", "hr", "hrs", "h"]
  | .day => ["days", "day", "d"]
  | .week => ["weeks", "week", "wk", "wks", "w"]
  | .month => ["months", "month", "M"]
  | .year => ["years", "year", "yr", "yrs", "y"]

def ofText? (s : String) : Option TimeUnit := all.find? fun u => s ∈ u.spellings

/-- In nanoseconds. A year has 365.25 days, and a month a twelfth of that, rounded to 30.44. -/
def size : TimeUnit → Nat
  | .nanosecond => 1
  | .microsecond => 1000
  | .millisecond => 1000000
  | .second => 1000000000
  | .minute => 60 * 1000000000
  | .hour => 3600 * 1000000000
  | .day => 86400 * 1000000000
  | .week => 604800 * 1000000000
  | .month => 2630016 * 1000000000
  | .year => 31557600 * 1000000000

/-- The step in which whole amounts are counted. -/
def wholeStep : TimeUnit → Nat
  | .nanosecond | .microsecond | .millisecond => 1
  | _ => 1000000000

/-- The step in which fractions are counted; a nanosecond has none. -/
def fractionStep? : TimeUnit → Option Nat
  | .nanosecond => none
  | .microsecond | .millisecond | .second | .minute => some 1
  | _ => some 1000000000

end TimeUnit

structure Duration where
  nanoseconds : Nat
deriving DecidableEq

namespace Duration

def ofSeconds (n : Nat) : Duration := ⟨n * 1000000000⟩

def zero : Duration := ⟨0⟩

/-- Whole seconds. -/
def seconds (d : Duration) : Nat := d.nanoseconds / 1000000000

/-- Nanoseconds beyond the whole seconds. -/
def subsecond (d : Duration) : Nat := d.nanoseconds % 1000000000

/-- `d` and `count` steps more. Steps of one nanosecond are added to those beyond the second; that
sum and the seconds must both stay in 64 bits. -/
def plus? (d : Duration) (step count : Nat) : Option Duration :=
  let sum := d.nanoseconds + count * step
  if d.subsecond + (if step = 1 then count else 0) < Nat.pow 2 64 ∧
      sum / 1000000000 < Nat.pow 2 64 then
    some ⟨sum⟩
  else none

/-- `n / d` of something that has `size` of the unit's steps. -/
def stepCount? (size step n d : Nat) : Option Nat :=
  let count := n * (size / step)
  if count < Nat.pow 2 64 ∧ count % d = 0 then some (count / d) else none

/-! ## Reading -/

/-- An amount of a unit: the digits of its whole part and, behind a point, of its fraction. -/
structure Amount where
  whole : List Char
  fraction : Option (List Char)
  unit : List Char

/-- Digits, with blanks among them. -/
def isNumeral (c : Char) : Bool := c.isDigit || Text.isBlank c

def isUnitLetter (c : Char) : Bool := c.isAlpha || c == 'µ'

/-- The fraction behind a point, if there is a point, and what follows. -/
def fractionOf : List Char → Option (List Char) × List Char
  | '.' :: cs => (some (cs.takeWhile isNumeral), cs.dropWhile isNumeral)
  | cs => (none, cs)

theorem length_dropWhile_le (p : Char → Bool) (cs : List Char) :
    (cs.dropWhile p).length ≤ cs.length :=
  (List.dropWhile_suffix p).length_le

theorem length_fractionOf_le (cs : List Char) : (fractionOf cs).2.length ≤ cs.length := by
  unfold fractionOf
  split
  · simpa using Nat.le_succ_of_le (length_dropWhile_le _ _)
  · exact Nat.le_refl _

/-- The amounts that a text consists of, each beginning with a digit. -/
def amounts? : List Char → Option (List Amount)
  | [] => some []
  | c :: cs =>
    if c.isDigit then
      let cut := fractionOf (cs.dropWhile isNumeral)
      let amount : Amount :=
        { whole := (c :: cs.takeWhile isNumeral).filter Char.isDigit
          fraction := cut.1.map (List.filter Char.isDigit)
          unit := cut.2.takeWhile isUnitLetter }
      (amounts? ((cut.2.dropWhile isUnitLetter).dropWhile Text.isBlank)).map (amount :: ·)
    else none
  termination_by cs => cs.length
  decreasing_by
    have h1 := length_dropWhile_le isNumeral cs
    have h2 : cut.2.length ≤ _ := length_fractionOf_le (cs.dropWhile isNumeral)
    have h3 := length_dropWhile_le isUnitLetter cut.2
    have h4 := length_dropWhile_le Text.isBlank (cut.2.dropWhile isUnitLetter)
    exact Nat.lt_succ_of_le (Nat.le_trans (Nat.le_trans h4 h3) (Nat.le_trans h2 h1))

/-- `d` and an amount more. -/
def plusAmount? (d : Duration) (a : Amount) : Option Duration := do
  let unit ← TimeUnit.ofText? (String.ofList a.unit)
  let whole ← Decimal.nat? a.whole
  let d ← d.plus? unit.wholeStep (← stepCount? unit.size unit.wholeStep whole 1)
  match a.fraction with
  | none => return d
  | some digits =>
    let step ← unit.fractionStep?
    let numerator ← Decimal.nat? digits
    let denominator ← Decimal.below? (Nat.pow 2 64) (Nat.pow 10 digits.length)
    d.plus? step (← stepCount? unit.size step numerator denominator)

/-- Reads one amount or more; a nought alone needs no unit. -/
def ofText? (s : String) : Option Duration :=
  if s = "0" then some zero
  else
    match amounts? (s.toList.dropWhile Text.isBlank) with
    | none | some [] => none
    | some (a :: as) => (a :: as).foldlM plusAmount? zero

/-! ## Writing -/

/-- How many of each unit a text shows, largest first. -/
def shown (d : Duration) : List (Nat × TimeUnit) :=
  let units : List TimeUnit :=
    [.year, .month, .day, .hour, .minute, .second, .millisecond, .microsecond, .nanosecond]
  (units.foldl (fun (left, found) u =>
    (left % u.size, found ++ [(left / u.size, u)])) (d.nanoseconds, [])).2

/-- How a number of units is written. -/
def amountText (n : Nat) (u : TimeUnit) : String :=
  let plural := if n = 1 then "" else "s"
  Decimal.text n ++ match u with
    | .year => "year" ++ plural
    | .month => "month" ++ plural
    | .day => "day" ++ plural
    | .week => "week" ++ plural
    | .hour => "h"
    | .minute => "m"
    | .second => "s"
    | .millisecond => "ms"
    | .microsecond => "us"
    | .nanosecond => "ns"

def text (d : Duration) : String :=
  if d = zero then "0s"
  else " ".intercalate ((d.shown.filter fun x => x.1 ≠ 0).map fun (n, u) => amountText n u)

end Duration
end NpuBroker

import NpuBroker.Decimal

/-!
# Spans of PEs

One PE, or a range of them fused into one unit. A range ascends when it comes from a name or a
document; one put together by hand may descend, and then holds no PE.

* `mem_indices_iff`: the listed PEs are the ones held.
* `overlaps_comm`: overlapping has no direction.
-/
namespace NpuBroker

/-- Device and PE indices are bytes. -/
abbrev Index := Fin 256

inductive Span where
  | single (pe : Index)
  | fused (first last : Index)
deriving DecidableEq

namespace Span

/-- The fused range, when it ascends. -/
def ascending? (first last : Index) : Option Span :=
  if first < last then some (.fused first last) else none

def first : Span → Index
  | .single pe => pe
  | .fused first _ => first

def last : Span → Index
  | .single pe => pe
  | .fused _ last => last

def contains (s : Span) (pe : Index) : Bool := s.first ≤ pe && pe ≤ s.last

/-- The PEs of the span, ascending. -/
def indices (s : Span) : List Index := (List.finRange 256).filter s.contains

/-- How many PEs the span has. -/
def size (s : Span) : Nat := s.last.val + 1 - s.first.val

/-- Each begins before the other ends. -/
def overlaps (s t : Span) : Bool := s.first ≤ t.last && t.first ≤ s.last

/-- Single PEs before fused ranges, then by their bounds. -/
def rank : Span → List Nat
  | .single pe => [0, pe]
  | .fused first last => [1, first, last]

def compare (s t : Span) : Ordering := compareOfLessAndEq s.rank t.rank

/-- `<K>` or `<A>-<B>`. -/
def chars : Span → List Char
  | .single pe => Decimal.digits pe
  | .fused first last => Decimal.digits first ++ '-' :: Decimal.digits last

def text (s : Span) : String := String.ofList s.chars

theorem mem_indices_iff {s : Span} {pe : Index} : pe ∈ s.indices ↔ s.contains pe = true := by
  simp [indices, List.mem_finRange]

theorem overlaps_comm (s t : Span) : s.overlaps t = t.overlaps s := Bool.and_comm _ _

end Span
end NpuBroker

import NpuBroker.Arch
import NpuBroker.Span

/-!
# Units

A unit is a whole device or a span of its PEs. Its name is `npu<N>`, `npu<N>pe<K>` or
`npu<N>pe<A>-<B>`, with canonical decimals and an ascending range.

* `overlaps_comm`: overlapping has no direction.
* `rank` orders units by device, the whole device first.
-/
namespace NpuBroker

structure UnitId where
  device : Index
  /-- `none` is the whole device. -/
  span : Option Span
deriving DecidableEq

namespace UnitId

def mode (u : UnitId) : Mode :=
  match u.span with
  | none => .whole
  | some (.single _) => .single
  | some (.fused _ _) => .fused

/-- Whether two units contend for a PE. -/
def overlaps (u v : UnitId) : Bool :=
  u.device == v.device && match u.span, v.span with
    | some s, some t => s.overlaps t
    | _, _ => true

def rank (u : UnitId) : List Nat :=
  u.device :: match u.span with
    | none => []
    | some s => s.rank

def chars (u : UnitId) : List Char :=
  ['n', 'p', 'u'] ++ Decimal.digits u.device ++ match u.span with
    | none => []
    | some s => ['p', 'e'] ++ s.chars

def name (u : UnitId) : String := String.ofList u.chars

/-! ## Reading a name -/

/-- A canonical decimal that is an index. -/
def index? (cs : List Char) : Option Index := (Decimal.canonical? cs).bind (Decimal.below? 256)

/-- A span whose bounds are read by `bound?`: digits, or digits, `-` and the rest. -/
def spanOf? (bound? : List Char → Option Index) (cs : List Char) : Option Span := do
  let first ← bound? (cs.takeWhile Char.isDigit)
  match cs.dropWhile Char.isDigit with
  | [] => return .single first
  | '-' :: rest => Span.ascending? first (← bound? rest)
  | _ => none

def ofChars? : List Char → Option UnitId
  | 'n' :: 'p' :: 'u' :: cs => do
    let device ← index? (cs.takeWhile Char.isDigit)
    match cs.dropWhile Char.isDigit with
    | [] => return ⟨device, none⟩
    | 'p' :: 'e' :: rest => return ⟨device, some (← spanOf? index? rest)⟩
    | _ => none
  | _ => none

/-- The unit with this name. -/
def ofName? (name : String) : Option UnitId := ofChars? name.toList

/-- By `rank`. -/
def sort (us : List UnitId) : List UnitId := us.mergeSort fun u v => !decide (v.rank < u.rank)

theorem overlaps_comm (u v : UnitId) : u.overlaps v = v.overlaps u := by
  unfold overlaps
  rw [Bool.beq_comm]
  cases u.span <;> cases v.span <;> simp [Span.overlaps_comm]

end UnitId
end NpuBroker

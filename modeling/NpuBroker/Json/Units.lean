import NpuBroker.Json
import NpuBroker.Plan
import NpuBroker.RawNode

/-!
# Units in documents

How units, devices, requests and plans are written into a document, and how units and nodes are
read out of one. A record may be given as an object, with unknown fields ignored, or as the list of
its fields; a fused range must ascend. A document can hold no path that is not text.

* `ofJson_toJson` for modes and architectures: what is written is read back.
-/
namespace NpuBroker

/-- Why a value is not what it is read as. -/
inductive Misfit where
  | shape
  | descending (first last : Index)
deriving DecidableEq

def Misfit.message? : Misfit → Option String
  | .shape => none
  | .descending first last =>
    some ("fused range " ++ (Span.fused first last).text ++ " is not ascending")

namespace Json

/-- What a document is given as: a value that was read before, or a text. In a text alone the bounds
of a fused range may be a list. -/
inductive Form where
  | value
  | text
deriving DecidableEq

def index : Json → Except Misfit Index
  | .int (.ofNat n) => (Decimal.below? 256 n).elim (.error .shape) .ok
  | _ => .error .shape

def string : Json → Except Misfit String
  | .str s => .ok s
  | _ => .error .shape

/-- A bare choice: its key, or an object with that one key and `null`. -/
def choice {α : Type} (ofKey? : String → Option α) : Json → Except Misfit α
  | .str key | .obj [(key, .null)] => (ofKey? key).elim (.error .shape) .ok
  | _ => .error .shape

/-- Two fields of a record, each read at most once and in the order they come in. -/
def twoFields {α β : Type} (a b : String) (readA : Json → Except Misfit α)
    (readB : Json → Except Misfit β) :
    List (String × Json) → Option α × Option β → Except Misfit (Option α × Option β)
  | [], found => .ok found
  | (key, value) :: fields, found => do
    if key = a then
      if found.1.isSome then throw .shape
      twoFields a b readA readB fields (some (← readA value), found.2)
    else if key = b then
      if found.2.isSome then throw .shape
      twoFields a b readA readB fields (found.1, some (← readB value))
    else twoFields a b readA readB fields found

/-- The two fields of a record given as a list. Each is read before the list is measured, so that a
misfit in one of them comes before a wrong length. -/
def twoItems {α β : Type} (readA : Json → Except Misfit α) (readB : Json → Except Misfit β) :
    List Json → Except Misfit (α × β)
  | [] => .error .shape
  | [a] => do
    let _ ← readA a
    throw .shape
  | a :: b :: more => do
    let found := (← readA a, ← readB b)
    if more.isEmpty then return found else throw .shape

end Json

/-! ## Modes and architectures -/

namespace Mode

def toJson (m : Mode) : Json := .str m.key

def ofKey? (key : String) : Option Mode := [single, fused, whole].find? fun m => m.key = key

def ofJson : Json → Except Misfit Mode := Json.choice ofKey?

theorem ofJson_toJson (m : Mode) : ofJson m.toJson = .ok m := by
  cases m <;> rfl

end Mode

namespace Arch

def toJson (a : Arch) : Json := .str a.name

def ofKey? (key : String) : Option Arch := [warboy, rngd].find? fun a => a.name = key

def ofJson : Json → Except Misfit Arch := Json.choice ofKey?

theorem ofJson_toJson (a : Arch) : ofJson a.toJson = .ok a := by
  cases a <;> rfl

end Arch

/-! ## Spans, units and nodes -/

namespace Span

def toJson : Span → Json
  | .single pe => .obj [("single", .ofBounded pe)]
  | .fused first last =>
    .obj [("fused", .obj [("start", .ofBounded first), ("end", .ofBounded last)])]

/-- The range with these bounds, which must ascend. -/
def ofBounds (first last : Index) : Except Misfit Span :=
  (ascending? first last).elim (.error (.descending first last)) .ok

def ofDocument (form : Json.Form) : Json → Except Misfit Span
  | .obj [("single", value)] => single <$> Json.index value
  | .obj [("fused", .obj fields)] => do
    match ← Json.twoFields "start" "end" Json.index Json.index fields (none, none) with
    | (some first, some last) => ofBounds first last
    | _ => throw .shape
  | .obj [("fused", .arr items)] => do
    if form = .value then throw .shape
    let (first, last) ← Json.twoItems Json.index Json.index items
    ofBounds first last
  | _ => .error .shape

def ofJson : Json → Except Misfit Span := ofDocument .value

end Span

namespace UnitId

def toJson (u : UnitId) : Json :=
  .obj [("device_index", .ofBounded u.device), ("pe", .ofOption Span.toJson u.span)]

/-- The span of a unit; `null` is the whole device. -/
def spanOfDocument (form : Json.Form) : Json → Except Misfit (Option Span)
  | .null => .ok none
  | value => some <$> Span.ofDocument form value

def ofDocument (form : Json.Form) : Json → Except Misfit UnitId
  | .obj fields => do
    match ← Json.twoFields "device_index" "pe" Json.index (spanOfDocument form) fields
      (none, none) with
    | (some device, span) => return ⟨device, span.join⟩
    | _ => throw .shape
  | .arr items => do
    let (device, span) ← Json.twoItems Json.index (spanOfDocument form) items
    return ⟨device, span⟩
  | _ => .error .shape

def ofJson : Json → Except Misfit UnitId := ofDocument .value

end UnitId

namespace Node

def toJson (n : Node) : Json := .obj [("id", n.id.toJson), ("path", .str n.path)]

def ofDocument (form : Json.Form) : Json → Except Misfit Node
  | .obj fields => do
    match ← Json.twoFields "id" "path" (UnitId.ofDocument form) Json.string fields
      (none, none) with
    | (some id, some path) => return ⟨id, path⟩
    | _ => throw .shape
  | .arr items => do
    let (id, path) ← Json.twoItems (UnitId.ofDocument form) Json.string items
    return ⟨id, path⟩
  | _ => .error .shape

def ofJson : Json → Except Misfit Node := ofDocument .value

end Node

namespace RawNode

/-- A node whose path is no text cannot be written. -/
def toJson (n : RawNode) : Except String Json :=
  (n.node?.map Node.toJson).elim (.error "path contains invalid UTF-8 characters") .ok

def ofDocument (form : Json.Form) (v : Json) : Except Misfit RawNode :=
  Node.raw <$> Node.ofDocument form v

end RawNode

def Device.toJson (d : Device) : Json :=
  .obj [("device_index", .ofBounded d.index), ("arch", d.arch.toJson),
    ("pes", .arr (d.pes.map .ofBounded)), ("files", .arr (d.nodes.map Node.toJson))]

def Request.toJson : Request → Json
  | .structured arch mode count =>
    .obj [("structured", .obj [("arch", arch.toJson), ("mode", mode.toJson),
      ("count", .ofBounded count)])]
  | .explicit units => .obj [("explicit", .arr (units.map UnitId.toJson))]

def Plan.toJson (p : Plan) : Json :=
  .obj [("config", .str p.request),
    ("groups", .arr (p.groups.map fun g => .obj [("candidates", .arr (g.map Node.toJson))])),
    ("policy", .str p.policy.name)]

end NpuBroker

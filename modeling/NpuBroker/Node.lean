import NpuBroker.Path
import NpuBroker.UnitId

/-!
# Device nodes

A node is a unit and the path of the file that stands for it, as text. Nodes are ordered by unit,
then by path.
-/
namespace NpuBroker

structure Node where
  id : UnitId
  path : String
deriving DecidableEq

namespace Node

/-- The node at `path`, when its file name is the name of a unit. -/
def ofPath? (path : String) : Option Node :=
  (Path.fileName? path).bind fun name => (UnitId.ofName? name).map fun id => ⟨id, path⟩

def name (n : Node) : String := n.id.name

/-- The file name of the path, or the unit's name for a path without one. -/
def fileName (n : Node) : String := (Path.fileName? n.path).getD n.name

def overlaps (m n : Node) : Bool := m.id.overlaps n.id

/-- Whether two nodes are the same unit at the same path. -/
def same (m n : Node) : Bool := m.id == n.id && Path.same m.path n.path

/-- By unit, then by path. -/
def before (m n : Node) : Bool :=
  decide (m.id.rank < n.id.rank) ||
    m.id.rank == n.id.rank && !decide (Path.rank n.path < Path.rank m.path)

/-- The PEs of the node on a device that has `present`. -/
def pes (n : Node) (present : List Index) : List Index :=
  match n.id.span with
  | none => present
  | some s => s.indices

end Node
end NpuBroker

import NpuBroker.Fault
import NpuBroker.Node

/-!
# Topologies

The devices of a host and the nodes of each. A topology is put together from the nodes that were
found, by asking for the architecture of every device they name; a device without one is left
out, and so is a node with a PE that its device does not have.

* `mem_indices_iff`: exactly the devices that some node names are asked for, in ascending order
  by the definition of `indices`.
-/
namespace NpuBroker

/-- The PEs of a device of this architecture. -/
def Arch.pes (a : Arch) : List Index := (List.finRange 256).filter fun i => i.val < a.peCount

structure Device where
  index : Index
  arch : Arch
  nodes : List Node
deriving DecidableEq

abbrev Topology := List Device

namespace Device

def name (d : Device) : String := (UnitId.mk d.index none).name

def pes (d : Device) : List Index := d.arch.pes

def withMode (d : Device) (m : Mode) : List Node := d.nodes.filter fun n => n.id.mode = m

def whole? (d : Device) : Option Node := (d.withMode .whole).head?

def find? (d : Device) (u : UnitId) : Option Node := d.nodes.find? fun n => n.id = u

/-- The other nodes that contend for a PE of `n`. -/
def overlapping (d : Device) (n : Node) : List Node :=
  d.nodes.filter fun m => !m.same n && m.overlaps n

end Device

namespace Topology

def device? (t : Topology) (i : Index) : Option Device := t.find? fun d => d.index = i

/-- The devices that `nodes` name, ascending. -/
def indices (nodes : List Node) : List Index :=
  (List.finRange 256).filter fun i => nodes.any fun n => n.id.device = i

/-- The device `i` with those of its nodes whose PEs it has, in order. -/
def deviceOf (nodes : List Node) (i : Index) (arch : Arch) : Device where
  index := i
  arch := arch
  nodes := (nodes.filter fun n => n.id.device = i ∧ n.pes arch.pes ⊆ arch.pes).mergeSort
    Node.before

/-- The topology of `nodes`, asking `identify` once for each device. -/
def ofNodesM {m : Type → Type} [Monad m] (nodes : List Node)
    (identify : Index → m (Except Fault Arch)) : m Topology :=
  (indices nodes).filterMapM fun i => do
    match ← identify i with
    | .ok arch => return some (deviceOf nodes i arch)
    | .error _ => return none

/-- The topology of `nodes` whose architectures are known. -/
def ofNodes (nodes : List Node) (identify : Index → Except Fault Arch) : Topology :=
  (indices nodes).filterMap fun i => (identify i).toOption.map (deviceOf nodes i)

theorem mem_indices_iff {nodes : List Node} {i : Index} :
    i ∈ indices nodes ↔ ∃ n ∈ nodes, n.id.device = i := by
  simp [indices, List.mem_finRange]

end Topology
end NpuBroker

import NpuBroker.Claim

/-!
# Occupancy

Which PEs of a device are in use, and through which node. The nodes are probed in order; a PE
goes to the first held one that covers it.

* `mark_keys`: marking never adds or loses a PE.
-/
namespace NpuBroker

inductive PeState where
  | available
  /-- Held through the node with this file name. -/
  | occupied (name : String)
deriving DecidableEq

def PeState.text : PeState → String
  | .available => "available"
  | .occupied name => "occupied by " ++ name

abbrev Occupancy := List (Index × PeState)

namespace Occupancy

def idle (d : Device) : Occupancy := d.pes.map fun pe => (pe, .available)

/-- Gives the PEs of a held node that are still available to it. -/
def mark (d : Device) (n : Node) (o : Occupancy) : Occupancy :=
  o.map fun (pe, state) =>
    if state = .available ∧ pe ∈ n.pes d.pes then (pe, .occupied n.fileName) else (pe, state)

/-- Probes `nodes` and marks what they hold. -/
def probe (d : Device) : List Node → Occupancy → Attempt (Except Fault Occupancy)
  | [], o => return .ok o
  | n :: ns, o => do
    match ← Claim.held n with
    | .error f => return .error f
    | .ok true => probe d ns (mark d n o)
    | .ok false => probe d ns o

/-- The state of every PE of the device. -/
def ofDevice (d : Device) : Attempt (Except Fault Occupancy) := probe d d.nodes (idle d)

theorem mark_keys (d : Device) (n : Node) (o : Occupancy) :
    (mark d n o).map Prod.fst = o.map Prod.fst := by
  simp only [mark, List.map_map]
  refine List.map_congr_left fun x _ => ?_
  obtain ⟨pe, state⟩ := x
  simp only [Function.comp_apply]
  split <;> rfl

end Occupancy
end NpuBroker

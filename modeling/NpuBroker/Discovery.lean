import NpuBroker.Host
import NpuBroker.Roots
import NpuBroker.Topology

/-!
# Discovery

From a host's file tree to its topology: the device nodes among the files of the device
directory, the architecture of each device from its management directory, and both together.
Everything is read afresh on every call.
-/
namespace NpuBroker.Discovery

/-- The nodes among the files of the device directory, in order. -/
def scan (h : Host) (r : Roots) : Except Fault (List Node) := do
  let found ← (h.list r.devfs).mapError (Fault.scan r.devfs)
  let nodes := found.filterMap fun (name, e) =>
    match e with
    | .file _ => Node.ofPath? (Path.join r.devfs name)
    | _ => none
  return nodes.mergeSort Node.before

/-- The architecture that the management directory gives the device. -/
def identify (h : Host) (r : Roots) (device : Index) : Except Fault Arch :=
  match h.readText (r.management device "device_type") with
  | .error e => .error (.unknownArch device (.unreadable e))
  | .ok text => (Arch.ofText text).mapError fun t => .unknownArch device (.unrecognized t)

/-- The devices of nodes in order, without those that repeat the one before. -/
def devicesOf : List Node → List Index
  | [] => []
  | [n] => [n.id.device]
  | m :: n :: ns =>
    if m.id.device = n.id.device then devicesOf (n :: ns)
    else m.id.device :: devicesOf (n :: ns)

abbrev Identified := List (Index × Except Fault Arch)

/-- Takes the identification of a device out of the list; the last one fills its place. -/
def take (device : Index) : StateM Identified (Except Fault Arch) := fun known =>
  match known.findIdx? fun k => k.1 = device with
  | none => (.error (.unknownArch device .notIdentified), known)
  | some i =>
    let rest := match known.getLast? with
      | none => known
      | some final => (known.set i final).dropLast
    (((known[i]?).map Prod.snd).getD (.error (.unknownArch device .notIdentified)), rest)

/-- The topology of the host: every device that can be identified, with its nodes. -/
def list (h : Host) (r : Roots) : Except Fault Topology := do
  let nodes ← scan h r
  let known := (devicesOf nodes).map fun i => (i, identify h r i)
  return ((Topology.ofNodesM nodes take).run known).1

/-- One device of the host. -/
def device (h : Host) (r : Roots) (i : Index) : Except Fault Device := do
  match (← list h r).device? i with
  | none => throw (.notFound (UnitId.mk i none).name)
  | some d => return d

end NpuBroker.Discovery

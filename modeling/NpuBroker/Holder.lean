import NpuBroker.Discovery

/-!
# Holders

The processes that have a device node open, found by the links in their descriptor directories.
A link counts when it points right into the device directory at the name of a unit. A process
that cannot be looked into is passed over.
-/
namespace NpuBroker

structure Holder where
  node : String
  pid : Nat
  command : String
deriving DecidableEq

namespace Holder

/-- By node name, then by process, then by command. -/
def before (a b : Holder) : Bool :=
  decide (a.node < b.node) || a.node == b.node &&
    (decide (a.pid < b.pid) || a.pid == b.pid && decide (a.command ≤ b.command))

/-- The name of the node a link points at, if it is one below `devfs`. -/
def nodeOf? (devfs target : String) : Option String := do
  let parent ← Path.parent? target
  if parent = Path.components devfs then
    let name ← Path.fileName? target
    if (UnitId.ofName? name).isSome then some name else none
  else none

/-- A command line for reading: the arguments with blanks between them. -/
def commandOf (bytes : List UInt8) : String :=
  let chars := (Utf8.lossy bytes).map fun c => if c = '\x00' then ' ' else c
  String.ofList (Text.trim chars)

/-- The names of the nodes that the descriptors in `dir` point at, in order. -/
def nodesIn (h : Host) (devfs dir : String) : List String :=
  match h.list dir with
  | .error _ => []
  | .ok found =>
    let held := found.filterMap fun (name, _) =>
      (h.readLink? (Path.join dir name)).bind (nodeOf? devfs)
    (held.mergeSort (fun a b => decide (a ≤ b))).eraseDups

/-- What one entry of the process directory holds. -/
def ofEntry (h : Host) (r : Roots) (name : String) : List Holder :=
  match Decimal.unsigned? (Nat.pow 2 32) name.toList with
  | none => []
  | some pid =>
    let dir := Path.join r.procfs name
    match nodesIn h r.devfs (Path.join dir "fd") with
    | [] => []
    | held =>
      match h.read (Path.join dir "cmdline") with
      | .error _ => []
      | .ok bytes => held.map fun node => ⟨node, pid, commandOf bytes⟩

/-- Every pair of a process and a node it holds. -/
def scan (h : Host) (r : Roots) : Except Fault (List Holder) := do
  let found ← (h.list r.procfs).mapError (Fault.scan r.procfs)
  return (found.flatMap fun (name, _) => ofEntry h r name).mergeSort before

end Holder
end NpuBroker

import NpuBroker.Holder
import NpuBroker.Metadata
import NpuBroker.Occupancy
import NpuBroker.Telemetry.Exposition

/-!
# Sessions

What one caller keeps between its calls to a host: the topology that it listed last, the plan
that it made last, and its claims, each set of them under a name. Calls that find or open
something look at the host afresh; the others go by the kept topology. A call that fails changes
nothing but the count of resolutions.

* `run_attempt`: what a call does to the locks is what its attempt does when it runs alone.
-/
namespace NpuBroker

/-- Why a call of a session fails. -/
inductive Refusal where
  | fault (f : Fault)
  /-- The kept topology has no such device. -/
  | notListed
  | noPlan

structure Session where
  host : Host
  roots : Roots
  locks : Locks
  registry : Registry
  topology : Topology
  plan : Option Plan
  slots : List (String × List Claim)

abbrev Call := ExceptT Refusal (StateM Session)

namespace Session

def start (host : Host) (roots : Roots) : Session :=
  ⟨host, roots, [], .empty, [], none, []⟩

def ofExcept {α : Type} : Except Fault α → Call α
  | .ok a => return a
  | .error f => throw (.fault f)

/-- Runs an attempt on the host, without others in between. -/
def attempt {α : Type} (a : Attempt (Except Fault α)) : Call α := do
  let s ← get
  let (answer, locks) := a.run s.host s.locks
  set { s with locks := locks }
  ofExcept answer

/-- Releases the claims under a name, and forgets the name. -/
def drop (s : Session) (slot : String) : Session :=
  let old : List Claim := (s.slots.lookup slot).getD []
  { s with
    slots := s.slots.filter fun x => x.1 ≠ slot
    locks := old.foldl (fun l c => l.release c.file) s.locks }

/-- Puts claims under a name, and releases what was there. -/
def keep (slot : String) (claims : List Claim) : Call Unit :=
  modify fun s =>
    let s := s.drop slot
    { s with slots := s.slots ++ [(slot, claims)] }

/-! ## Looking -/

def nodes : Call (List Node) := do
  let s ← get
  ofExcept (Discovery.scan s.host s.roots)

def identify (i : Index) : Call Arch := do
  let s ← get
  ofExcept (Discovery.identify s.host s.roots i)

/-- The topology of the host as it is now. -/
def enumerate : Call Topology := do
  let s ← get
  ofExcept (Discovery.list s.host s.roots)

/-- Enumerates the host and keeps the topology; also says whether it is the one kept before. -/
def list : Call (Topology × Bool) := do
  let t ← enumerate
  let before := (← get).topology
  modify fun s => { s with topology := t }
  return (t, t = before)

def device (i : Index) : Call Device := do
  let s ← get
  ofExcept (Discovery.device s.host s.roots i)

def node (name : String) : Call Node := do
  ofExcept (Claim.lookup (← enumerate) name)

def holders : Call (List Holder) := do
  let s ← get
  ofExcept (Holder.scan s.host s.roots)

/-- A device of the kept topology. -/
def listed (i : Index) : Call Device := do
  match (← get).topology.device? i with
  | none => throw .notListed
  | some d => return d

def text (i : Index) (item : String) : Call String := do
  let d ← listed i
  let s ← get
  ofExcept (Metadata.text s.host s.roots d.index item)

def alive (i : Index) : Call Bool := do
  let d ← listed i
  let s ← get
  ofExcept (Metadata.alive s.host s.roots d.index)

def heartbeat (i : Index) : Call Nat := do
  let d ← listed i
  let s ← get
  ofExcept (Metadata.heartbeat s.host s.roots d.index)

def numaNode (i : Index) : Call NumaNode := do
  let d ← listed i
  let s ← get
  ofExcept (Metadata.numaNode s.host s.roots d.index)

def info (i : Index) : Call DeviceInfo := do
  let d ← listed i
  let s ← get
  return Metadata.info s.host s.roots d

def sensors (i : Index) (kind : SensorKind) : Call (List Reading) := do
  let d ← listed i
  let s ← get
  ofExcept (Sensor.read s.host s.roots d.index kind)

def snapshot (i : Index) : Call Snapshot := do
  let d ← listed i
  let s ← get
  ofExcept (Sensor.snapshot s.host s.roots d.index)

def occupancy (i : Index) : Call Occupancy := do
  attempt (Occupancy.ofDevice (← listed i))

/-! ## Claiming -/

/-- Runs an attempt that is counted as a resolution. -/
def counted {α : Type} (a : Attempt (Except Fault α)) : Call α := do
  let s ← get
  let (answer, locks) := a.run s.host s.locks
  set { s with locks := locks, registry := s.registry.count (Outcome.ofResult answer) }
  ofExcept answer

def find (slot : String) (request : Request) : Call (List Claim) := do
  let claims ← counted (Claim.find (← enumerate) request)
  keep slot claims
  return claims

/-- A name that stands for no node is refused before anything is counted. -/
def openNode (slot : String) (name : String) : Call Claim := do
  let t ← enumerate
  let _ ← ofExcept (Claim.lookup t name)
  let claim ← counted (Claim.openNode t name)
  keep slot [claim]
  return claim

/-- Claims a node by its path alone; `none` when it is held. -/
def claim (slot : String) (n : Node) : Call (Option Claim) := do
  let claim ← attempt (Claim.node? n)
  if let some c := claim then keep slot [c]
  return claim

/-- Expands a request on the kept topology and keeps the plan. -/
def expand (request : Request) : Call Plan := do
  let p ← ofExcept (Plan.expand request (← get).topology)
  modify fun s => { s with plan := some p }
  return p

/-- Resolves the kept plan on the kept topology. -/
def resolve (slot : String) : Call (List Claim) := do
  let s ← get
  match s.plan with
  | none => throw .noPlan
  | some p =>
    let claims ← attempt (Claim.resolve s.topology p)
    keep slot claims
    return claims

/-- Releases the claims under a name; `none` when there is no such name. -/
def release (slot : String) : Call (Option (List Claim)) := do
  let claims := (← get).slots.lookup slot
  modify fun s => s.drop slot
  return claims

/-- The claims under a name. -/
def claims (slot : String) : Call (Option (List Claim)) := do
  return (← get).slots.lookup slot

/-! ## Telemetry -/

def poll : Call (List Snapshot) := do
  let s ← get
  let (answer, registry) := Telemetry.poll (.ofHost s.host s.roots) s.registry
  set { s with registry := registry }
  ofExcept answer

/-- Polls the host as it is `times` times, whatever comes of it. -/
def watch (times : Nat) : Call Unit :=
  modify fun s =>
    let look := Look.ofHost s.host s.roots
    { s with registry := Telemetry.watch s.registry (List.replicate times look) }

/-- The metrics page. -/
def page : Call (List String) := do
  return (← get).registry.lines

/-! ## The host -/

/-- A change that somebody makes to the host meanwhile. -/
def change (f : Host → Host) : Call Unit := modify fun s => { s with host := f s.host }

theorem run_attempt {α : Type} (a : Attempt (Except Fault α)) (s : Session) :
    (((attempt a).run).run s).2 = { s with locks := (a.run s.host s.locks).2 } := by
  have key : ∀ (r : Except Fault α) (s' : Session), (((ofExcept r).run).run s').2 = s' := by
    intro r s'
    cases r <;> rfl
  exact key (a.run s.host s.locks).1 { s with locks := (a.run s.host s.locks).2 }

end Session
end NpuBroker

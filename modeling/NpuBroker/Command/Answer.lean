import NpuBroker.Command.Report
import NpuBroker.CommandLine
import NpuBroker.Json.Reports
import NpuBroker.Settings
import NpuBroker.Telemetry
import NpuBroker.Text.Quoted

/-!
# Answers

A command looks at its surroundings once: the host, the variables and the locks that others hold. It
writes lines, and then is finished, has failed, or waits with what it has claimed. Lines that were
written before a failure stay.
-/
namespace NpuBroker

structure Surroundings where
  host : Host
  environment : Environment
  locks : Locks
  /-- What time it is, as readings are stamped with it. -/
  time : String

inductive Ending where
  | finished
  | failed (t : Trouble)
  /-- Until the time is over or somebody ends it. -/
  | waiting (claims : List Claim)

structure Answer where
  lines : List String
  ending : Ending

namespace Answer

def failed (t : Trouble) : Answer := ⟨[], .failed t⟩

def written (lines : List String) : Answer := ⟨lines, .finished⟩

def ofExcept : Except Trouble Answer → Answer
  | .ok a => a
  | .error t => failed t

/-- All that was written. -/
def output (a : Answer) : String := String.join (a.lines.map (· ++ "\n"))

end Answer

/-! ## Settings -/

namespace CommandLine

/-- The settings in the file at `path`, or the standard ones if there is none. -/
def settingsAt (h : Host) (path : String) : Except Trouble Settings :=
  if h.exists? path then
    let context := "Failed to load config from " ++ Text.quotedPath path
    match h.readText path with
    | .error e =>
      let t : Trouble := ⟨"Failed to read config file: " ++ Text.quotedPath path, [e.message]⟩
      .error (t.within context)
    | .ok text => (Settings.ofText text).mapError fun f => f.trouble.within context
  else .ok .standard

/-- The settings of a command line, which says more about the roots. -/
def settings (c : CommandLine) (h : Host) : Except Trouble Settings := do
  let s ← settingsAt h c.config
  let s := { s with
    roots := {
      devfs := c.devfs.getD s.roots.devfs
      sysfs := c.sysfs.getD s.roots.sysfs
      procfs := c.procfs.getD s.roots.procfs } }
  (s.check.mapError Settings.Fault.trouble).mapError (Trouble.within "Invalid configuration")
  return s

end CommandLine

/-! ## Commands -/

namespace Answer

def orTrouble {α : Type} (x : Except Fault α) : Except Trouble α := x.mapError Fault.trouble

/-- The devices with these indices, or all of them. -/
def devices (h : Host) (r : Roots) (indices : List Index) : Except Fault (List Device) :=
  if indices = [] then Discovery.list h r else indices.mapM (Discovery.device h r)

def list (h : Host) (r : Roots) (json : Bool) : Except Trouble Answer := do
  let found ← orTrouble (Discovery.list h r)
  if json then return .written [(Json.arr (found.map Device.toJson)).pretty]
  else return .written (found.map Report.device)

/-- The state of each PE of the devices, up to one whose nodes cannot be probed. -/
def states (w : Surroundings) (holders : List Holder) : List Device → Answer
  | [] => .written []
  | d :: ds =>
    match ((Occupancy.ofDevice d).run w.host w.locks).1 with
    | .error f => .failed (f.trouble.within ("Failed to read PE status of " ++ d.name))
    | .ok o =>
      let rest := states w holders ds
      { rest with lines := o.map (fun (pe, state) => Report.pe d holders pe state) ++ rest.lines }

def status (w : Surroundings) (r : Roots) : Except Trouble Answer := do
  let holders := (Holder.scan w.host r).toOption.getD []
  return states w holders (← orTrouble (Discovery.list w.host r))

def info (h : Host) (r : Roots) (indices : List Index) (json : Bool) : Except Trouble Answer := do
  let found := (← orTrouble (devices h r indices)).map (Metadata.info h r)
  if json then return .written [(Json.arr (found.map DeviceInfo.toJson)).pretty]
  else return .written (found.flatMap Report.info)

/-- Claims, and waits with the claims if they are to be held. -/
def find (w : Surroundings) (s : Settings) (specifier : Option String) (hold : Option Duration) :
    Except Trouble Answer := do
  let request ← (s.request w.environment specifier).mapError Settings.Fault.trouble
  let t ← orTrouble (Discovery.list w.host s.roots)
  let claims ← orTrouble ((Claim.find t request).run w.host w.locks).1
  return ⟨claims.map fun c => c.node.path, if hold.isSome then .waiting claims else .finished⟩

def get (h : Host) (r : Roots) (name : String) : Except Trouble Answer := do
  let n ← orTrouble (Claim.lookup (← orTrouble (Discovery.list h r)) name)
  return .written [n.toJson.pretty]

def hwmon (w : Surroundings) (r : Roots) (indices : List Index) (json : Bool) :
    Except Trouble Answer := do
  let found ← orTrouble (devices w.host r indices)
  let snapshots ← found.mapM fun d =>
    (orTrouble (Sensor.snapshot w.host r d.index)).mapError
      (Trouble.within ("Failed to read sensors of " ++ d.name))
  if json then return .written [(Json.arr (snapshots.map (Snapshot.toJson w.time))).pretty]
  else return .written (snapshots.flatMap fun s => Report.snapshot s ++ [""])

/-- One poll, or polls without end that write nothing. -/
def monitor (h : Host) (r : Roots) (once : Bool) : Except Trouble Answer :=
  if once then do
    let snapshots ← orTrouble (Telemetry.poll (.ofHost h r) .empty).1
    return .written (snapshots.flatMap Report.snapshot)
  else return ⟨[], .waiting []⟩

/-- What a command comes to. -/
def ofCommand (w : Surroundings) (s : Settings) : Command → Except Trouble Answer
  | .list json => list w.host s.roots json
  | .status => status w s.roots
  | .info indices json => info w.host s.roots indices json
  | .find specifier hold => find w s specifier hold
  | .get name => get w.host s.roots name
  | .hwmon indices json => hwmon w s.roots indices json
  | .monitor once => monitor w.host s.roots once

end Answer

namespace CommandLine

def answer (c : CommandLine) (w : Surroundings) : Answer :=
  .ofExcept do Answer.ofCommand w (← c.settings w.host) c.command

end CommandLine
end NpuBroker

import NpuBroker.Holder
import NpuBroker.Metadata
import NpuBroker.Occupancy
import NpuBroker.Sensor
import NpuBroker.Text.Aligned

/-!
# Reports

The lines that a user reads.
-/
namespace NpuBroker.Report

/-- A device with the PEs it has and the nodes it offers. -/
def device (d : Device) : String :=
  Text.left 6 d.name ++ " " ++ d.arch.name ++ " pes=" ++ Text.left 2 (Decimal.text d.pes.length) ++
    " " ++ " ".intercalate (d.nodes.map Node.name)

/-- The processes that hold the node with this name. -/
def holders (found : List Holder) (name : String) : String :=
  ", ".intercalate ((found.filter fun p => p.node = name).map fun p =>
    "pid " ++ Decimal.text p.pid ++ " " ++ p.command)

/-- The state of a PE, and who uses it when that is known. -/
def pe (d : Device) (found : List Holder) (pe : Index) (state : PeState) : String :=
  let users := match state with
    | .available => ""
    | .occupied name => holders found name
  d.name ++ ":" ++ Decimal.text pe ++ " " ++ state.text ++
    if users = "" then "" else " (" ++ users ++ ")"

/-- An item and its value, if it has one. -/
def item (label : String) (value : Option String) : String :=
  "  " ++ Text.left 16 label ++ " " ++ value.getD "-"

def info (i : DeviceInfo) : List String :=
  ["-- " ++ i.device ++ " (" ++ i.arch.name ++ ") --",
    item "busname" i.busname,
    item "pci_dev" i.pciDev,
    item "serial" i.serial,
    item "uuid" i.uuid,
    item "firmware" i.firmware,
    item "driver" i.driver,
    item "alive" (i.alive.map fun b => if b then "true" else "false"),
    item "heartbeat" (i.heartbeat.map Decimal.text),
    item "numa_node" (i.numaNode.map NumaNode.text)]

def title : SensorKind → String
  | .current => "Current"
  | .voltage => "Voltage"
  | .power => "Power"
  | .temperature => "Temperature"

/-- A reading, with two places. -/
def reading (kind : SensorKind) (x : Reading) : String :=
  "  " ++ Text.left 16 x.label ++ " " ++
    Text.right 9 (String.ofList ((x.scaled kind).fixed 2)) ++ " " ++ kind.unit

def snapshot (s : Snapshot) : List String :=
  ("-- " ++ s.device ++ " --") ::
    s.categories.flatMap fun (kind, readings) => title kind :: readings.map (reading kind)

end NpuBroker.Report

import NpuBroker.Json.Units
import NpuBroker.Metadata
import NpuBroker.Occupancy
import NpuBroker.Sensor
import NpuBroker.Settings

/-!
# Reports as documents

How metadata, readings, the state of PEs and settings are written into a document.
-/
namespace NpuBroker

def NumaNode.toJson : NumaNode → Json
  | .unsupported => .str "unsupported"
  | .node id => .obj [("id", .int id)]

def DeviceInfo.toJson (i : DeviceInfo) : Json :=
  .obj [("device", .str i.device), ("arch", i.arch.toJson),
    ("busname", .ofOption .str i.busname), ("pci_dev", .ofOption .str i.pciDev),
    ("device_sn", .ofOption .str i.serial), ("device_uuid", .ofOption .str i.uuid),
    ("firmware_version", .ofOption .str i.firmware), ("driver_version", .ofOption .str i.driver),
    ("alive", .ofOption .bool i.alive), ("heartbeat", .ofOption (fun n => .int n) i.heartbeat),
    ("numa_node", .ofOption NumaNode.toJson i.numaNode)]

def Reading.toJson (x : Reading) : Json := .obj [("label", .str x.label), ("value", .int x.value)]

/-- A snapshot that was taken at `time`. -/
def Snapshot.toJson (time : String) (s : Snapshot) : Json :=
  .obj [("device", .str s.device), ("timestamp", .str time),
    ("currents", .arr (s.currents.map Reading.toJson)),
    ("voltages", .arr (s.voltages.map Reading.toJson)),
    ("powers", .arr (s.powers.map Reading.toJson)),
    ("temperatures", .arr (s.temperatures.map Reading.toJson))]

def PeState.toJson : PeState → Json
  | .available => .str "available"
  | .occupied name => .obj [("occupied", .str name)]

def Occupancy.toJson (o : Occupancy) : Json :=
  .obj (o.map fun (pe, state) => (Decimal.text pe, state.toJson))

def Settings.toJson (s : Settings) : Json :=
  .obj [("devfs", .str s.roots.devfs), ("sysfs", .str s.roots.sysfs),
    ("procfs", .str s.roots.procfs), ("default_specifier", .ofOption .str s.defaultSpecifier),
    ("specifier_env", .str s.specifierKey),
    ("monitor", .obj [("interval", .str s.monitor.interval.text)]),
    ("metrics", .obj [("enabled", .bool s.metrics.enabled), ("port", .ofBounded s.metrics.port)])]

end NpuBroker

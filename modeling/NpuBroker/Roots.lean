import NpuBroker.Path
import NpuBroker.UnitId

/-!
# Roots

Where the device nodes, the attributes of devices and the processes of a host are found.
-/
namespace NpuBroker

structure Roots where
  devfs : String
  sysfs : String
  procfs : String

namespace Roots

def standard : Roots := ⟨"/dev", "/sys", "/proc"⟩

/-- An item of the management directory of a device. -/
def management (r : Roots) (device : Index) (item : String) : String :=
  Path.join (Path.join (Path.join r.sysfs "class/npu_mgmt")
    ((UnitId.mk device none).name ++ "_mgmt")) item

/-- The directory of the device on the bus, given its bus address as it was read. -/
def bus (r : Roots) (address : List Char) : String :=
  Path.join (Path.join r.sysfs "bus/pci/devices") (String.ofList (Text.trim address))

end Roots
end NpuBroker

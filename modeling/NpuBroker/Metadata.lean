import NpuBroker.Discovery

/-!
# Metadata

What a host says of a device: its bus address, numbers and versions, whether its firmware is
alive, and the NUMA node it sits on. Each item is read afresh; an item that cannot be read or
makes no sense is a fault of its own.
-/
namespace NpuBroker

/-- The NUMA node of a device; a platform may report none. -/
inductive NumaNode where
  | unsupported
  | node (id : Nat)
deriving DecidableEq

namespace NumaNode

def text : NumaNode → String
  | .unsupported => "unsupported"
  | .node id => Decimal.text id

/-- `-1` is no node. -/
def ofChars? (cs : List Char) : Option NumaNode :=
  match Decimal.int64? cs with
  | some (.ofNat id) => some (.node id)
  | some (.negSucc 0) => some .unsupported
  | _ => none

end NumaNode

/-- What is known of a device; `none` where an item could not be read. -/
structure DeviceInfo where
  device : String
  arch : Arch
  busname : Option String
  pciDev : Option String
  serial : Option String
  uuid : Option String
  firmware : Option String
  driver : Option String
  alive : Option Bool
  heartbeat : Option Nat
  numaNode : Option NumaNode

namespace Metadata

/-- The text items, by the file each is in. -/
def busname : String := "busname"
def pciDev : String := "dev"
def serial : String := "device_sn"
def uuid : String := "device_uuid"
def firmware : String := "fw_version"
def driver : String := "version"

/-- The content of a file as an item of the device. -/
def content (h : Host) (device : Index) (item path : String) : Except Fault String :=
  (h.readText path).mapError fun e => .metadata device item (.unreadable path e)

/-- A text item, without the blanks around it. -/
def text (h : Host) (r : Roots) (device : Index) (item : String) : Except Fault String :=
  Text.trimmed <$> content h device item (r.management device item)

/-- What `read?` makes of `value`. -/
def expect {α : Type} (device : Index) (item value : String) (read? : List Char → Option α) :
    Except Fault α :=
  match read? value.toList with
  | some a => .ok a
  | none => .error (.metadata device item (.unexpected value))

def alive? : List Char → Option Bool
  | ['0'] => some false
  | ['1'] => some true
  | _ => none

def alive (h : Host) (r : Roots) (device : Index) : Except Fault Bool := do
  expect device "alive" (← text h r device "alive") alive?

/-- A counter of 32 bits. -/
def heartbeat (h : Host) (r : Roots) (device : Index) : Except Fault Nat := do
  let count ← expect device "heartbeat" (← text h r device "heartbeat")
    (Decimal.unsigned? (Nat.pow 2 32))
  return count.val

def numaNode (h : Host) (r : Roots) (device : Index) : Except Fault NumaNode := do
  let address ← text h r device busname
  let value ← content h device "numa_node" (Path.join (r.bus address.toList) "numa_node")
  expect device "numa_node" (Text.trimmed value) NumaNode.ofChars?

/-- Every item of the device. -/
def info (h : Host) (r : Roots) (d : Device) : DeviceInfo where
  device := d.name
  arch := d.arch
  busname := (text h r d.index busname).toOption
  pciDev := (text h r d.index pciDev).toOption
  serial := (text h r d.index serial).toOption
  uuid := (text h r d.index uuid).toOption
  firmware := (text h r d.index firmware).toOption
  driver := (text h r d.index driver).toOption
  alive := (alive h r d.index).toOption
  heartbeat := (heartbeat h r d.index).toOption
  numaNode := (numaNode h r d.index).toOption

end Metadata
end NpuBroker

import NpuBroker.Binary64
import NpuBroker.Discovery

/-!
# Sensors

The channels of a device's sensor directory. A channel's files are called
`<type><n>_<item>`; one item holds its value, another may hold its label. A channel whose value
cannot be read is passed over. Labels are told apart within a kind by the channel's number.
-/
namespace NpuBroker

inductive SensorKind where
  | current
  | voltage
  | power
  | temperature
deriving DecidableEq

namespace SensorKind

/-- The kinds in the order in which they are reported. -/
def all : List SensorKind := [current, voltage, power, temperature]

def name : SensorKind → String
  | .current => "current"
  | .voltage => "voltage"
  | .power => "power"
  | .temperature => "temperature"

/-- The type in a file name. -/
def stem : SensorKind → List Char
  | .current => ['c', 'u', 'r', 'r']
  | .voltage => ['i', 'n']
  | .power => ['p', 'o', 'w', 'e', 'r']
  | .temperature => ['t', 'e', 'm', 'p']

/-- The item that holds the value. -/
def valueItem : SensorKind → List Char
  | .power => ['a', 'v', 'e', 'r', 'a', 'g', 'e']
  | _ => ['i', 'n', 'p', 'u', 't']

/-- The unit in which values are shown. -/
def unit : SensorKind → String
  | .current => "A"
  | .voltage => "V"
  | .power => "W"
  | .temperature => "°C"

/-- How many of the units in the file make one of the units shown. -/
def divisor : SensorKind → Nat
  | .power => 1000000
  | _ => 1000

def ofStem? (cs : List Char) : Option SensorKind := all.find? fun k => k.stem = cs

end SensorKind

/-- A file of a channel. -/
structure SensorFile where
  kind : SensorKind
  channel : Nat
  item : List Char
deriving DecidableEq

namespace SensorFile

/-- The parts of `<type><n>_<item>`; the number has 32 bits. -/
def ofFileName? (name : List Char) : Option SensorFile := do
  let front := name.takeWhile (· ≠ '_')
  let kind ← SensorKind.ofStem? (front.takeWhile fun c => !c.isDigit)
  let channel ← (Decimal.nat? (front.dropWhile fun c => !c.isDigit)).bind
    (Decimal.below? (Nat.pow 2 32))
  match name.dropWhile (· ≠ '_') with
  | [] => none
  | _ :: item => some ⟨kind, channel, item⟩

end SensorFile

structure Reading where
  label : String
  /-- In the unit of the file. -/
  value : Int
deriving DecidableEq

/-- The value in the unit shown. -/
def Reading.scaled (x : Reading) (k : SensorKind) : Binary64 :=
  (Binary64.ofInt x.value).divNat k.divisor

structure Snapshot where
  device : String
  currents : List Reading
  voltages : List Reading
  powers : List Reading
  temperatures : List Reading
deriving DecidableEq

/-- The readings of each kind, in the order of `SensorKind.all`. -/
def Snapshot.categories (s : Snapshot) : List (SensorKind × List Reading) :=
  [(.current, s.currents), (.voltage, s.voltages), (.power, s.powers),
    (.temperature, s.temperatures)]

/-- A snapshot of a device, kind by kind; the first kind that cannot be read fails it. -/
def Snapshot.gather (device : Index) (read : SensorKind → Except Fault (List Reading)) :
    Except Fault Snapshot := do
  return {
    device := (UnitId.mk device none).name
    currents := ← read .current
    voltages := ← read .voltage
    powers := ← read .power
    temperatures := ← read .temperature }

namespace Sensor

/-! ## The directory -/

/-- The directory with the channels of a device: the first one the bus lists. -/
def directory (h : Host) (r : Roots) (device : Index) : Except Fault String := do
  let unreadable (path : String) (e : Host.Error) : Fault := .sensors device (.unreadable path e)
  let file := r.management device "busname"
  let address ← (h.readText file).mapError (unreadable file)
  let root := Path.join (r.bus address.toList) "hwmon"
  let found ← (h.list root).mapError (unreadable root)
  match (found.map Prod.fst).mergeSort (fun a b => decide (a ≤ b)) with
  | [] => throw (.sensors device (.noInstance root))
  | name :: _ => return Path.join root name

/-! ## Channels -/

/-- The file of `names` that is this item of the channel, the last one if there are several. -/
def itemOf? (names : List String) (kind : SensorKind) (channel : Nat) (item : List Char) :
    Option String :=
  names.reverse.find? fun name =>
    SensorFile.ofFileName? name.toList = some ⟨kind, channel, item⟩

/-- The numbers of the channels that have a value, in order. -/
def channels (names : List String) (kind : SensorKind) : List Nat :=
  let numbers := names.filterMap fun name =>
    match SensorFile.ofFileName? name.toList with
    | some f => if f.kind = kind ∧ f.item = kind.valueItem then some f.channel else none
    | none => none
  (numbers.mergeSort (fun a b => decide (a ≤ b))).eraseDups

/-- The value of a channel, if its file can be read and holds one. -/
def value? (h : Host) (dir : String) (names : List String) (kind : SensorKind) (channel : Nat) :
    Option Int := do
  let name ← itemOf? names kind channel kind.valueItem
  let text ← (h.readText (Path.join dir name)).toOption
  Decimal.int64? (Text.trim text.toList)

/-- The label in a channel's file, unless there is none or it is blank. -/
def ownLabel? (h : Host) (dir : String) (names : List String) (kind : SensorKind)
    (channel : Nat) : Option String := do
  let name ← itemOf? names kind channel "label".toList
  let text ← (h.readText (Path.join dir name)).toOption
  let label := Text.trimmed text
  if label = "" then none else some label

/-- The label under which a channel is reported beside `earlier` ones. A channel without a label
has its number, and one whose label is taken gets its number behind it. -/
def label (earlier : List Reading) (channel : Nat) (own : Option String) : String :=
  let label := own.getD (Decimal.text channel)
  if earlier.any fun x => x.label = label then label ++ "_" ++ Decimal.text channel else label

/-- The readings of one kind, by channel number. -/
def readings (h : Host) (dir : String) (names : List String) (kind : SensorKind) :
    List Reading :=
  (channels names kind).foldl (fun earlier channel =>
    match value? h dir names kind channel with
    | none => earlier
    | some value =>
      earlier ++ [⟨label earlier channel (ownLabel? h dir names kind channel), value⟩]) []

/-- Reads every channel of one kind. -/
def read (h : Host) (r : Roots) (device : Index) (kind : SensorKind) :
    Except Fault (List Reading) := do
  let dir ← directory h r device
  let found ← (h.list dir).mapError fun e => .sensors device (.unreadable dir e)
  return readings h dir (found.map Prod.fst) kind

/-- Reads every channel of a device. -/
def snapshot (h : Host) (r : Roots) (device : Index) : Except Fault Snapshot :=
  Snapshot.gather device (read h r device)

end Sensor
end NpuBroker

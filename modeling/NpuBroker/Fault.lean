import NpuBroker.Host.Error
import NpuBroker.UnitId

/-!
# Faults

Why a call fails, by cause; the wording is all in `Fault.message`.
-/
namespace NpuBroker

/-- Why a device has no known architecture. -/
inductive ArchCause where
  | unreadable (cause : Host.Error)
  | unrecognized (text : String)
  | notIdentified
deriving DecidableEq

/-- What is wrong with a specifier or a request. -/
inductive SpecifierCause where
  | badName
  | emptySpecifier
  | emptySelector
  | combined
  | noUnitName
  | badArch (text : String)
  | badMode (text : String)
  | countOutOfRange
  | countZero
  | nothingNamed
  | repeated (unit : UnitId)
  | overlapping (unit other : UnitId)
  | notUnicode (key : String)
  | noSource (keys : List String)
  | absentDevice (device : Index)
  | absentUnit
deriving DecidableEq

/-- Why an item of a device's metadata has no value. -/
inductive MetadataCause where
  | unreadable (path : String) (cause : Host.Error)
  | unexpected (value : String)
deriving DecidableEq

/-- Why the sensors of a device cannot be listed. -/
inductive SensorCause where
  | unreadable (path : String) (cause : Host.Error)
  | noInstance (path : String)
deriving DecidableEq

inductive Fault where
  | scan (path : String) (cause : Host.Error)
  | unknownArch (device : Index) (cause : ArchCause)
  | invalidSpecifier (text : String) (cause : SpecifierCause)
  | insufficient (request : String) (requested available : Nat)
  | busy (name : String)
  | notFound (name : String)
  | metadata (device : Index) (item : String) (cause : MetadataCause)
  | sensors (device : Index) (cause : SensorCause)
  | host (cause : Host.Error)
deriving DecidableEq

def ArchCause.message : ArchCause → String
  | .unreadable cause => "cannot read device_type: " ++ cause.message
  | .unrecognized text => Arch.unrecognized text
  | .notIdentified => "device was not identified"

def SpecifierCause.message : SpecifierCause → String
  | .badName => "expected npu<N>, npu<N>pe<K> or npu<N>pe<A>-<B>"
  | .emptySpecifier => "empty specifier"
  | .emptySelector => "empty selector"
  | .combined => "structured requests cannot be combined with other selectors"
  | .noUnitName => "does not name a device file"
  | .badArch text => Arch.unrecognized text
  | .badMode text => Mode.unrecognized text
  | .countOutOfRange => "count is out of range"
  | .countZero => "count must be at least 1"
  | .nothingNamed => "at least one device file must be named"
  | .repeated unit => unit.name ++ " is named more than once"
  | .overlapping unit other => unit.name ++ " and " ++ other.name ++ " share a PE"
  | .notUnicode key => "value of " ++ key ++ " is not valid unicode"
  | .noSource keys =>
    "none of " ++ ", ".intercalate keys ++ " is set and no fallback was given"
  | .absentDevice device => (UnitId.mk device none).name ++ " is not present"
  | .absentUnit => "no such unit on this device"

def MetadataCause.message : MetadataCause → String
  | .unreadable path cause => path ++ ": " ++ cause.message
  | .unexpected value => "unexpected value '" ++ value ++ "'"

def SensorCause.message : SensorCause → String
  | .unreadable path cause => path ++ ": " ++ cause.message
  | .noInstance path => path ++ ": no hwmon instance"

namespace Fault

def message : Fault → String
  | .scan path cause => "Failed to scan device namespace " ++ path ++ ": " ++ cause.message
  | .unknownArch device cause =>
    "Unknown architecture for " ++ (UnitId.mk device none).name ++ ": " ++ cause.message
  | .invalidSpecifier text cause =>
    "Invalid device specifier '" ++ text ++ "': " ++ cause.message
  | .insufficient request requested available =>
    "Insufficient devices for " ++ request ++ ": requested " ++ Decimal.text requested ++
      ", topology offers " ++ Decimal.text available
  | .busy name => "Device " ++ name ++ " found but still in use"
  | .notFound name => "Device " ++ name ++ " not found"
  | .metadata device item cause =>
    "Failed to read " ++ item ++ " of " ++ (UnitId.mk device none).name ++ ": " ++
      cause.message
  | .sensors device cause =>
    "Hwmon error on " ++ (UnitId.mk device none).name ++ ": " ++ cause.message
  | .host cause => "IO error: " ++ cause.message

/-- The host's own refusal behind a fault that carries one. -/
def source? : Fault → Option Host.Error
  | .scan _ cause | .host cause => some cause
  | _ => none

/-- Whether the same call may succeed later. -/
def retryable : Fault → Bool
  | .busy _ | .scan _ _ => true
  | _ => false

end Fault

/-- The unit with this name, or the fault for a text that is none. -/
def UnitId.ofText (name : String) : Except Fault UnitId :=
  (UnitId.ofName? name).elim (.error (.invalidSpecifier name .badName)) .ok

end NpuBroker

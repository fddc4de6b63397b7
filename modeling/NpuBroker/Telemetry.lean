import NpuBroker.Outcome
import NpuBroker.Sensor

/-!
# Telemetry

What is kept about a host over time: how many devices the last enumeration found, the last value
of every sensor, and how many resolutions came out how. A poll enumerates the host and reads the
sensors of every device; a device whose sensors cannot be read is passed over, and a poll whose
enumeration fails keeps nothing.

* `value?_set`: a gauge holds the last value it was given, and no other gauge changes.
-/
namespace NpuBroker

/-- What tells one sensor gauge from another. -/
structure GaugeKey where
  device : String
  kind : SensorKind
  label : String
deriving DecidableEq

structure Registry where
  deviceCount : Nat
  gauges : List (GaugeKey × Binary64)
  resolved : List (Outcome × Nat)

namespace Registry

def empty : Registry := ⟨0, [], []⟩

/-- Puts a value for a key into a list that has at most one for each. -/
def assign {κ α : Type} [DecidableEq κ] (key : κ) (a : α) (entries : List (κ × α)) :
    List (κ × α) :=
  entries.filter (fun e => e.1 ≠ key) ++ [(key, a)]

section Assign

variable {κ α : Type} [DecidableEq κ]

theorem lookup_cons (k : κ) (e : κ × α) (entries : List (κ × α)) :
    (e :: entries).lookup k = if k = e.1 then some e.2 else entries.lookup k := by
  rw [List.lookup_cons]
  by_cases hk : k = e.1
  · rw [beq_iff_eq.2 hk, if_pos hk]
  · rw [beq_eq_false_iff_ne.2 hk, if_neg hk]

theorem assign_cons (key : κ) (a : α) (e : κ × α) (entries : List (κ × α)) :
    assign key a (e :: entries) =
      if e.1 = key then assign key a entries else e :: assign key a entries := by
  by_cases he : e.1 = key <;> simp [assign, he]

theorem lookup_assign {key k : κ} {a : α} {entries : List (κ × α)} :
    (assign key a entries).lookup k = if k = key then some a else entries.lookup k := by
  induction entries with
  | nil => exact lookup_cons k (key, a) []
  | cons e entries ih =>
    rw [assign_cons, lookup_cons]
    by_cases he : e.1 = key
    · rw [if_pos he, ih, he]
      by_cases hk : k = key
      · rw [if_pos hk, if_pos hk]
      · rw [if_neg hk, if_neg hk, if_neg hk]
    · rw [if_neg he, lookup_cons, ih]
      by_cases hk : k = e.1
      · rw [if_pos hk, if_pos hk, if_neg (hk ▸ he)]
      · rw [if_neg hk, if_neg hk]

end Assign

def value? (g : Registry) (key : GaugeKey) : Option Binary64 := g.gauges.lookup key

def set (g : Registry) (key : GaugeKey) (value : Binary64) : Registry :=
  { g with gauges := assign key value g.gauges }

/-- Sets the gauges of the readings of one kind. -/
def setReadings (g : Registry) (d : Device) (kind : SensorKind) (xs : List Reading) : Registry :=
  xs.foldl (fun g x => g.set ⟨d.name, kind, x.label⟩ (Binary64.ofInt x.value)) g

def setSnapshot (g : Registry) (d : Device) (s : Snapshot) : Registry :=
  s.categories.foldl (fun g (kind, xs) => g.setReadings d kind xs) g

/-- Counts one resolution. -/
def count (g : Registry) (o : Outcome) : Registry :=
  { g with resolved := assign o ((g.resolved.lookup o).getD 0 + 1) g.resolved }

theorem value?_set {g : Registry} {key k : GaugeKey} {value : Binary64} :
    (g.set key value).value? k = if k = key then some value else g.value? k := lookup_assign

end Registry

/-- What a poll comes across: the devices that there are, and what comes of reading their sensors,
kind by kind. -/
structure Look where
  listed : Except Fault Topology
  readings : Device → SensorKind → Except Fault (List Reading)

namespace Look

/-- A look at a host that does not change meanwhile. -/
def ofHost (h : Host) (r : Roots) : Look where
  listed := Discovery.list h r
  readings d := Sensor.read h r d.index

def snapshot (look : Look) (d : Device) : Except Fault Snapshot :=
  Snapshot.gather d.index (look.readings d)

end Look

namespace Telemetry

/-- Reads the sensors of each device that can be read, and keeps what was read. -/
def readAll (look : Look) : Topology → Registry → List Snapshot × Registry
  | [], g => ([], g)
  | d :: ds, g =>
    match look.snapshot d with
    | .error _ => readAll look ds g
    | .ok s =>
      let (rest, g) := readAll look ds (g.setSnapshot d s)
      (s :: rest, g)

/-- One poll. -/
def poll (look : Look) (g : Registry) : Except Fault (List Snapshot) × Registry :=
  match look.listed with
  | .error f => (.error f, g)
  | .ok t =>
    let (snapshots, g) := readAll look t { g with deviceCount := t.length }
    (.ok snapshots, g)

/-- Polls one after the other, each at its own look; polls that fail are passed over. -/
def watch (g : Registry) (looks : List Look) : Registry :=
  looks.foldl (fun g look => (poll look g).2) g

end Telemetry
end NpuBroker

import NpuBroker.Duration
import NpuBroker.Request.Sources
import NpuBroker.Roots
import NpuBroker.Trouble
import NpuBroker.Yaml.Reading

/-!
# Settings

What the command reads from its configuration file: the roots, where a specifier comes from when
none is given, and how telemetry is taken and offered. Whatever the file leaves out has its
standard value. Keys that mean nothing here are passed over; those that do may stand only once.

* `check_standard`: the standard settings are usable.
-/
namespace NpuBroker

structure MonitorSettings where
  interval : Duration

structure MetricsSettings where
  enabled : Bool
  port : Fin 65536

structure Settings where
  roots : Roots
  /-- The specifier for when no other is found. -/
  defaultSpecifier : Option String
  /-- The variable that may hold a specifier. -/
  specifierKey : String
  monitor : MonitorSettings
  metrics : MetricsSettings

/-- Why settings, or a specifier they lead to, cannot be used. -/
inductive Settings.Fault where
  | unreadable (why : Yaml.Unfit)
  | noInterval
  | noPort
  | noKey
  | badDefault (cause : NpuBroker.Fault)
  /-- The specifier that was given. -/
  | badSpecifier (cause : NpuBroker.Fault)
  | noSpecifier (key : String) (cause : NpuBroker.Fault)

namespace Settings

def Fault.trouble : Settings.Fault → Trouble
  | .unreadable why => ⟨"Failed to parse YAML configuration", [why.message]⟩
  | .noInterval => ⟨"monitor.interval must be > 0", []⟩
  | .noPort => ⟨"metrics.port must be > 0 when metrics are enabled", []⟩
  | .noKey => ⟨"specifier_env must not be empty", []⟩
  | .badDefault cause =>
    cause.trouble.within "default_specifier is not a valid device specifier"
  | .badSpecifier cause => cause.trouble
  | .noSpecifier key cause =>
    cause.trouble.within ("No device specifier given; set " ++ key ++ " or default_specifier")

def standard : Settings where
  roots := .standard
  defaultSpecifier := none
  specifierKey := "NPU_DEVNAME"
  monitor := ⟨.ofSeconds 1⟩
  metrics := ⟨true, 9464⟩

/-! ## Reading -/

def monitorOf (d : Yaml.Document) : Yaml.Document.Reader MonitorSettings :=
  d.record "struct MonitorConfig" ["interval"]
    (fun _ path n _ => do return ⟨← d.parsed "a duration" Duration.ofText? path n⟩)
    standard.monitor

def metricsOf (d : Yaml.Document) : Yaml.Document.Reader MetricsSettings :=
  d.record "struct MetricsConfig" ["enabled", "port"]
    (fun key path n s => do
      if key = "enabled" then return { s with enabled := ← d.bool path n }
      else return { s with port := ← d.below 65536 "u16" path n })
    standard.metrics

def rootKeys : List String := ["devfs", "sysfs", "procfs"]

def keys : List String := rootKeys ++ ["default_specifier", "specifier_env", "monitor", "metrics"]

/-- Puts what is under a key at the root into settings. -/
def put (d : Yaml.Document) (key : String) (path : List String) (n : Yaml.Node) (s : Settings) :
    Except Yaml.Unfit Settings := do
  if key ∈ rootKeys then
    let root ← d.text "path string" path n
    let roots := match key with
      | "devfs" => { s.roots with devfs := root }
      | "sysfs" => { s.roots with sysfs := root }
      | _ => { s.roots with procfs := root }
    return { s with roots := roots }
  else match key with
    | "default_specifier" =>
      return { s with defaultSpecifier := ← d.maybeText ([], d.root.mark) path n }
    | "specifier_env" => return { s with specifierKey := ← d.text "a string" path n }
    | "monitor" => return { s with monitor := ← monitorOf d path n }
    | _ => return { s with metrics := ← metricsOf d path n }

/-- The settings in a document, which nothing may follow. -/
def ofDocument (d : Yaml.Document) : Except Yaml.Unfit Settings := do
  let s ← d.record "struct Config" keys (put d) standard [] d.root
  if d.ending = .clean then return s else throw (.ending d.ending)

/-- The settings in a YAML text. -/
def ofText (s : String) : Except Settings.Fault Settings :=
  (ofDocument (.ofText s)).mapError .unreadable

/-! ## Using -/

/-- Refuses settings that cannot be used. -/
def check (s : Settings) : Except Settings.Fault Unit :=
  if s.monitor.interval = .zero then .error .noInterval
  else if s.metrics.enabled ∧ s.metrics.port = 0 then .error .noPort
  else if s.specifierKey = "" then .error .noKey
  else match s.defaultSpecifier with
    | none => .ok ()
    | some text => match Request.ofText text with
      | .error f => .error (.badDefault f)
      | .ok _ => .ok ()

/-- The request for a given specifier, or else the one found by the settings. -/
def request (s : Settings) (env : Environment) : Option String → Except Settings.Fault Request
  | some text => (Request.ofText text).mapError .badSpecifier
  | none =>
    (((Request.Sources.ofKey s.specifierKey).orText s.defaultSpecifier).resolve env).mapError
      (.noSpecifier s.specifierKey)

theorem check_standard : standard.check = .ok () := rfl

end Settings
end NpuBroker

import NpuBroker.Duration
import NpuBroker.UnitId

/-!
# Commands

What a user can ask for.
-/
namespace NpuBroker

inductive Command where
  | list (json : Bool)
  | status
  /-- Of all devices when no index is given. -/
  | info (indices : List Index) (json : Bool)
  /-- Claims what a specifier asks for, and holds it for a while. -/
  | find (specifier : Option String) (hold : Option Duration)
  | get (name : String)
  | hwmon (indices : List Index) (json : Bool)
  | monitor (once : Bool)

end NpuBroker

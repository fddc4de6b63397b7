import NpuBroker.Fault

/-!
# Outcomes

What is counted about a resolution: whether it succeeded and, in classes, why not.
-/
namespace NpuBroker

inductive Outcome where
  | ok
  | busy
  | insufficient
  | invalid
  | error
deriving DecidableEq

namespace Outcome

def name : Outcome → String
  | .ok => "ok"
  | .busy => "busy"
  | .insufficient => "insufficient"
  | .invalid => "invalid"
  | .error => "error"

def ofFault : Fault → Outcome
  | .busy _ => .busy
  | .insufficient _ _ _ => .insufficient
  | .invalidSpecifier _ _ => .invalid
  | _ => .error

def ofResult {α : Type} : Except Fault α → Outcome
  | .ok _ => .ok
  | .error f => ofFault f

end Outcome
end NpuBroker

import NpuBroker.Environment
import NpuBroker.Request.Specifier

/-!
# Where a request comes from

A chain of places that may hold a specifier: environment variables and texts that were given.
The first place that holds one decides, whether it can be read or not. Only when none does, the
fallback is taken.
-/
namespace NpuBroker.Request

inductive Source where
  | variable (key : String)
  | literal (text : String)

structure Sources where
  chain : List Source
  fallback : Option Request

namespace Sources

def ofKey (key : String) : Sources := ⟨[.variable key], none⟩

def orKey (s : Sources) (key : String) : Sources := { s with chain := s.chain ++ [.variable key] }

def orText (s : Sources) (text : Option String) : Sources :=
  { s with chain := s.chain ++ (text.map Source.literal).toList }

def orElse (s : Sources) (fallback : Request) : Sources := { s with fallback := some fallback }

def orStandard (s : Sources) : Sources := s.orElse standard

def keys (s : Sources) : List String :=
  s.chain.filterMap fun
    | .variable key => some key
    | .literal _ => none

/-- What a source holds: nothing, or a request or the reason why it is none. -/
def read? (env : Environment) : Source → Option (Except Fault Request)
  | .literal text => some (ofText text)
  | .variable key =>
    (env.get? key).map fun value =>
      match Utf8.decode? value with
      | some text => ofChars text
      | none =>
        .error (.invalidSpecifier (String.ofList (Utf8.lossy value)) (.notUnicode key))

def resolve (s : Sources) (env : Environment) : Except Fault Request :=
  match s.chain.findSome? (read? env) with
  | some answer => answer
  | none =>
    match s.fallback with
    | none => .error (.invalidSpecifier "" (.noSource s.keys))
    | some request => do
      request.check
      return request

end Sources
end NpuBroker.Request

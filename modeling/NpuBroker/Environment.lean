import NpuBroker.Utf8

/-!
# Environments

The variables a program is started with. Each is kept as one text `name=value`, and the value of a
key is what stands behind the key and an equals sign. So a key may hold an equals sign itself: then
it begins with a name, and the value of that name goes on as the key does. Values are bytes, and
need not be text.
-/
namespace NpuBroker

structure Environment where
  vars : List (String × List UInt8)

namespace Environment

/-- A key that a variable can begin with: not empty, and without NUL. -/
def usable (key : String) : Bool := key != "" && !key.toList.contains '\x00'

/-- What is behind `start` in `bytes`, if they begin with it. -/
def behind? (start bytes : List UInt8) : Option (List UInt8) :=
  if start.isPrefixOf bytes then some (bytes.drop start.length) else none

def get? (env : Environment) (key : String) : Option (List UInt8) :=
  let cs := key.toList
  if !usable key then none
  else if '=' ∈ cs then
    let name := String.ofList (cs.takeWhile (· ≠ '='))
    let more := (cs.dropWhile (· ≠ '=')).tail
    (env.vars.lookup name).bind (behind? (Utf8.encode (more ++ ['='])))
  else env.vars.lookup key

end Environment
end NpuBroker

import NpuBroker.Node
import NpuBroker.Utf8

/-!
# Device nodes at any path

To the system a path is bytes. The file name of a device node is text, for it is the name of a unit,
but the directory may be called anything. A node at a path that is text is a `Node`.
-/
namespace NpuBroker

structure RawNode where
  id : UnitId
  path : List UInt8
deriving DecidableEq

namespace RawNode

/-- The last component of a path, unless it is the root, `.` or `..`. -/
def fileName? (path : List UInt8) : Option (List UInt8) :=
  let components := (path.splitOn 0x2F).filter fun piece => piece ≠ [] ∧ piece ≠ [0x2E]
  components.getLast?.filter fun name => name ≠ [0x2E, 0x2E]

/-- The node at `path`, when its file name is text and the name of a unit. -/
def ofPath? (path : List UInt8) : Option RawNode := do
  let name ← Utf8.decode? (← fileName? path)
  let id ← UnitId.ofChars? name
  return ⟨id, path⟩

/-- The same node with its path as text. -/
def node? (n : RawNode) : Option Node :=
  (Utf8.decode? n.path).map fun path => ⟨n.id, String.ofList path⟩

end RawNode

/-- The same node with its path in bytes. -/
def Node.raw (n : Node) : RawNode := ⟨n.id, Utf8.encode n.path.toList⟩

end NpuBroker

import NpuBroker.Command.Answer

/-!
# Captures

Surroundings written down line by line, so that a command can be tried on a host that is not at
hand. A line has fields with tabs between them: what it tells of, and about it

* `dir` a path;
* `file` a path and the text in it;
* `link` a path and the file that it is another name of;
* `symlink` a path and where it points;
* `held` the path of a node that somebody holds;
* `set` the name of a variable and its value;
* `time` the time.

In a field `\t`, `\n` and `\\` stand for a tab, a line break and a backslash. Empty lines say
nothing, and nodes are held once the whole host is known.
-/
namespace NpuBroker.Capture

/-- What a field stands for. -/
def unescape : List Char → List Char
  | '\\' :: 't' :: cs => '\t' :: unescape cs
  | '\\' :: 'n' :: cs => '\n' :: unescape cs
  | '\\' :: '\\' :: cs => '\\' :: unescape cs
  | c :: cs => c :: unescape cs
  | [] => []

def fields (line : String) : List String :=
  (line.toList.splitOn '\t').map fun cs => String.ofList (unescape cs)

/-- What a capture has told so far. -/
structure Told where
  host : Host
  vars : List (String × List UInt8)
  held : List String
  time : String

def Told.nothing : Told := ⟨.empty, [], [], ""⟩

/-- What is told once a line with these fields is added. -/
def Told.add? (t : Told) : List String → Option Told
  | [""] => some t
  | ["dir", path] => some { t with host := t.host.makeDir path }
  | ["file", path, text] => some { t with host := t.host.write path (Utf8.encode text.toList) }
  | ["link", path, target] => some { t with host := t.host.hardLink path target }
  | ["symlink", path, target] => some { t with host := t.host.symLink path target }
  | ["held", path] => some { t with held := t.held ++ [path] }
  | ["set", name, value] =>
    some { t with vars := t.vars ++ [(name, Utf8.encode value.toList)] }
  | ["time", time] => some { t with time := time }
  | _ => none

/-- The locks on the nodes at `paths`, as far as there are any. -/
def locksOn (h : Host) (paths : List String) : Locks :=
  paths.foldl (fun l path => (l.acquire h path).2) []

/-- The surroundings that `lines` tell of. -/
def read? (lines : List String) : Option Surroundings := do
  let t ← lines.foldlM (fun t line => t.add? (fields line)) Told.nothing
  return ⟨t.host, ⟨t.vars⟩, locksOn t.host t.held, t.time⟩

end NpuBroker.Capture

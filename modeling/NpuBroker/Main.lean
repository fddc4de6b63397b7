import NpuBroker.Capture

/-!
# The program

Reads a capture from standard input, does what its words ask for, and writes the answer. A command
that would wait has nothing to wait for in a capture, and ends.
-/
namespace NpuBroker.Program

def usage : String :=
  "Usage: npu-broker [OPTIONS] <COMMAND>\n\n" ++
  "Commands:\n" ++
  "  list [--json]                devices, their architecture and units\n" ++
  "  status                       the state of each PE and who uses it\n" ++
  "  info [INDEX]... [--json]     metadata of devices\n" ++
  "  find [SPEC] [--hold TIME]    claim what a specifier asks for\n" ++
  "  get NAME                     one device node\n" ++
  "  hwmon [INDEX]... [--json]    sensors of devices\n" ++
  "  monitor [--once]             poll sensors\n\n" ++
  "Options: --config, --devfs, --sysfs, --procfs, --log-level, --log-json\n"

/-- The lines of a stream up to its end. -/
partial def linesOf (input : IO.FS.Stream) (found : Array String) : IO (List String) := do
  let line ← input.getLine
  if line.isEmpty then return found.toList
  linesOf input (found.push (String.ofList (line.toList.filter (· ≠ '\n'))))

/-- Writes an answer, and says how the program ends. -/
def write (a : Answer) : IO UInt32 := do
  IO.print a.output
  match a.ending with
  | .finished | .waiting _ => return 0
  | .failed t =>
    t.lines.forM IO.eprintln
    return 1

end NpuBroker.Program

open NpuBroker Program in
def main (words : List String) : IO UInt32 := do
  match Capture.read? (← linesOf (← IO.getStdin) #[]) with
  | none =>
    IO.eprintln "the capture cannot be read"
    return 2
  | some w =>
    match CommandLine.ofWords w.environment words with
    | .ok c => write (c.answer w)
    | .error .version =>
      IO.println "npu-broker 0.1.0"
      return 0
    | .error .help =>
      IO.print usage
      return 0
    | .error .usage =>
      IO.eprint usage
      return 2

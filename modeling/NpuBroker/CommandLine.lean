import NpuBroker.Command
import NpuBroker.Environment

/-!
# The command line

What a user asks the command for. The words are read in order at two levels: the options that hold
for every command, then the name of a command and what it takes. Most options of the first level
may also stand behind the name, and count more there. An option is given once at each level.

An option's value follows it, in the same word behind `=` or as the next word, which then must not
begin with a dash. Behind a lone `--` every word is an operand.
-/
namespace NpuBroker

structure CommandLine where
  config : String
  devfs : Option String
  sysfs : Option String
  procfs : Option String
  logLevel : String
  logJson : Bool
  command : Command

namespace CommandLine

/-- Why there is nothing to do: the user asked for help or the version, or made a mistake. -/
inductive Refused where
  | help
  | version
  | usage
deriving DecidableEq

/-- The options with a value. -/
inductive Setting where
  | config
  | devfs
  | sysfs
  | procfs
  | logLevel
  | hold
deriving DecidableEq

/-- The options without one. -/
inductive Switch where
  | logJson
  | json
  | once
deriving DecidableEq

/-- What an option is. -/
inductive Meaning where
  | setting (s : Setting)
  | switch (s : Switch)
  | refused (r : Refused)

inductive Level where
  | root
  | list
  | status
  | info
  | find
  | get
  | hwmon
  | monitor
deriving DecidableEq

namespace Level

/-- The commands. -/
def ofName? : String → Option Level
  | "list" => some .list
  | "status" => some .status
  | "info" => some .info
  | "find" => some .find
  | "get" => some .get
  | "hwmon" => some .hwmon
  | "monitor" => some .monitor
  | _ => none

/-- The options of a level by their long names. -/
def long? (l : Level) : String → Option Meaning
  | "devfs" => some (.setting .devfs)
  | "sysfs" => some (.setting .sysfs)
  | "procfs" => some (.setting .procfs)
  | "log-level" => some (.setting .logLevel)
  | "log-json" => some (.switch .logJson)
  | "help" => some (.refused .help)
  | "version" => if l = .root then some (.refused .version) else none
  | "config" => if l = .root then some (.setting .config) else none
  | "hold" => if l = .find then some (.setting .hold) else none
  | "once" => if l = .monitor then some (.switch .once) else none
  | "json" => if l ∈ [.list, .info, .hwmon] then some (.switch .json) else none
  | _ => none

/-- The options of a level by their letters. -/
def short? (l : Level) : Char → Option Meaning
  | 'h' => some (.refused .help)
  | 'V' => if l = .root then some (.refused .version) else none
  | 'c' => if l = .root then some (.setting .config) else none
  | _ => none

/-- A signed number of 64 bits that is an index; so a nought may have a minus. -/
def deviceIndex? (s : String) : Option Index :=
  (Decimal.int64? s.toList).bind fun n => if 0 ≤ n then Decimal.below? 256 n.toNat else none

/-- Whether a level takes `s` as one more operand behind `n` others. -/
def takes (l : Level) (n : Nat) (s : String) : Bool :=
  match l with
  | .info | .hwmon => (deviceIndex? s).isSome
  | .find | .get => n = 0
  | _ => false

end Level

/-! ## Words -/

inductive Word where
  | operand (s : String)
  | long (name : String) (value : Option String)
  | short (letter : Char) (more : List Char)
  | stop

def Word.ofText (s : String) : Word :=
  match s.toList with
  | ['-', '-'] => .stop
  | '-' :: '-' :: cs =>
    .long (String.ofList (cs.takeWhile (· ≠ '='))) <|
      match cs.dropWhile (· ≠ '=') with
      | [] => none
      | _ :: value => some (String.ofList value)
  | '-' :: c :: cs => .short c cs
  | _ => .operand s

/-- What a word says at a level. -/
inductive Saying where
  | refused (r : Refused)
  | switch (s : Switch)
  | setting (s : Setting) (value : String)
  /-- The value is in the next word. -/
  | settingNext (s : Setting)
  | operand (s : String)
  /-- Everything behind it is an operand. -/
  | stop

namespace Level

/-- The value in the word of a letter. -/
def attached : List Char → Option String
  | [] => none
  | '=' :: cs => some (String.ofList cs)
  | cs => some (String.ofList cs)

def saying (l : Level) : Word → Saying
  | .operand s => .operand s
  | .stop => .stop
  | .long name value =>
    match l.long? name, value with
    | some (.setting s), some v => .setting s v
    | some (.setting s), none => .settingNext s
    | some (.switch s), none => .switch s
    | some (.refused r), none => .refused r
    | _, _ => .refused .usage
  | .short letter more =>
    match l.short? letter, attached more with
    | some (.setting s), some v => .setting s v
    | some (.setting s), none => .settingNext s
    | some (.refused r), _ => .refused r
    | _, _ => .refused .usage

end Level

/-- What the words of a level said. -/
structure Given where
  settings : List (Setting × String)
  switches : List Switch
  operands : List String
  /-- The last option was mistaken, which shows only behind the command. -/
  mistaken : Bool

namespace Given

def nothing : Given := ⟨[], [], [], false⟩

/-- Whether an option can have this value. -/
def accepts : Setting → String → Bool
  | .config, v | .devfs, v | .sysfs, v | .procfs, v => v != ""
  | .logLevel, _ => true
  | .hold, v => (Duration.ofText? v).isSome

def setting? (g : Given) (s : Setting) : Option String := g.settings.lookup s

def set? (g : Given) (s : Setting) (v : String) : Option Given :=
  if (g.setting? s).isSome ∨ !accepts s v then none
  else some { g with settings := g.settings ++ [(s, v)] }

def switch? (g : Given) (s : Switch) : Option Given :=
  if s ∈ g.switches then none else some { g with switches := g.switches ++ [s] }

def operand? (g : Given) (l : Level) (s : String) : Option Given :=
  if l.takes g.operands.length s then some { g with operands := g.operands ++ [s] } else none

end Given

def orUsage {α : Type} (x : Option α) : Except Refused α := x.elim (.error .usage) .ok

/-- Reads the words of a level; at the root, up to the first operand. Answers with what was said and
what is left. -/
def read (l : Level) : Given → List String → Except Refused (Given × List String)
  | g, [] => .ok (g, [])
  | g, w :: ws =>
    match l.saying (.ofText w) with
    | .refused r => .error r
    | .switch s => do read l (← orUsage (g.switch? s)) ws
    | .setting s v => do read l (← orUsage (g.set? s v)) ws
    | .settingNext s =>
      match ws with
      | [] => .error .usage
      | v :: rest =>
        match Word.ofText v, g.set? s v with
        | .operand _, some g => read l g rest
        | .operand _, none =>
          match l, rest.head?.map Word.ofText with
          | .root, some (.operand _) => .ok ({ g with mistaken := true }, rest)
          | _, _ => .error .usage
        | _, _ => .error .usage
    | .stop => do
      let g ← ws.foldlM (fun g w => orUsage (g.operand? l w)) g
      return (g, [])
    | .operand s =>
      if l = .root then .ok (g, w :: ws)
      else do read l (← orUsage (g.operand? l s)) ws

/-! ## Variables -/

def levelKey : String := "NPUDEV_LOG_LEVEL"
def jsonKey : String := "NPUDEV_LOG_JSON"

/-- The log level that a variable gives. -/
def levelFrom (env : Environment) : Except Refused (Option String) :=
  match env.get? levelKey with
  | none => .ok none
  | some bytes => orUsage ((Utf8.decode? bytes).map fun cs => some (String.ofList cs))

/-- Whether a variable asks for logs as JSON. -/
def jsonFrom (env : Environment) : Except Refused Bool :=
  match (env.get? jsonKey).map Utf8.decode? with
  | none => .ok false
  | some (some ['t', 'r', 'u', 'e']) => .ok true
  | some (some ['f', 'a', 'l', 's', 'e']) => .ok false
  | _ => .error .usage

/-- Looks into the variables for what a level was not told. -/
def Given.fill (g : Given) (env : Environment) : Except Refused (Option String × Bool) := do
  let level ← if (g.setting? .logLevel).isSome then .ok none else levelFrom env
  let json ← if .logJson ∈ g.switches then .ok true else jsonFrom env
  return (level, json)

/-! ## Commands -/

/-- What was said behind the name of a command, as the command. -/
def commandOf (l : Level) (g : Given) : Option Command :=
  let json := decide (.json ∈ g.switches)
  let indices := g.operands.filterMap Level.deviceIndex?
  match l with
  | .root => none
  | .list => some (.list json)
  | .status => some .status
  | .info => some (.info indices json)
  | .find => some (.find g.operands.head? ((g.setting? .hold).bind Duration.ofText?))
  | .get => g.operands.head?.map .get
  | .hwmon => some (.hwmon indices json)
  | .monitor => some (.monitor (decide (.once ∈ g.switches)))

/-- What asking for help on `topics` comes to. -/
def helpOn (topics : List String) : Refused :=
  match topics with
  | [] => .help
  | [topic] => if topic = "help" ∨ (Level.ofName? topic).isSome then .help else .usage
  | _ => .usage

/-- The command line in the words behind the program's name. -/
def ofWords (env : Environment) (words : List String) : Except Refused CommandLine := do
  let (outer, rest) ← read .root .nothing words
  match rest with
  | [] => throw .usage
  | name :: more =>
    if name = "help" then throw (helpOn more)
    let level ← orUsage (Level.ofName? name)
    let (inner, _) ← read level .nothing more
    let (logLevel, _) ← inner.fill env
    let command ← orUsage (commandOf level inner)
    if outer.mistaken then throw .usage
    let (_, logJson) ← outer.fill env
    let setting (s : Setting) : Option String := (inner.setting? s).or (outer.setting? s)
    return {
      config := (outer.setting? .config).getD "/etc/npudev/config.yaml"
      devfs := setting .devfs
      sysfs := setting .sysfs
      procfs := setting .procfs
      logLevel := ((setting .logLevel).or logLevel).getD "warn"
      logJson := logJson || decide (.logJson ∈ inner.switches)
      command := command }

end CommandLine
end NpuBroker

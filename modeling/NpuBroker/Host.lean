import NpuBroker.Host.Error
import NpuBroker.Utf8

/-!
# Hosts

What a host's file tree holds: at each place a file, a directory or a symbolic link. Several
places may hold one file. A path is walked from the root, name by name; at most forty links are
followed on the way. New entries are made where the walk leads, with the directories that are
missing above them; what cannot be made changes nothing.

* `locate_eq_ok_iff`, `at?_eq_ok_iff`: a path leads somewhere where its names lead on.
* `openNode_eq_ok_iff`: opening for writing succeeds exactly where a file is.
* `read_eq_ok`: what is read from a path is what the file there contains.
-/
namespace NpuBroker

/-- What tells one file from another, whatever it is called. -/
abbrev FileId := Nat

namespace Host

/-- The names that lead from the root to an entry. -/
abbrev Place := List String

inductive Entry where
  | file (id : FileId)
  | directory
  | link (target : String)
deriving DecidableEq

end Host

structure Host where
  entries : List (Host.Place × Host.Entry)
  contents : List (FileId × List UInt8)
  /-- No file has this id or a later one. -/
  fresh : FileId

namespace Host

def empty : Host := ⟨[], [], 0⟩

/-! ## Walking a path -/

/-- The root is always a directory. -/
def entry? (h : Host) (p : Place) : Option Entry :=
  if p = [] then some .directory else h.entries.lookup p

/-- How many links a walk follows. -/
def mostLinks : Nat := 40

/-- How many bytes a name has at most. -/
def longestName : Nat := 255

/-- How many bytes a path has at most. -/
def longestPath : Nat := 4095

def isAbsolute (path : String) : Bool := path.toList.head? == some '/'

/-- The names of a path. A slash at its end asks for a directory, as `.` does. -/
def names (path : String) : List String :=
  let pieces := path.toList.splitOn '/'
  let names := (pieces.filter fun p => !p.isEmpty).map String.ofList
  if pieces.getLast? = some [] ∧ names ≠ [] then names ++ ["."] else names

/-- The place that `names` lead to from `p`, following at most `links` links, and a link at the
very end only when `follow` is set. -/
def walk (h : Host) (follow : Bool) (links : Nat) (p : Place) (names : List String) :
    Except Error Place :=
  match names with
  | [] => .ok p
  | name :: rest =>
    if h.entry? p ≠ some .directory then .error .notDirectory
    else if name = "." then h.walk follow links p rest
    else if name = ".." then h.walk follow links p.dropLast rest
    else if longestName < name.utf8ByteSize then .error .nameTooLong
    else match h.entry? (p ++ [name]) with
      | none => .error .notFound
      | some (.link target) =>
        if rest = [] ∧ !follow then .ok (p ++ [name])
        else match links with
          | 0 => .error .tooManyLinks
          | links + 1 =>
            h.walk follow links (if isAbsolute target then [] else p) (Host.names target ++ rest)
      | some _ => h.walk follow links (p ++ [name]) rest
  termination_by (links, names.length)

/-- The place of an absolute path; no other path leads anywhere. -/
def locate (h : Host) (follow : Bool) (path : String) : Except Error Place :=
  if path.toList.contains '\x00' then .error .nulInName
  else if longestPath < path.utf8ByteSize then .error .nameTooLong
  else if isAbsolute path then h.walk follow mostLinks [] (names path)
  else .error .notFound

/-- What is at a path, behind every link. -/
def at? (h : Host) (path : String) : Except Error (Place × Entry) := do
  let p ← h.locate true path
  match h.entry? p with
  | none => throw .notFound
  | some e => return (p, e)

/-! ## Looking -/

def exists? (h : Host) (path : String) : Bool := (h.at? path).toBool

/-- The file to lock when a node is opened for reading and writing. -/
def openNode (h : Host) (path : String) : Except Error FileId :=
  match h.at? path with
  | .error e => .error e
  | .ok (_, .file id) => .ok id
  | .ok _ => .error .isDirectory

def contentsOf (h : Host) (id : FileId) : List UInt8 := (h.contents.lookup id).getD []

def read (h : Host) (path : String) : Except Error (List UInt8) := do
  return h.contentsOf (← h.openNode path)

def readText (h : Host) (path : String) : Except Error String := do
  match Utf8.decode? (← h.read path) with
  | none => throw .notText
  | some text => return String.ofList text

/-- The names in a directory and what each is. -/
def list (h : Host) (path : String) : Except Error (List (String × Entry)) := do
  match ← h.at? path with
  | (p, .directory) =>
    return h.entries.filterMap fun (q, e) =>
      match q.getLast? with
      | some name => if q.dropLast = p then some (name, e) else none
      | none => none
  | _ => throw .notDirectory

/-- Where the link at a path points. -/
def readLink? (h : Host) (path : String) : Option String :=
  match h.locate false path with
  | .error _ => none
  | .ok p =>
    match h.entry? p with
    | some (.link target) => some target
    | _ => none

/-! ## Changing -/

def set (h : Host) (p : Place) (e : Entry) : Host :=
  if (h.entries.lookup p).isSome then
    { h with entries := h.entries.map fun (q, d) => if q = p then (q, e) else (q, d) }
  else { h with entries := h.entries ++ [(p, e)] }

/-- Makes the directories that are missing on the way along `names` from `p`. -/
def makeDirs (h : Host) (p : Place) : List String → Host
  | [] => h
  | name :: rest =>
    match h.walk true mostLinks p [name], h.entry? (p ++ [name]) with
    | .ok q, _ => h.makeDirs q rest
    | .error .notFound, none => (h.set (p ++ [name]) .directory).makeDirs (p ++ [name]) rest
    | .error _, _ => h

/-- The place that `names` call from `p`, whatever is there. -/
def spot? (h : Host) (p : Place) (names : List String) : Option Place := do
  let name ← names.getLast?
  let parent ← (h.walk true mostLinks p names.dropLast).toOption
  guard (h.entry? parent = some .directory ∧ name ≠ "." ∧ name ≠ ".." ∧
    name.utf8ByteSize ≤ longestName)
  return parent ++ [name]

/-- The place of a file that is called `p`: behind the links there, with no need to exist. -/
def fileSpot? (h : Host) : Nat → Place → Option Place
  | links, p =>
    match h.entry? p, links with
    | none, _ | some (.file _), _ => some p
    | some (.link target), links + 1 =>
      (h.spot? (if isAbsolute target then [] else p.dropLast) (names target)).bind
        (h.fileSpot? links)
    | some (.link _), 0 | some .directory, _ => none

/-- Makes the directories above `path`. -/
def makeParents (h : Host) (path : String) : Host := h.makeDirs [] (names path).dropLast

def setContents (h : Host) (id : FileId) (bytes : List UInt8) : Host :=
  { h with contents := (id, bytes) :: h.contents.filter fun c => c.1 ≠ id }

/-- Gives the file at `path` these contents, making it if there is none. -/
def write (h : Host) (path : String) (bytes : List UInt8) : Host :=
  let h := h.makeParents path
  match (h.spot? [] (names path)).bind (h.fileSpot? mostLinks) with
  | none => h
  | some p =>
    match h.entry? p with
    | some (.file id) => h.setContents id bytes
    | _ => { (h.set p (.file h.fresh)).setContents h.fresh bytes with fresh := h.fresh + 1 }

/-- Puts a new entry at `path`, unless there is one. -/
def add (h : Host) (path : String) (e : Entry) : Host :=
  let h := h.makeParents path
  match h.spot? [] (names path) with
  | none => h
  | some p => if (h.entry? p).isNone then h.set p e else h

def makeDir (h : Host) (path : String) : Host := h.makeDirs [] (names path)

def symLink (h : Host) (path target : String) : Host := h.add path (.link target)

/-- Makes `path` another name of the file or link at `target`. -/
def hardLink (h : Host) (path target : String) : Host :=
  match (h.locate false target).toOption.bind h.entry? with
  | none | some .directory => h
  | some e => h.add path e

/-- Takes away the entry at `path` and all that is below it. -/
def remove (h : Host) (path : String) : Host :=
  match h.locate false path with
  | .error _ => h
  | .ok p => { h with entries := h.entries.filter fun (q, _) => !p.isPrefixOf q }

/-! ## Where a path leads -/

theorem locate_eq_ok_iff {h : Host} {follow : Bool} {path : String} {p : Place} :
    h.locate follow path = .ok p ↔ '\x00' ∉ path.toList ∧ path.utf8ByteSize ≤ longestPath ∧
      isAbsolute path = true ∧ h.walk follow mostLinks [] (names path) = .ok p := by
  unfold locate
  by_cases hnul : '\x00' ∈ path.toList
  · simp [hnul]
  by_cases hlong : longestPath < path.utf8ByteSize
  · simp [hnul, hlong, Nat.not_le.2 hlong]
  by_cases habs : isAbsolute path = true <;> simp [hnul, hlong, habs, Nat.not_lt.1 hlong]

theorem at?_eq_ok_iff {h : Host} {path : String} {p : Place} {e : Entry} :
    h.at? path = .ok (p, e) ↔ h.locate true path = .ok p ∧ h.entry? p = some e := by
  constructor
  · intro hat
    unfold at? at hat
    cases hl : h.locate true path with
    | error err => simp [hl, bind, Except.bind] at hat
    | ok q =>
      cases he : h.entry? q with
      | none => simp [hl, he, bind, Except.bind, throw, throwThe, MonadExceptOf.throw] at hat
      | some d =>
        simp only [hl, he, bind, Except.bind, pure, Except.pure, Except.ok.injEq,
          Prod.mk.injEq] at hat
        obtain ⟨rfl, rfl⟩ := hat
        exact ⟨rfl, he⟩
  · rintro ⟨hp, he⟩
    simp [at?, hp, he, bind, Except.bind, pure, Except.pure]

/-! ## Opening and reading -/

theorem openNode_eq_ok_iff {h : Host} {path : String} {id : FileId} :
    h.openNode path = .ok id ↔ ∃ p, h.at? path = .ok (p, .file id) := by
  unfold openNode
  split
  · rename_i e he
    simp [he]
  · rename_i p i he
    simp [he]
  · rename_i r hn he
    obtain ⟨p, e⟩ := r
    simp only [he, reduceCtorEq, Except.ok.injEq, Prod.mk.injEq, false_iff, not_exists, not_and]
    rintro q rfl rfl
    exact hn p id rfl

theorem read_eq_ok {h : Host} {path : String} {id : FileId} (ho : h.openNode path = .ok id) :
    h.read path = .ok (h.contentsOf id) := by
  simp [read, ho, bind, Except.bind, pure, Except.pure]

end Host
end NpuBroker

import NpuBroker.Yaml.Found

/-!
# Reading documents

Typed values out of the nodes of a document. The entries of a record are read in the order they are
written, so of several things that do not suit the first one is told; a fault of the text counts
where it is. What does not suit is told with its path from the root and its place in the text.
-/
namespace NpuBroker.Yaml

/-- Why a document does not hold what is wanted. -/
inductive Unfit where
  | ending (e : Ending)
  | misfit (m : Misfit) (path : List String) (mark : Mark)

def Unfit.message : Unfit → String
  | .ending .clean => "EOF while parsing a value"
  | .ending .more => "deserializing from YAML containing more than one document is not supported"
  | .ending (.fault f) => f.message
  | .misfit m [] mark => m.message ++ mark.suffix
  | .misfit m path mark => ".".intercalate path ++ ": " ++ m.message ++ mark.suffix

namespace Document

variable {σ : Type}

/-- Reads a node with this path. -/
abbrev Reader (α : Type) := List String → Node → Except Unfit α

/-- The node is not what is wanted. -/
def refuse {α : Type} (d : Document) (wanted : String) : Reader α := fun path n =>
  match n with
  | .scalar mark style tag text => .error (.misfit (.ofScalar style tag text wanted) path mark)
  | .sequence mark _ => .error (.misfit (.type .sequence wanted) path mark)
  | .mapping mark _ => .error (.misfit (.type .mapping wanted) path mark)
  | .reference _ | .broken => .error (.ending d.ending)

/-- Any scalar is a text. -/
def text (d : Document) (wanted : String) : Reader String := fun path n =>
  match d.resolve n with
  | .scalar _ _ _ text => .ok text
  | n => d.refuse wanted path n

/-- A text for which there has to be a value. -/
def parsed {α : Type} (d : Document) (wanted : String) (parse? : String → Option α) : Reader α :=
  fun path n =>
    match d.resolve n with
    | .scalar mark _ _ text =>
      match parse? text with
      | some a => .ok a
      | none => .error (.misfit (.value (.text text) wanted) path mark)
    | n => d.refuse wanted path n

/-- A text that may be left out; only a plain scalar can be no text. A text with the tag of nothing
is told of as if it were the whole `record`. -/
def maybeText (d : Document) (record : List String × Mark) : Reader (Option String) :=
  fun path n =>
    match d.resolve n with
    | .scalar _ .plain none text =>
      .ok (if text = "" ∨ Found.isNull text then none else some text)
    | .scalar _ .plain (some tag) text =>
      if tag = standardTag "null" then
        if Found.isNull text then .ok none
        else .error (.misfit (.value (.text text) "null") record.1 record.2)
      else .ok (some text)
    | .scalar _ _ _ text => .ok (some text)
    | n => d.refuse "a string" path n

/-- Whether a scalar can be of another type than text: a plain one, or a literal block with the tag
of the type. -/
def isBare (type : String) (style : Style) (tag : Option TagText) : Bool :=
  style == .plain || style == .literal && tag == some (standardTag type)

def bool (d : Document) : Reader Bool := fun path n =>
  match d.resolve n with
  | .scalar mark style tag text =>
    match if isBare "bool" style tag then Found.bool? text else none with
    | some b => .ok b
    | none => d.refuse "a boolean" path (.scalar mark style tag text)
  | n => d.refuse "a boolean" path n

/-- A natural number below `bound`. -/
def below (d : Document) (bound : Nat) (wanted : String) : Reader (Fin bound) := fun path n =>
  match d.resolve n with
  | .scalar mark style tag text =>
    let number := (Found.natural? text.toList).filter (· < Nat.pow 2 64)
    match if isBare "int" style tag then number else none with
    | some n =>
      if h : n < bound then .ok ⟨n, h⟩
      else .error (.misfit (.value (.integer n) wanted) path mark)
    | none => d.refuse wanted path (.scalar mark style tag text)
  | n => d.refuse wanted path n

/-- How a path names the value of an entry. -/
def entryName : Node → String
  | .scalar _ _ _ text => text
  | _ => "?"

/-- Reads the entries of a record that begins at `mark`, behind those with the keys `seen`. Those
under other keys are passed over. -/
def entriesFrom (d : Document) (path : List String) (mark : Mark) (keys : List String)
    (put : String → List String → Node → σ → Except Unfit σ) :
    List String → σ → List (Node × Node) → Except Unfit σ
  | _, s, [] => .ok s
  | seen, s, (key, value) :: more => do
    let name ← d.text "field identifier" path key
    if name ∉ keys then
      if value.isWhole then entriesFrom d path mark keys put seen s more
      else throw (.ending d.ending)
    else if name ∈ seen then throw (.misfit (.repeated name) path mark)
    else
      let s ← put name (path ++ [entryName key]) value s
      entriesFrom d path mark keys put (name :: seen) s more

/-- A record. Its values are `put` into `standard` one by one; where nothing is written stays
`standard`. -/
def record (d : Document) (wanted : String) (keys : List String)
    (put : String → List String → Node → σ → Except Unfit σ) (standard : σ) : Reader σ :=
  fun path n =>
    match d.resolve n with
    | .scalar _ .plain _ "" => .ok standard
    | .mapping mark entries => d.entriesFrom path mark keys put [] standard entries
    | n => d.refuse wanted path n

end Document
end NpuBroker.Yaml

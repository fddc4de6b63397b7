/-!
# Paths

A path is kept as the text it was given. What it means is its list of components: repeated `/`
and inner `.` vanish, a leading `.` and every `..` stay. Equality, order, parent and file name
are those of the components.

* `fileName?_eq_some_iff`: the file name is a name that the path ends in.
* `parent?_eq_some_iff`: the parent is the rest, whatever the path ends in.
-/
namespace NpuBroker.Path

inductive Component where
  | root
  | here
  | up
  | name (text : String)
deriving DecidableEq

/-- The root before `.` before `..` before names by code point. -/
def Component.rank : Component → List Nat
  | .root => [0]
  | .here => [1]
  | .up => [2]
  | .name text => 3 :: text.toList.map Char.toNat

/-- A piece between two slashes. Empty pieces and `.` mean nothing. -/
def component? (piece : List Char) : Option Component :=
  if piece = [] ∨ piece = ['.'] then none
  else if piece = ['.', '.'] then some .up
  else some (.name (String.ofList piece))

def components (path : String) : List Component :=
  let pieces := path.toList.splitOn '/'
  let start := match pieces with
    | [] :: _ :: _ => [.root]
    | ['.'] :: _ => [.here]
    | _ => []
  start ++ pieces.filterMap component?

/-- Whether two texts are one path. -/
def same (a b : String) : Bool := components a == components b

/-- Component by component. -/
def rank (path : String) : List (List Nat) := (components path).map Component.rank

/-- The last component, unless it is the root, `.` or `..`. -/
def fileName? (path : String) : Option String :=
  match (components path).getLast? with
  | some (.name text) => some text
  | _ => none

/-- The components without the last one; the root and the empty path have no parent. -/
def parent? (path : String) : Option (List Component) :=
  match (components path).getLast? with
  | none | some .root => none
  | some _ => some (components path).dropLast

def isAbsolute (path : String) : Bool := path.toList.head? == some '/'

/-- `rest` under `base`, or `rest` alone when it is absolute. -/
def join (base rest : String) : String :=
  if isAbsolute rest then rest
  else if base = "" ∨ base.toList.getLast? = some '/' then base ++ rest
  else base ++ "/" ++ rest

theorem fileName?_eq_some_iff {path name : String} :
    fileName? path = some name ↔ (components path).getLast? = some (.name name) := by
  unfold fileName?
  split
  · rename_i text h
    simp [h]
  · rename_i h
    simp only [reduceCtorEq, false_iff]
    exact fun h' => h name h'

/-- What a path begins with is no name. -/
theorem fileName?_eq_some_iff_last {path name : String} :
    fileName? path = some name ↔
      ((path.toList.splitOn '/').filterMap component?).getLast? = some (.name name) := by
  rw [fileName?_eq_some_iff, components, List.getLast?_append]
  split <;> cases (List.filterMap component? _).getLast? <;> simp

/-- A path has a parent unless it is empty or the root. -/
theorem parent?_eq_some_iff {path : String} {cs : List Component} :
    parent? path = some cs ↔ ∃ last, last ≠ .root ∧ components path = cs ++ [last] := by
  unfold parent?
  rcases List.eq_nil_or_concat (components path) with hnil | ⟨front, last, hcomponents⟩
  · simp [hnil]
  · rw [List.concat_eq_append] at hcomponents
    rw [hcomponents, List.getLast?_concat, List.dropLast_concat]
    constructor
    · intro hparent
      split at hparent
      · cases hparent
      · cases hparent
      · rename_i c hroot hlast
        obtain rfl := Option.some.inj hlast
        obtain rfl := Option.some.inj hparent
        exact ⟨last, fun hr => hroot (hr ▸ rfl), rfl⟩
    · rintro ⟨c, hc, heq⟩
      obtain ⟨rfl, rfl⟩ := List.append_singleton_inj.1 heq
      cases last with
      | root => exact absurd rfl hc
      | here => rfl
      | up => rfl
      | name text => rfl

end NpuBroker.Path

import NpuBroker.Host

/-!
# Plain paths and texts

Most paths lead straight down, without dots and links, and most attributes are ASCII. Whether
they do and are can be computed, and says where a walk ends and what is read.

* `Host.at?_of_straight?`: what is at a path that leads straight down.
* `Host.openNode_of_missing`: nothing is at a path that leads straight down past what is there.
* `Utf8.decode?_ascii`: ASCII bytes are a text.
* `Host.readText_of_plainText?`: what is read at such a path, if it is ASCII.
-/
namespace NpuBroker

namespace Host

variable {h : Host}

/-- Where the names lead from a place, if each is an ordinary name and none is of a link. -/
def descend? (h : Host) : Place → List String → Option Place
  | p, [] => some p
  | p, name :: rest =>
    if h.entry? p = some .directory ∧ name ≠ "." ∧ name ≠ ".." ∧
        name.utf8ByteSize ≤ longestName then
      match h.entry? (p ++ [name]) with
      | some .directory | some (.file _) => h.descend? (p ++ [name]) rest
      | _ => none
    else none

theorem walk_of_descend? {follow : Bool} {links : Nat} {p q : Place} {names : List String}
    (hd : h.descend? p names = some q) : h.walk follow links p names = .ok q := by
  induction names generalizing p with
  | nil =>
    rw [descend?, Option.some.injEq] at hd
    rw [walk, hd]
  | cons name rest ih =>
    unfold descend? at hd
    split at hd
    · rename_i hplain
      obtain ⟨hp, hdot, hdots, hlen⟩ := hplain
      rw [walk, if_neg (· hp), if_neg hdot, if_neg hdots, if_neg (Nat.not_lt.2 hlen)]
      split at hd
      · rename_i he
        rw [he]
        exact ih hd
      · rename_i he
        rw [he]
        exact ih hd
      · simp at hd
    · simp at hd

/-- What is at an absolute path that leads straight down. -/
def straight? (h : Host) (path : String) : Option (Place × Entry) :=
  if path.toList.contains '\x00' = false ∧ path.utf8ByteSize ≤ longestPath ∧
      isAbsolute path = true then do
    let p ← h.descend? [] (names path)
    let e ← h.entry? p
    return (p, e)
  else none

theorem at?_of_straight? {path : String} {a : Place × Entry} (hs : h.straight? path = some a) :
    h.at? path = .ok a := by
  unfold straight? at hs
  split at hs
  · rename_i hpath
    obtain ⟨hnul, hlen, habs⟩ := hpath
    simp only [Option.bind_eq_bind, Option.bind_eq_some_iff, Option.pure_def,
      Option.some.injEq] at hs
    obtain ⟨p, hp, e, he, rfl⟩ := hs
    have hplain : '\x00' ∉ path.toList := by simpa using hnul
    exact at?_eq_ok_iff.2 ⟨locate_eq_ok_iff.2 ⟨hplain, hlen, habs, walk_of_descend? hp⟩, he⟩
  · simp at hs

theorem openNode_of_straight? {path : String} {p : Place} {file : FileId}
    (hs : h.straight? path = some (p, .file file)) : h.openNode path = .ok file := by
  rw [openNode, at?_of_straight? hs]

/-- Whether the names, each an ordinary one, lead from a place to one where nothing is. -/
def missing (h : Host) : Place → List String → Bool
  | _, [] => false
  | p, name :: rest =>
    if h.entry? p = some .directory ∧ name ≠ "." ∧ name ≠ ".." ∧
        name.utf8ByteSize ≤ longestName then
      match h.entry? (p ++ [name]) with
      | none => true
      | some .directory | some (.file _) => h.missing (p ++ [name]) rest
      | _ => false
    else false

theorem walk_of_missing {follow : Bool} {links : Nat} {p : Place} {names : List String}
    (hm : h.missing p names = true) : h.walk follow links p names = .error .notFound := by
  induction names generalizing p with
  | nil => cases hm
  | cons name rest ih =>
    unfold missing at hm
    split at hm
    · rename_i hplain
      obtain ⟨hp, hdot, hdots, hlen⟩ := hplain
      rw [walk, if_neg (· hp), if_neg hdot, if_neg hdots, if_neg (Nat.not_lt.2 hlen)]
      split at hm
      · rename_i he
        rw [he]
      · rename_i he
        rw [he]
        exact ih hm
      · rename_i he
        rw [he]
        exact ih hm
      · cases hm
    · cases hm

/-- A node cannot be opened at an absolute path that leads straight down past what is there. -/
theorem openNode_of_missing {path : String}
    (hm : path.toList.contains '\x00' = false ∧ path.utf8ByteSize ≤ longestPath ∧
      isAbsolute path = true ∧ h.missing [] (names path) = true) :
    h.openNode path = .error .notFound := by
  obtain ⟨hnul, hlen, habs, hmissing⟩ := hm
  unfold openNode at? locate
  rw [hnul, if_neg Bool.false_ne_true, if_neg (Nat.not_lt.2 hlen), if_pos habs,
    walk_of_missing hmissing]
  rfl

end Host

namespace Utf8

theorem pieces_ascii {bs : List UInt8} (hb : ∀ b ∈ bs, b.toNat < 0x80) :
    pieces bs = bs.map fun b => some (Char.ofNat b.toNat) := by
  induction bs with
  | nil => rw [pieces, List.map_nil]
  | cons b bs ih =>
    rw [List.forall_mem_cons] at hb
    rw [pieces, if_pos hb.1, ih hb.2, List.map_cons]

theorem decode?_ascii {bs : List UInt8} (hb : ∀ b ∈ bs, b.toNat < 0x80) :
    decode? bs = some (bs.map fun b => Char.ofNat b.toNat) := by
  rw [decode?, pieces_ascii hb]
  induction bs with
  | nil => rfl
  | cons b bs ih =>
    rw [List.forall_mem_cons] at hb
    rw [List.map_cons, List.mapM_cons, ih hb.2]
    rfl

end Utf8

/-- What is read from a file of ASCII bytes. -/
theorem Host.readText_ascii {h : Host} {path : String} {file : FileId}
    (ho : h.openNode path = .ok file) (hb : ∀ b ∈ h.contentsOf file, b.toNat < 0x80) :
    h.readText path =
      .ok (String.ofList ((h.contentsOf file).map fun b => Char.ofNat b.toNat)) := by
  simp [readText, read, ho, bind, Except.bind, pure, Except.pure, Utf8.decode?_ascii hb]

/-- What is read at a path that leads straight down to a file of ASCII bytes. -/
def Host.plainText? (h : Host) (path : String) : Option String :=
  match h.straight? path with
  | some (_, .file file) =>
    if (h.contentsOf file).all fun b => decide (b.toNat < 0x80) then
      some (String.ofList ((h.contentsOf file).map fun b => Char.ofNat b.toNat))
    else none
  | _ => none

theorem Host.readText_of_plainText? {h : Host} {path text : String}
    (hp : h.plainText? path = some text) : h.readText path = .ok text := by
  unfold plainText? at hp
  split at hp
  · rename_i hs
    split at hp
    · rename_i hascii
      cases hp
      exact readText_ascii (openNode_of_straight? hs) (by simpa using hascii)
    · cases hp
  · cases hp

end NpuBroker

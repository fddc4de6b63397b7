import NpuBroker.Proofs.Encoding
import NpuBroker.Proofs.Naming
import NpuBroker.RawNode

/-!
# Paths in bytes

The bytes of a path are cut at slashes, and so is its text. The cuts fall in the same places, as no
other character has the byte of a slash among its own. So a path that is text has the same file name
and the same node either way. In a directory that is no text there are nodes as well.

* `Utf8.splitOn_encode`: the pieces of the bytes are those of the text.
* `RawNode.ofPath?_encode`: the node at a path that is text.
* `RawNode.ofPath?_join`: the nodes of any directory.
-/
namespace NpuBroker

/-! ## Bytes and slashes -/

namespace Utf8

theorem encode_injective : Function.Injective encode := by
  intro cs ds h
  have hdecoded := congrArg decode? h
  rwa [decode?_encode, decode?_encode, Option.some.injEq] at hdecoded

theorem encode_append (cs ds : List Char) : encode (cs ++ ds) = encode cs ++ encode ds :=
  List.flatMap_append

theorem Runs.le_of_mem {n lo hi : Nat} {more : List UInt8} (hr : Runs n lo hi more)
    (hlo : 0x80 ≤ lo) : ∀ b ∈ more, 0x80 ≤ b.toNat := by
  induction hr with
  | nil => simp
  | cons hb _ _ ih => exact List.forall_mem_cons.2 ⟨Nat.le_trans hlo hb, ih (Nat.le_refl _)⟩

/-- The byte of a slash is that of no other character. -/
theorem eq_slash_of_mem {c : Char} (h : 0x2F ∈ String.utf8EncodeChar c) : c = '/' := by
  rcases exists_of_encode c with ⟨hlow, hc⟩ | ⟨b, more, n, lo, hi, hc, hf, hr⟩
  · rw [hc, List.mem_singleton, ← UInt8.toNat_inj, UInt8.toNat_ofNat'] at h
    have hslash : c.toNat = '/'.toNat := by
      change 0x2F = c.toNat % 256 at h
      change c.toNat = 0x2F
      omega
    exact Char.toNat_inj.1 hslash
  · have hlo : 0x80 ≤ lo := by
      have := follow?_eq_some_iff.1 hf
      split_ifs at this <;> omega
    have hhigh : ∀ x ∈ b :: more, 0x80 ≤ x.toNat :=
      List.forall_mem_cons.2 ⟨Nat.not_lt.1 (not_ascii_of_follow? hf), hr.le_of_mem hlo⟩
    rw [hc] at h
    exact absurd (hhigh _ h) (by decide)

theorem slash_mem_of_mem_encode {cs : List Char} (h : 0x2F ∈ encode cs) : '/' ∈ cs := by
  obtain ⟨c, hc, hmem⟩ := List.mem_flatMap.1 h
  exact eq_slash_of_mem hmem ▸ hc

theorem encode_intercalate (sep : List Char) (pieces : List (List Char)) :
    encode (sep.intercalate pieces) = (encode sep).intercalate (pieces.map encode) := by
  induction pieces with
  | nil => rfl
  | cons piece pieces ih =>
    cases pieces with
    | nil => simp
    | cons next pieces =>
      rw [List.intercalate_cons_cons, List.map_cons, List.map_cons, List.intercalate_cons_cons,
        encode_append, encode_append, ih, List.map_cons]

/-- The pieces between the slashes of a text, in bytes. -/
theorem splitOn_encode (cs : List Char) :
    (encode cs).splitOn 0x2F = (cs.splitOn '/').map encode := by
  have hpieces : encode cs = [0x2F].intercalate ((cs.splitOn '/').map encode) := by
    have hslash : encode ['/'] = [0x2F] := rfl
    rw [← hslash, ← encode_intercalate, List.intercalate_splitOn]
  have hfree : ∀ piece ∈ (cs.splitOn '/').map encode, 0x2F ∉ piece := by
    intro bytes hbytes hmem
    obtain ⟨piece, hpiece, rfl⟩ := List.mem_map.1 hbytes
    exact Text.not_mem_of_mem_splitOn piece hpiece (slash_mem_of_mem_encode hmem)
  rw [hpieces, List.splitOn_intercalate _ hfree (by simp)]

end Utf8

/-! ## File names -/

namespace Path

/-- Behind what a path begins with, its components are the pieces that mean anything. -/
theorem filterMap_component? (pieces : List (List Char)) :
    pieces.filterMap component? =
      (pieces.filter fun piece => piece ≠ [] ∧ piece ≠ ['.']).map fun piece =>
        if piece = ['.', '.'] then .up else .name (String.ofList piece) := by
  induction pieces with
  | nil => rfl
  | cons piece pieces ih =>
    rw [List.filterMap_cons, List.filter_cons, ih]
    by_cases hnone : piece = [] ∨ piece = ['.']
    · have hfalse : ¬ (piece ≠ [] ∧ piece ≠ ['.']) := by rwa [← not_or, not_not]
      rw [component?, if_pos hnone, if_neg (by rwa [decide_eq_true_eq])]
    · have htrue : piece ≠ [] ∧ piece ≠ ['.'] := not_or.1 hnone
      rw [component?, if_neg hnone, if_pos (decide_eq_true htrue), List.map_cons]
      by_cases hup : piece = ['.', '.']
      · rw [if_pos hup, if_pos hup]
      · rw [if_neg hup, if_neg hup]

/-- The file name is the last piece that means anything. -/
theorem fileName?_eq (path : String) : fileName? path =
    (((path.toList.splitOn '/').filter fun piece => piece ≠ [] ∧ piece ≠ ['.']).getLast?.filter
      fun piece => piece ≠ ['.', '.']).map String.ofList := by
  refine Option.ext fun name => ?_
  rw [fileName?_eq_some_iff_last, filterMap_component?, List.getLast?_map]
  cases (List.filter _ (path.toList.splitOn '/')).getLast? with
  | none => simp
  | some piece => by_cases hup : piece = ['.', '.'] <;> simp [hup]

end Path

namespace RawNode

/-- A path that is text has the file name of the text. -/
theorem fileName?_encode (path : String) : fileName? (Utf8.encode path.toList) =
    (Path.fileName? path).map fun name => Utf8.encode name.toList := by
  have hbytes : ∀ piece ds, Utf8.encode piece ≠ Utf8.encode ds ↔ piece ≠ ds := fun _ _ =>
    not_congr Utf8.encode_injective.eq_iff
  have hsolid : ((path.toList.splitOn '/').map Utf8.encode).filter
      (fun piece => piece ≠ [] ∧ piece ≠ [0x2E]) =
      ((path.toList.splitOn '/').filter fun piece => piece ≠ [] ∧ piece ≠ ['.']).map
        Utf8.encode := by
    rw [List.filter_map]
    refine congrArg _ (List.filter_congr fun piece _ => ?_)
    exact decide_eq_decide.2 (and_congr (hbytes piece []) (hbytes piece ['.']))
  rw [fileName?, Utf8.splitOn_encode, hsolid, List.getLast?_map, Path.fileName?_eq]
  cases (List.filter _ (path.toList.splitOn '/')).getLast? with
  | none => rfl
  | some piece =>
    have hup : decide (Utf8.encode piece ≠ [0x2E, 0x2E]) = decide (piece ≠ ['.', '.']) :=
      decide_eq_decide.2 (hbytes piece ['.', '.'])
    rw [Option.map_some, Option.filter_some, Option.filter_some, hup]
    split
    · rw [Option.map_some, Option.map_some, String.toList_ofList]
    · rfl

/-- At a path that is text there is the same node, whether it is read as bytes or as text. -/
theorem ofPath?_encode (path : String) :
    ofPath? (Utf8.encode path.toList) = (Node.ofPath? path).map Node.raw := by
  rw [ofPath?, Node.ofPath?, fileName?_encode]
  cases Path.fileName? path with
  | none => rfl
  | some name =>
    simp only [Option.map_some, Option.bind_eq_bind, Option.bind_some, Utf8.decode?_encode,
      UnitId.ofName?, Option.map_map]
    cases UnitId.ofChars? name.toList <;> rfl

/-- What stands behind the last slash is the file name, unless it is nothing or dots alone. -/
theorem fileName?_join {name : List UInt8} (hslash : 0x2F ∉ name)
    (hsolid : name ≠ [] ∧ name ≠ [0x2E]) (hup : name ≠ [0x2E, 0x2E]) (dir : List UInt8) :
    fileName? (dir ++ 0x2F :: name) = some name := by
  have hkept : [name].filter (fun piece => piece ≠ [] ∧ piece ≠ [0x2E]) = [name] :=
    List.filter_eq_self.2 (List.forall_mem_singleton.2 (decide_eq_true hsolid))
  rw [fileName?, List.splitOn_append_cons_self, List.splitOn_eq_singleton hslash,
    List.filter_append, hkept, List.getLast?_concat, Option.filter_some,
    if_pos (decide_eq_true hup)]

/-- A file called as a unit is a node of it in any directory, whatever the bytes of that. -/
theorem ofPath?_join {u : UnitId} (hu : u.Proper) (dir : List UInt8) :
    ofPath? (dir ++ 0x2F :: Utf8.encode u.chars) =
      some ⟨u, dir ++ 0x2F :: Utf8.encode u.chars⟩ := by
  have hdot : '.' ∉ u.chars := fun hmem => absurd (u.mem_chars _ hmem) (by decide)
  have hslash : 0x2F ∉ Utf8.encode u.chars := fun hmem =>
    absurd (u.mem_chars _ (Utf8.slash_mem_of_mem_encode hmem)) (by decide)
  -- no text of dots alone is the name of a unit
  have hname : ∀ dots : List Char, (∀ c ∈ dots, c = '.') →
      Utf8.encode u.chars ≠ Utf8.encode dots := by
    intro dots hdots he
    obtain ⟨c, hc⟩ : ∃ c, c ∈ u.chars := ⟨'n', List.mem_append_left _ (by simp)⟩
    rw [Utf8.encode_injective he] at hc hdot
    exact hdot (hdots c hc ▸ hc)
  have hlast := fileName?_join hslash ⟨hname [] (by simp), hname ['.'] (by simp)⟩
    (hname ['.', '.'] (by simp)) dir
  rw [ofPath?, hlast]
  simp only [Option.bind_eq_bind, Option.bind_some, Utf8.decode?_encode,
    UnitId.ofChars?_eq_some_iff.2 ⟨hu, rfl⟩]
  rfl

/-- Nodes at paths that are text are those that are nodes of their text. -/
theorem node?_eq_some_iff {n : RawNode} {m : Node} : n.node? = some m ↔ n = m.raw := by
  obtain ⟨u, bytes⟩ := n
  obtain ⟨v, path⟩ := m
  simp only [node?, Node.raw, Option.map_eq_some_iff, Utf8.decode?_eq_some_iff, Node.mk.injEq,
    RawNode.mk.injEq]
  constructor
  · rintro ⟨cs, hbytes, rfl, rfl⟩
    exact ⟨rfl, by rw [hbytes, String.toList_ofList]⟩
  · rintro ⟨rfl, hbytes⟩
    exact ⟨path.toList, hbytes, rfl, String.ofList_toList⟩

end RawNode
end NpuBroker

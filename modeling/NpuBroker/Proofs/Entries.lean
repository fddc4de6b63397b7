import NpuBroker.Proofs.Listing
import NpuBroker.Proofs.Pieces
import Mathlib.Logic.Relation

/-!
# What entries are called

No entry of a file tree is called `.` or `..`, no name is empty or holds a slash, and no two
entries are at one place. A host keeps to that through every change. So the path that an
enumeration gives a node ends in the very name of its entry, and the name of a unit leads back to
one path.

* `Host.Named`, `Host.Distinct`: the entries of the host have such names, and places of their own.
* `Host.named_of_changes`, `Host.distinct_of_changes`: they do on every host that changes lead to.
* `Path.components_join`, `Path.fileName?_join`: what is joined to a directory is one component
  more, and is the file name.
* `Discovery.list_path`: the path of a listed node is the directory and the name of its unit.
-/
namespace NpuBroker

namespace Host

/-! ## Names -/

/-- What an entry can be called. -/
structure IsName (name : String) : Prop where
  ne_empty : name ≠ ""
  ne_here : name ≠ "."
  ne_up : name ≠ ".."
  solid : '/' ∉ name.toList

instance : DecidablePred IsName := fun name =>
  decidable_of_iff (name ≠ "" ∧ name ≠ "." ∧ name ≠ ".." ∧ '/' ∉ name.toList)
    ⟨fun ⟨h1, h2, h3, h4⟩ => ⟨h1, h2, h3, h4⟩, fun ⟨h1, h2, h3, h4⟩ => ⟨h1, h2, h3, h4⟩⟩

/-- The last name on the way to the place is one; the root has none. -/
def Place.Named (p : Place) : Prop := ∀ name ∈ p.getLast?, IsName name

instance : DecidablePred Place.Named := fun p =>
  inferInstanceAs (Decidable (∀ name ∈ p.getLast?, IsName name))

/-- Every entry is called by a name. -/
def Named (h : Host) : Prop := ∀ x ∈ h.entries, Place.Named x.1

instance : DecidablePred Named := fun h =>
  inferInstanceAs (Decidable (∀ x ∈ h.entries, Place.Named x.1))

theorem Place.named_concat {p : Place} {name : String} (hname : IsName name) :
    (p ++ [name]).Named := by
  intro x hx
  rw [List.getLast?_concat, Option.mem_some_iff] at hx
  exact hx ▸ hname

theorem named_empty : Named empty := by decide

/-- No two entries are at one place. -/
def Distinct (h : Host) : Prop := (h.entries.map Prod.fst).Nodup

instance : DecidablePred Distinct := fun h =>
  inferInstanceAs (Decidable (h.entries.map Prod.fst).Nodup)

theorem distinct_empty : Distinct empty := List.nodup_nil

variable {h h' : Host}

/-! ## Edits -/

/-- One thing done to the entries or the contents of a host. -/
inductive Edit (h : Host) : Host → Prop
  | set {p : Place} (hp : p.Named) (e : Entry) : Edit h (h.set p e)
  | fill (contents : List (FileId × List UInt8)) (fresh : FileId) :
      Edit h { h with contents := contents, fresh := fresh }
  | keep (kept : Place × Entry → Bool) : Edit h { h with entries := h.entries.filter kept }

theorem Named.edit (hn : h.Named) (he : h.Edit h') : h'.Named := by
  cases he with
  | @set p hp e =>
    unfold Host.set
    split
    · intro y hy
      obtain ⟨x, hx, rfl⟩ := List.mem_map.1 hy
      have hplace : (if x.1 = p then (x.1, e) else (x.1, x.2)).1 = x.1 := by split <;> rfl
      exact hplace ▸ hn x hx
    · intro y hy
      rcases List.mem_append.1 hy with hy | hy
      · exact hn y hy
      · cases List.mem_singleton.1 hy
        exact hp
  | fill contents fresh => exact hn
  | keep kept => exact fun x hx => hn x (List.mem_filter.1 hx).1

theorem Distinct.edit (hd : h.Distinct) (he : h.Edit h') : h'.Distinct := by
  cases he with
  | @set p hp e =>
    unfold Host.set
    split
    · have hplaces : (h.entries.map fun x =>
          if x.1 = p then (x.1, e) else (x.1, x.2)).map Prod.fst = h.entries.map Prod.fst := by
        rw [List.map_map]
        refine List.map_congr_left fun x _ => ?_
        rw [Function.comp_apply]
        split <;> rfl
      exact (congrArg List.Nodup hplaces).mpr hd
    · rename_i hnew
      have hfree : p ∉ h.entries.map Prod.fst := by
        intro hp
        obtain ⟨x, hx, rfl⟩ := List.mem_map.1 hp
        exact hnew (List.lookup_isSome_iff.2 ⟨x, hx, by simp⟩)
      unfold Distinct
      rw [List.map_append, List.map_singleton, ← List.concat_eq_append, List.nodup_concat]
      exact ⟨hfree, hd⟩
  | fill contents fresh => exact hd
  | keep kept => exact hd.sublist (List.filter_sublist.map Prod.fst)

/-! ## Changes -/

/-- The names on a path are not empty and hold no slash. -/
theorem solid_of_mem_names {path name : String} (h : name ∈ names path) :
    name ≠ "" ∧ '/' ∉ name.toList := by
  have hpieces : ∀ name ∈ ((path.toList.splitOn '/').filter fun p => !p.isEmpty).map String.ofList,
      name ≠ "" ∧ '/' ∉ name.toList := by
    intro name hname
    obtain ⟨piece, hpiece, rfl⟩ := List.mem_map.1 hname
    obtain ⟨hmem, hne⟩ := List.mem_filter.1 hpiece
    rw [String.toList_ofList]
    refine ⟨fun hnil => ?_, Text.not_mem_of_mem_splitOn _ hmem⟩
    have : piece = [] := by simpa [String.ext_iff] using hnil
    simp [this] at hne
  unfold names at h
  dsimp only at h
  split at h
  · rcases List.mem_append.1 h with h | h
    · exact hpieces name h
    · rw [List.mem_singleton.1 h]
      decide
  · exact hpieces name h

/-- Only what has a name of its own can be missing. -/
theorem ne_dots_of_walk {p : Place} {name : String} {links : Nat}
    (hw : h.walk true links p [name] = .error .notFound) : name ≠ "." ∧ name ≠ ".." := by
  have hok : ∀ q, h.walk true links q [] = .ok q := fun q => by rw [walk]
  constructor
  all_goals
    rintro rfl
    rw [walk] at hw
    split at hw <;> simp [hok] at hw

theorem edits_makeDirs {names : List String} (h : Host) (p : Place)
    (hnames : ∀ name ∈ names, name ≠ "" ∧ '/' ∉ name.toList) :
    Relation.ReflTransGen Edit h (h.makeDirs p names) := by
  induction names generalizing h p with
  | nil => exact .refl
  | cons name rest ih =>
    rw [List.forall_mem_cons] at hnames
    unfold Host.makeDirs
    split
    · exact ih h _ hnames.2
    · rename_i hw _
      obtain ⟨hhere, hup⟩ := ne_dots_of_walk hw
      have hname : IsName name := ⟨hnames.1.1, hhere, hup, hnames.1.2⟩
      exact .head (.set (Place.named_concat hname) _) (ih _ _ hnames.2)
    · exact .refl

theorem edits_makeParents (h : Host) (path : String) :
    Relation.ReflTransGen Edit h (h.makeParents path) :=
  edits_makeDirs h _ fun _ hname => solid_of_mem_names (List.dropLast_subset _ hname)

theorem named_of_spot? {p q : Place} {path : String} (hs : h.spot? p (names path) = some q) :
    q.Named := by
  simp only [spot?, Option.bind_eq_bind, Option.bind_eq_some_iff, guard] at hs
  obtain ⟨name, hlast, parent, -, hs⟩ := hs
  split at hs
  · rename_i hname
    obtain ⟨hne, hsolid⟩ := solid_of_mem_names (List.mem_of_getLast? hlast)
    obtain ⟨-, -, hs⟩ := hs
    cases hs
    exact Place.named_concat ⟨hne, hname.2.1, hname.2.2.1, hsolid⟩
  · simp at hs

/-- Behind the links is a place called by a name, if it is before them. -/
theorem named_of_fileSpot? {links : Nat} {p q : Place} (hp : p.Named)
    (hs : h.fileSpot? links p = some q) : q.Named := by
  induction links generalizing p with
  | zero =>
    unfold fileSpot? at hs
    split at hs
    · exact Option.some.inj hs ▸ hp
    · exact Option.some.inj hs ▸ hp
    · rename_i hlinks
      cases hlinks
    · cases hs
    · cases hs
  | succ links ih =>
    unfold fileSpot? at hs
    split at hs
    · exact Option.some.inj hs ▸ hp
    · exact Option.some.inj hs ▸ hp
    · rename_i hlinks
      cases hlinks
      obtain ⟨spot, hspot, hs⟩ := Option.bind_eq_some_iff.1 hs
      exact ih (named_of_spot? hspot) hs
    · cases hs
    · cases hs

theorem edits_write (h : Host) (path : String) (bytes : List UInt8) :
    Relation.ReflTransGen Edit h (h.write path bytes) := by
  have hparents := edits_makeParents h path
  unfold Host.write
  dsimp only
  split
  · exact hparents
  · rename_i p hp
    obtain ⟨spot, hspot, hp⟩ := Option.bind_eq_some_iff.1 hp
    split
    · exact hparents.tail (.fill _ _)
    · have hplace := named_of_fileSpot? (named_of_spot? hspot) hp
      exact (hparents.tail (.set hplace _)).tail (.fill _ _)

theorem edits_add (h : Host) (path : String) (e : Entry) :
    Relation.ReflTransGen Edit h (h.add path e) := by
  have hparents := edits_makeParents h path
  unfold Host.add
  dsimp only
  split
  · exact hparents
  · rename_i p hp
    split
    · exact hparents.tail (.set (named_of_spot? hp) e)
    · exact hparents

/-- What becomes of the host by what somebody does to it. -/
inductive Change (h : Host) : Host → Prop
  | write (path : String) (bytes : List UInt8) : Change h (h.write path bytes)
  | makeDir (path : String) : Change h (h.makeDir path)
  | symLink (path target : String) : Change h (h.symLink path target)
  | hardLink (path target : String) : Change h (h.hardLink path target)
  | remove (path : String) : Change h (h.remove path)

/-- Every change is made of edits. -/
theorem Change.edits (hc : h.Change h') : Relation.ReflTransGen Edit h h' := by
  cases hc with
  | write path bytes => exact edits_write h path bytes
  | makeDir path => exact edits_makeDirs h _ fun _ hname => solid_of_mem_names hname
  | symLink path target => exact edits_add h path _
  | hardLink path target =>
    unfold Host.hardLink
    split
    · exact .refl
    · exact .refl
    · exact edits_add h path _
  | remove path =>
    unfold Host.remove
    split
    · exact .refl
    · exact .single (.keep _)

/-- What every edit keeps holds on every host that changes lead to, if it holds to begin with. -/
theorem kept_of_changes {P : Host → Prop} (hP : ∀ g g' : Host, P g → g.Edit g' → P g')
    (hc : Relation.ReflTransGen Change h h') (hh : P h) : P h' := by
  have hedits : Relation.ReflTransGen Edit h h' := by
    induction hc with
    | refl => exact .refl
    | tail _ hc ih => exact ih.trans hc.edits
  clear hc
  induction hedits with
  | refl => exact hh
  | tail _ he ih => exact hP _ _ ih he

/-- **Names are kept.** Every host that changes lead to from the empty one calls its entries by
names. -/
theorem named_of_changes (hc : Relation.ReflTransGen Change empty h) : h.Named :=
  kept_of_changes (fun _ _ => Named.edit) hc named_empty

/-- **Places are kept apart.** Every host that changes lead to from the empty one has one entry
at a place. -/
theorem distinct_of_changes (hc : Relation.ReflTransGen Change empty h) : h.Distinct :=
  kept_of_changes (fun _ _ => Distinct.edit) hc distinct_empty

/-! ## Directories -/

/-- What an entry is called in the directory `p`, and what it is, if it is there. -/
def child? (p : Place) (x : Place × Entry) : Option (String × Entry) :=
  (x.1.getLast?.filter fun _ => x.1.dropLast = p).map fun name => (name, x.2)

theorem child?_eq_some_iff {p : Place} {x : Place × Entry} {y : String × Entry} :
    child? p x = some y ↔ x = (p ++ [y.1], y.2) := by
  obtain ⟨q, e⟩ := x
  obtain ⟨name, d⟩ := y
  simp only [child?, Option.map_eq_some_iff, Option.filter_eq_some_iff, Prod.mk.injEq,
    decide_eq_true_eq]
  constructor
  · rintro ⟨name', ⟨hlast, rfl⟩, rfl, rfl⟩
    obtain ⟨front, rfl⟩ := List.getLast?_eq_some_iff.1 hlast
    simp
  · rintro ⟨rfl, rfl⟩
    exact ⟨name, by simp⟩

theorem list_of_at? {path : String} {p : Place} (hat : h.at? path = .ok (p, .directory)) :
    h.list path = .ok (h.entries.filterMap (child? p)) := by
  rw [Host.list, hat]
  refine congrArg Except.ok (List.filterMap_congr fun x _ => ?_)
  obtain ⟨q, e⟩ := x
  unfold child?
  dsimp only
  split
  · rename_i name hlast
    by_cases hp : q.dropLast = p <;> simp [hlast, hp, Option.filter]
  · rename_i hlast
    simp [hlast]

/-- What is listed of a directory are the entries that it holds. -/
theorem list_eq_ok_iff {path : String} {found : List (String × Entry)} :
    h.list path = .ok found ↔
      ∃ p, h.at? path = .ok (p, .directory) ∧ h.entries.filterMap (child? p) = found := by
  constructor
  · intro hl
    obtain ⟨⟨p, e⟩, hat, hrest⟩ := bind_eq_ok_iff.1 hl
    cases e with
    | directory =>
      rw [list_of_at? hat, Except.ok.injEq] at hl
      exact ⟨p, hat, hl⟩
    | file id => cases hrest
    | link target => cases hrest
  · rintro ⟨p, hat, rfl⟩
    exact list_of_at? hat

theorem list_eq_error_iff {path : String} {e : Error} :
    h.list path = .error e ↔ h.at? path = .error e ∨
      ∃ p d, h.at? path = .ok (p, d) ∧ d ≠ .directory ∧ e = .notDirectory := by
  cases hat : h.at? path with
  | error x => simp [Host.list, hat, bind, Except.bind]
  | ok y =>
    obtain ⟨p, d⟩ := y
    cases d with
    | directory => simp [list_of_at? hat]
    | file id =>
      have hl : h.list path = .error .notDirectory := by
        rw [Host.list, hat]
        rfl
      simp [hl, eq_comm]
    | link target =>
      have hl : h.list path = .error .notDirectory := by
        rw [Host.list, hat]
        rfl
      simp [hl, eq_comm]

/-- What is in a directory is called by names. -/
theorem Named.of_list (hn : h.Named) {path : String} {found : List (String × Entry)}
    (hl : h.list path = .ok found) : ∀ x ∈ found, IsName x.1 := by
  obtain ⟨p, -, rfl⟩ := list_eq_ok_iff.1 hl
  intro x hx
  obtain ⟨y, hy, hx⟩ := List.mem_filterMap.1 hx
  rw [child?_eq_some_iff] at hx
  subst hx
  exact hn _ hy x.1 (by simp)

/-- What is in a directory is called by different names. -/
theorem Distinct.of_list (hd : h.Distinct) {path : String} {found : List (String × Entry)}
    (hl : h.list path = .ok found) : (found.map Prod.fst).Nodup := by
  obtain ⟨p, -, rfl⟩ := list_eq_ok_iff.1 hl
  unfold Distinct List.Nodup at hd
  rw [List.pairwise_map] at hd
  unfold List.Nodup
  rw [List.pairwise_map]
  refine List.Pairwise.filterMap _ ?_ hd
  intro x y hxy a ha b hb hab
  rw [child?_eq_some_iff.1 ha, child?_eq_some_iff.1 hb, hab] at hxy
  exact hxy rfl

end Host

/-! ## Paths of nodes -/

namespace Path

/-- The pieces that are names are the ones that an entry can be called. -/
theorem component?_eq_name_iff {piece : List Char} {name : String} (hsolid : '/' ∉ piece) :
    component? piece = some (.name name) ↔ piece = name.toList ∧ Host.IsName name := by
  unfold component?
  constructor
  · intro h
    split_ifs at h with hnone hup
    · cases h
    · cases h
      rw [not_or] at hnone
      have hpiece : (String.ofList piece).toList = piece := String.toList_ofList
      rw [hpiece]
      refine ⟨rfl, fun h => hnone.1 ?_, fun h => hnone.2 ?_, fun h => hup ?_, hpiece.symm ▸ hsolid⟩
      all_goals exact hpiece.symm.trans (congrArg String.toList h)
  · rintro ⟨rfl, hname⟩
    have hne : name.toList ≠ [] := fun h => hname.ne_empty (String.ext_iff.2 h)
    have hhere : name.toList ≠ ['.'] := fun h => hname.ne_here (String.ext_iff.2 h)
    have hup : name.toList ≠ ['.', '.'] := fun h => hname.ne_up (String.ext_iff.2 h)
    rw [if_neg (not_or.2 ⟨hne, hhere⟩), if_neg hup, String.ofList_toList]

/-- What a path begins with is known by its first piece, and the rest piece by piece. -/
theorem components_of_splitOn {path : String} {p : List Char} {ps : List (List Char)}
    (hp : path.toList.splitOn '/' = p :: ps) (hne : p = [] → ps ≠ []) : components path =
      (if p = [] then [.root] else if p = ['.'] then [.here] else []) ++
        (p :: ps).filterMap component? := by
  unfold components
  dsimp only
  rw [hp]
  split
  · rename_i heq
    cases heq
    rfl
  · rename_i heq
    cases heq
    rfl
  · rename_i hroot hhere
    rw [if_neg, if_neg]
    · rintro rfl
      exact hhere _ rfl
    · rintro rfl
      obtain ⟨q, qs, rfl⟩ := List.exists_cons_of_ne_nil (hne rfl)
      exact hroot _ _ rfl

/-- What is joined to a directory is one component more. -/
theorem components_join {base name : String} (hname : Host.IsName name) :
    components (join base name) = components base ++ [.name name] := by
  have hrelative : isAbsolute name = false := by
    have hhead : name.toList.head? ≠ some '/' :=
      fun h => hname.solid (List.mem_of_head? h)
    simpa [isAbsolute] using hhead
  have hpieces := List.splitOn_eq_singleton hname.solid
  have hcomponent : component? name.toList = some (.name name) :=
    (component?_eq_name_iff hname.solid).2 ⟨rfl, hname⟩
  have hnil : name.toList ≠ [] := fun h => hname.ne_empty (String.ext_iff.2 h)
  have hempty : component? [] = none := rfl
  rw [join, hrelative, if_neg Bool.false_ne_true]
  by_cases hbase : base = ""
  · have hhere : name.toList ≠ ['.'] := fun h => hname.ne_here (String.ext_iff.2 h)
    subst hbase
    rw [if_pos (.inl rfl), String.empty_append, components_of_splitOn hpieces (absurd · hnil),
      if_neg hnil, if_neg hhere, List.filterMap_cons, hcomponent]
    rfl
  by_cases hslash : base.toList.getLast? = some '/'
  · obtain ⟨front, hfront⟩ := List.getLast?_eq_some_iff.1 hslash
    obtain ⟨p, ps, hp⟩ := List.exists_cons_of_ne_nil (List.splitOn_ne_nil '/' front)
    have hold : base.toList.splitOn '/' = p :: (ps ++ [[]]) := by
      rw [hfront, List.splitOn_append_cons_self, hp, List.splitOn_nil, List.cons_append]
    have hnew : (base ++ name).toList.splitOn '/' = p :: (ps ++ [name.toList]) := by
      rw [String.toList_append, hfront, List.append_assoc, List.singleton_append,
        List.splitOn_append_cons_self, hp, hpieces, List.cons_append]
    rw [if_pos (.inr hslash), components_of_splitOn hold (by simp),
      components_of_splitOn hnew (by simp), List.append_assoc, ← List.cons_append,
      ← List.cons_append, List.filterMap_append, List.filterMap_append]
    simp [hcomponent, hempty]
  · obtain ⟨p, ps, hp⟩ := List.exists_cons_of_ne_nil (List.splitOn_ne_nil '/' base.toList)
    have hnew : (base ++ "/" ++ name).toList.splitOn '/' = p :: (ps ++ [name.toList]) := by
      have happend : ("/" ++ name).toList = '/' :: name.toList := String.toList_append
      rw [String.append_assoc, String.toList_append, happend, List.splitOn_append_cons_self, hp,
        hpieces, List.cons_append]
    have hne : p = [] → ps ≠ [] := by
      rintro rfl rfl
      have htext : ['/'].intercalate [[]] = base.toList := hp ▸ List.intercalate_splitOn '/'
      exact hbase (String.ext_iff.2 htext.symm)
    rw [if_neg (not_or.2 ⟨hbase, hslash⟩), components_of_splitOn hp hne,
      components_of_splitOn hnew (by simp), List.append_assoc, ← List.cons_append,
      List.filterMap_append]
    simp [hcomponent]

/-- What is joined to a directory is the file name, wherever the directory is. -/
theorem fileName?_join {base name : String} (hname : Host.IsName name) :
    fileName? (join base name) = some name := by
  rw [fileName?_eq_some_iff, components_join hname, List.getLast?_concat]

end Path

namespace Discovery

variable {h : Host} {r : Roots}

/-- The path of a node leads to the entry in the directory that has the name of its unit. -/
theorem scan_path {nodes : List Node} (hh : h.Named) (hs : scan h r = .ok nodes) :
    ∀ n ∈ nodes, n.path = Path.join r.devfs n.name := by
  intro n hn
  obtain ⟨found, name, file, hfound, hmem, hpath⟩ := file_of_scan hs hn
  obtain ⟨hname, -, hpath⟩ := Node.ofPath?_eq_some_iff.1 hpath
  rw [Path.fileName?_join (hh.of_list hfound _ hmem), Option.some.injEq] at hname
  exact hname ▸ hpath

theorem list_path {t : Topology} (hh : h.Named) (ht : list h r = .ok t) {n : Node}
    (hn : t.Has n) : n.path = Path.join r.devfs n.name := by
  obtain ⟨nodes, hs, hmem⟩ := scan_of_has ht hn
  exact scan_path hh hs n hmem

/-- A unit has one node in a listed topology. -/
theorem list_unique {t : Topology} (hh : h.Named) (ht : list h r = .ok t) {m n : Node}
    (hm : t.Has m) (hn : t.Has n) (hid : m.id = n.id) : m = n := by
  obtain ⟨u, path⟩ := m
  obtain ⟨v, path'⟩ := n
  have hpath := list_path hh ht hm
  have hpath' := list_path hh ht hn
  dsimp only at hid hpath hpath'
  subst hid
  rw [hpath, hpath']
  rfl

end Discovery
end NpuBroker

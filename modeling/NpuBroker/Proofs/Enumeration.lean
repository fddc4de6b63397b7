import NpuBroker.Proofs.Entries
import NpuBroker.Proofs.Plain
import NpuBroker.Proofs.Spans
import Mathlib.Data.List.Sort

/-!
# Enumerations

What an enumeration of a host comes to, read off its device directory. The order in which
directories list their entries makes no difference to it.

* `Host.Reordered`: the same tree with its entries in another order; paths lead to the same.
* `Discovery.mem_scan_iff`: a scan finds the files that are called by the name of a unit.
* `Discovery.scan_reordered`: it puts them in the one order that there is.
* `Topology.ofNodes_without`: a device that cannot be identified takes nothing from the others.
* `UnitId.Precedes`, `UnitId.FitsOn`: the order of units, and which of them a device keeps, said by
  their bounds.
* `Discovery.list_exact`: which devices are listed, and with which nodes.
-/
namespace NpuBroker

/-! ## Trees in another order -/

theorem lookup_eq_some_iff_mem {α β : Type} [BEq α] [LawfulBEq α] {l : List (α × β)}
    (hl : (l.map Prod.fst).Nodup) {a : α} {b : β} : l.lookup a = some b ↔ (a, b) ∈ l := by
  induction l with
  | nil => simp
  | cons x l ih =>
    obtain ⟨a', b'⟩ := x
    rw [List.map_cons, List.nodup_cons] at hl
    rw [List.lookup_cons, List.mem_cons]
    cases ha : a == a' with
    | true =>
      obtain rfl := eq_of_beq ha
      have hnot : (a, b) ∉ l := fun hmem => hl.1 (List.mem_map.2 ⟨_, hmem, rfl⟩)
      simp [hnot, eq_comm]
    | false =>
      have hne : a ≠ a' := by simpa using ha
      simp [hne, ih hl.2]

namespace Host

/-- The same tree with its entries in another order. -/
structure Reordered (h h' : Host) : Prop where
  entries : h'.entries.Perm h.entries
  contents : h'.contents = h.contents

variable {h h' : Host}

/-- A walk goes by what is at each place. -/
theorem walk_congr (he : ∀ p, h'.entry? p = h.entry? p) (follow : Bool) (links : Nat) (p : Place)
    (names : List String) : h'.walk follow links p names = h.walk follow links p names := by
  fun_induction h.walk follow links p names with
  | case1 => rw [walk]
  | case2 links p name rest hp => rw [walk, he, if_pos hp]
  | case3 links p rest hp ih => rw [walk, he, if_neg hp, if_pos rfl, ih]
  | case4 links p rest hp hdot ih => rw [walk, he, if_neg hp, if_neg hdot, if_pos rfl, ih]
  | case5 links p name rest hp hdot hdots hlong =>
    rw [walk, he, if_neg hp, if_neg hdot, if_neg hdots, if_pos hlong]
  | case6 links p name rest hp hdot hdots hlong hentry =>
    rw [walk, he, if_neg hp, if_neg hdot, if_neg hdots, if_neg hlong, he, hentry]
  | case7 links p name rest hp hdot hdots hlong target hentry hend =>
    rw [walk, he, if_neg hp, if_neg hdot, if_neg hdots, if_neg hlong, he, hentry]
    exact if_pos hend
  | case8 p name rest hp hdot hdots hlong target hentry hend =>
    rw [walk, he, if_neg hp, if_neg hdot, if_neg hdots, if_neg hlong, he, hentry]
    exact if_neg hend
  | case9 p name rest hp hdot hdots hlong target hentry hend links ih =>
    rw [walk, he, if_neg hp, if_neg hdot, if_neg hdots, if_neg hlong, he, hentry]
    exact (if_neg hend).trans ih
  | case10 links p name rest hp hdot hdots hlong e hlink hentry ih =>
    rw [walk, he, if_neg hp, if_neg hdot, if_neg hdots, if_neg hlong, he, hentry, ← ih]
    cases e with
    | link target => exact absurd rfl (hlink target)
    | file id => rfl
    | directory => rfl

theorem at?_congr (he : ∀ p, h'.entry? p = h.entry? p) (path : String) :
    h'.at? path = h.at? path := by
  have hlocate : h'.locate true path = h.locate true path := by
    unfold locate
    rw [walk_congr he]
  unfold at?
  rw [hlocate]
  simp only [he]

/-- What a directory lists is not in the contents of files. -/
theorem list_congr (he : h'.entries = h.entries) (path : String) : h'.list path = h.list path := by
  have hentry : ∀ p, h'.entry? p = h.entry? p := by
    intro p
    unfold entry?
    rw [he]
  unfold list
  rw [at?_congr hentry, he]

namespace Reordered

theorem entry?_eq (hr : h.Reordered h') (hd : h.Distinct) (p : Place) :
    h'.entry? p = h.entry? p := by
  have hd' : h'.Distinct := (hr.entries.map Prod.fst).nodup_iff.2 hd
  unfold entry?
  split
  · rfl
  · refine Option.ext fun e => ?_
    rw [lookup_eq_some_iff_mem hd', lookup_eq_some_iff_mem hd, hr.entries.mem_iff]

theorem at?_eq (hr : h.Reordered h') (hd : h.Distinct) (path : String) :
    h'.at? path = h.at? path := at?_congr (hr.entry?_eq hd) path

theorem readText_eq (hr : h.Reordered h') (hd : h.Distinct) (path : String) :
    h'.readText path = h.readText path := by
  unfold readText read openNode contentsOf
  rw [hr.at?_eq hd, hr.contents]

/-- A directory lists the same, in some order. -/
theorem list_perm (hr : h.Reordered h') (hd : h.Distinct) {path : String}
    {found : List (String × Entry)} (hl : h.list path = .ok found) :
    ∃ found', h'.list path = .ok found' ∧ found'.Perm found := by
  obtain ⟨p, hat, rfl⟩ := list_eq_ok_iff.1 hl
  exact ⟨_, list_of_at? ((hr.at?_eq hd path).trans hat), hr.entries.filterMap _⟩

theorem list_error (hr : h.Reordered h') (hd : h.Distinct) {path : String} {e : Host.Error}
    (hl : h.list path = .error e) : h'.list path = .error e := by
  rw [list_eq_error_iff] at hl ⊢
  rwa [hr.at?_eq hd]

end Reordered
end Host

/-! ## The order of units and nodes -/

theorem UnitId.rank_injective {u v : UnitId} (h : u.rank = v.rank) : u = v := by
  obtain ⟨d, a⟩ := u
  obtain ⟨e, b⟩ := v
  simp only [rank, List.cons.injEq, Fin.val_inj] at h
  obtain ⟨rfl, h⟩ := h
  cases a with
  | none =>
    cases b with
    | none => rfl
    | some b => cases b <;> simp [Span.rank] at h
  | some a =>
    cases b with
    | none => cases a <;> simp [Span.rank] at h
    | some b => cases a <;> cases b <;> simp_all [Span.rank, Fin.ext_iff]

/-- The order of units, by their bounds: device by device, the whole device before its single PEs,
these before its fused ranges, and ranges by where they begin and then by where they end. -/
inductive UnitId.Precedes : UnitId → UnitId → Prop
  | device {d e : Index} {a b : Option Span} (hlt : d < e) : Precedes ⟨d, a⟩ ⟨e, b⟩
  | whole {d : Index} {s : Span} : Precedes ⟨d, none⟩ ⟨d, some s⟩
  | single {d pe pe' : Index} (hlt : pe < pe') :
    Precedes ⟨d, some (.single pe)⟩ ⟨d, some (.single pe')⟩
  | fused {d pe first last : Index} :
    Precedes ⟨d, some (.single pe)⟩ ⟨d, some (.fused first last)⟩
  | first {d first first' last last' : Index} (hlt : first < first') :
    Precedes ⟨d, some (.fused first last)⟩ ⟨d, some (.fused first' last')⟩
  | last {d first last last' : Index} (hlt : last < last') :
    Precedes ⟨d, some (.fused first last)⟩ ⟨d, some (.fused first last')⟩

theorem UnitId.precedes_iff {u v : UnitId} : u.Precedes v ↔ u.rank < v.rank := by
  constructor
  · intro h
    cases h with
    | device hlt => exact List.cons_lt_cons_iff.2 (.inl hlt)
    | @whole d s => cases s <;> simp [rank, Span.rank]
    | single hlt => simpa [rank, Span.rank, List.cons_lt_cons_iff] using hlt
    | fused => simp [rank, Span.rank, List.cons_lt_cons_iff]
    | first hlt => simp [rank, Span.rank, List.cons_lt_cons_iff, hlt]
    | last hlt => simp [rank, Span.rank, List.cons_lt_cons_iff, hlt]
  · obtain ⟨d, a⟩ := u
    obtain ⟨e, b⟩ := v
    intro h
    rcases List.cons_lt_cons_iff.1 h with hlt | ⟨heq, h⟩
    · exact .device hlt
    obtain rfl := Fin.ext heq
    cases a with
    | none =>
      cases b with
      | none => exact absurd h (List.lt_irrefl _)
      | some t => exact .whole
    | some s =>
      cases b with
      | none => exact absurd h (List.not_lt_nil _)
      | some t =>
        cases s with
        | single pe =>
          cases t with
          | single pe' => exact .single (by simpa [Span.rank, List.cons_lt_cons_iff] using h)
          | fused first last => exact .fused
        | fused first last =>
          cases t with
          | single pe => simp [Span.rank, List.cons_lt_cons_iff] at h
          | fused first' last' =>
            simp only [Span.rank, List.cons_lt_cons_iff, List.not_lt_nil, Nat.lt_irrefl, and_false,
              or_false, false_or, true_and] at h
            rcases h with hlt | ⟨heq, hlt⟩
            · exact .first hlt
            · obtain rfl := Fin.ext heq
              exact .last hlt

/-- Nodes are in order by their units, and those of one unit by their paths. -/
theorem Node.before_iff_precedes {m n : Node} : m.before n = true ↔
    m.id.Precedes n.id ∨ m.id = n.id ∧ ¬ Path.rank n.path < Path.rank m.path := by
  have hunit : m.id.rank = n.id.rank ↔ m.id = n.id :=
    ⟨UnitId.rank_injective, congrArg UnitId.rank⟩
  rw [before_iff, UnitId.precedes_iff, hunit]

/-- Nodes of different units that are in order ascend. -/
theorem Node.rank_lt_of_before {ns : List Node} (hs : ns.Pairwise fun m n => m.before n = true)
    (hn : (ns.map Node.id).Nodup) : ns.Pairwise fun m n => m.id.rank < n.id.rank := by
  have hne : ns.Pairwise fun m n => m.id ≠ n.id := List.pairwise_map.1 hn
  refine (hs.and hne).imp fun {m n} hmn => ?_
  rcases Node.before_iff.1 hmn.1 with hlt | ⟨heq, -⟩
  · exact hlt
  · exact absurd (UnitId.rank_injective heq) hmn.2

/-- There is one way to put nodes of different units in order. -/
theorem Node.eq_of_perm {ms ns : List Node} (hp : ms.Perm ns) (hids : (ns.map Node.id).Nodup)
    (hms : ms.Pairwise fun m n => m.before n = true)
    (hns : ns.Pairwise fun m n => m.before n = true) : ms = ns := by
  refine List.Perm.eq_of_pairwise ?_ hms hns hp
  intro m n hm hn hbefore hbefore'
  -- nodes that are before each other have one rank, so they are one unit
  have hrank : m.id.rank = n.id.rank := by
    rcases Node.before_iff.1 hbefore with hlt | ⟨heq, -⟩
    · rcases Node.before_iff.1 hbefore' with hlt' | ⟨heq, -⟩
      · exact absurd (List.lt_trans hlt hlt') (List.lt_irrefl _)
      · exact heq.symm
    · exact heq
  exact List.inj_on_of_nodup_map hids (hp.subset hm) hn (UnitId.rank_injective hrank)

/-! ## Scans -/

namespace Discovery

variable {h h' : Host} {r : Roots} {found : List (String × Host.Entry)} {nodes : List Node}

theorem node?_eq_some_iff (hn : h.Named) (hf : h.list r.devfs = .ok found)
    {x : String × Host.Entry} (hx : x ∈ found) {n : Node} :
    node? r x = some n ↔ (∃ file, x.2 = .file file) ∧ UnitId.ofName? x.1 = some n.id ∧
      n.path = Path.join r.devfs x.1 := by
  obtain ⟨name, e⟩ := x
  obtain ⟨u, path⟩ := n
  cases e with
  | file file =>
    rw [node?, Node.ofPath?, Path.fileName?_join (hn.of_list hf _ hx)]
    simp [eq_comm]
  | directory => simp [node?]
  | link target => simp [node?]

/-- A scan finds the files of the directory that are called by the name of a unit. -/
theorem mem_scan_iff (hn : h.Named) (hf : h.list r.devfs = .ok found) (hs : scan h r = .ok nodes)
    {n : Node} : n ∈ nodes ↔ ∃ name file, (name, .file file) ∈ found ∧
      UnitId.ofName? name = some n.id ∧ n.path = Path.join r.devfs name := by
  obtain ⟨found', hf', rfl⟩ := scan_eq_ok_iff.1 hs
  rw [hf, Except.ok.injEq] at hf'
  subst hf'
  rw [List.mem_mergeSort, List.mem_filterMap]
  constructor
  · rintro ⟨⟨name, e⟩, hx, hnode⟩
    obtain ⟨⟨file, rfl⟩, hname, hpath⟩ := (node?_eq_some_iff hn hf hx).1 hnode
    exact ⟨name, file, hx, hname, hpath⟩
  · rintro ⟨name, file, hx, hname, hpath⟩
    exact ⟨_, hx, (node?_eq_some_iff hn hf hx).2 ⟨⟨file, rfl⟩, hname, hpath⟩⟩

/-- No unit is found twice. -/
theorem scan_nodup (hn : h.Named) (hd : h.Distinct) (hs : scan h r = .ok nodes) :
    (nodes.map Node.id).Nodup := by
  obtain ⟨found, hf, rfl⟩ := scan_eq_ok_iff.1 hs
  rw [((List.mergeSort_perm _ _).map Node.id).nodup_iff]
  unfold List.Nodup
  rw [List.pairwise_map]
  have hnames : found.Pairwise fun x y => x.1 ≠ y.1 := List.pairwise_map.1 (hd.of_list hf)
  refine List.Pairwise.filterMap _ ?_ (List.Pairwise.and_mem.1 hnames)
  rintro x y ⟨hx, hy, hxy⟩ m hm n hmn hid
  -- the name of an entry is that of its unit
  have hmname := (UnitId.ofName?_eq_some_iff.1 ((node?_eq_some_iff hn hf hx).1 hm).2.1).2
  have hnname := (UnitId.ofName?_eq_some_iff.1 ((node?_eq_some_iff hn hf hy).1 hmn).2.1).2
  exact hxy (by rw [hmname, hnname, hid])

/-- What is found is put in the one order that there is, whatever order it is found in. -/
theorem scan_reordered (hn : h.Named) (hd : h.Distinct) (hr : h.Reordered h') (r : Roots) :
    scan h' r = scan h r := by
  cases hf : h.list r.devfs with
  | error e => simp only [scan, hf, hr.list_error hd hf]
  | ok found =>
    obtain ⟨found', hf', hperm⟩ := hr.list_perm hd hf
    have hs := scan_eq_ok_iff.2 ⟨found, hf, rfl⟩
    have hs' := scan_eq_ok_iff.2 ⟨found', hf', rfl⟩
    have hids := scan_nodup hn hd hs
    rw [hs, hs', Except.ok.injEq]
    have hnodes : ((found'.filterMap (node? r)).mergeSort Node.before).Perm
        ((found.filterMap (node? r)).mergeSort Node.before) :=
      (List.mergeSort_perm _ _).trans
        ((hperm.filterMap _).trans (List.mergeSort_perm _ _).symm)
    exact Node.eq_of_perm hnodes hids (Node.pairwise_before _) (Node.pairwise_before _)

theorem identify_reordered (hd : h.Distinct) (hr : h.Reordered h') (r : Roots) :
    identify h' r = identify h r := by
  funext i
  unfold identify
  rw [hr.readText_eq hd]

/-- The order in which directories list their entries makes no difference. -/
theorem list_reordered (hn : h.Named) (hd : h.Distinct) (hr : h.Reordered h') (r : Roots) :
    list h' r = list h r := by
  rw [list_eq, list_eq, scan_reordered hn hd hr, identify_reordered hd hr]

theorem identify_eq_ok_iff {i : Index} {arch : Arch} :
    identify h r i = .ok arch ↔ ∃ text, h.readText (r.management i "device_type") = .ok text ∧
      Arch.ofText text = .ok arch := by
  unfold identify
  cases h.readText (r.management i "device_type") with
  | error e => simp
  | ok text => simp [mapError_eq_ok_iff]

/-- The nodes of every device ascend by their units. -/
theorem list_ascending {t : Topology} (hn : h.Named) (hd : h.Distinct) (ht : list h r = .ok t) :
    ∀ d ∈ t, d.nodes.Pairwise fun m n => m.id.rank < n.id.rank := by
  obtain ⟨nodes, hs, rfl⟩ := list_eq_ok_iff.1 ht
  intro d hdt
  refine Node.rank_lt_of_before ((Topology.ofNodes_wellFormed _ _).sorted d hdt) ?_
  obtain ⟨i, -, arch, -, rfl⟩ := Topology.mem_ofNodes.1 hdt
  rw [Topology.deviceOf, ((List.mergeSort_perm _ _).map Node.id).nodup_iff]
  exact (scan_nodup hn hd hs).sublist (List.filter_sublist.map Node.id)

end Discovery

/-! ## Topologies -/

namespace Topology

/-- Asking without any effect is asking for what is known. -/
theorem ofNodesM_pure (nodes : List Node) (identify : Index → Except Fault Arch) :
    Id.run (ofNodesM nodes fun i => pure (identify i)) = ofNodes nodes identify := by
  unfold ofNodesM ofNodes
  induction indices nodes with
  | nil => rfl
  | cons i is ih =>
    rw [List.filterMapM_cons, List.filterMap_cons, ← ih]
    simp only [pure_bind]
    cases identify i with
    | error f => rfl
    | ok arch => rfl

theorem deviceOf_without {nodes : List Node} {i j : Index} (hij : j ≠ i) (arch : Arch) :
    deviceOf (nodes.filter fun n => n.id.device ≠ i) j arch = deviceOf nodes j arch := by
  unfold deviceOf
  rw [List.filter_filter]
  congr 2
  refine List.filter_congr fun n _ => ?_
  rw [Bool.eq_iff_iff]
  simp only [Bool.and_eq_true, decide_eq_true_eq]
  constructor
  · exact fun hn => hn.1
  · exact fun hn => ⟨hn, fun hi => hij (hn.1.symm.trans hi)⟩

/-- A device that cannot be identified takes nothing from the others: without its nodes the
topology is the same. -/
theorem ofNodes_without {nodes : List Node} {identify : Index → Except Fault Arch} {i : Index}
    {f : Fault} (hi : identify i = .error f) :
    ofNodes (nodes.filter fun n => n.id.device ≠ i) identify = ofNodes nodes identify := by
  have hindices : indices (nodes.filter fun n => n.id.device ≠ i) =
      (indices nodes).filter fun j => j ≠ i := by
    unfold indices
    rw [List.filter_filter]
    refine List.filter_congr fun j _ => ?_
    rw [Bool.eq_iff_iff]
    simp only [List.any_filter, List.any_eq_true, Bool.and_eq_true, decide_eq_true_eq]
    constructor
    · rintro ⟨n, hn, hne, rfl⟩
      exact ⟨hne, n, hn, rfl⟩
    · rintro ⟨hne, n, hn, rfl⟩
      exact ⟨n, hn, hne, rfl⟩
  unfold ofNodes
  rw [hindices, List.filterMap_filter]
  refine List.filterMap_congr fun j _ => ?_
  by_cases hij : j = i
  · simp [hij, hi, Except.toOption]
  · simp only [hij, not_false_eq_true, ne_eq, decide_true, if_true]
    cases identify j with
    | error e => rfl
    | ok arch => exact congrArg some (deviceOf_without hij arch)

end Topology

/-! ## Units that fit on a device -/

theorem Arch.mem_pes {a : Arch} {pe : Index} : pe ∈ a.pes ↔ pe.val < a.peCount := by
  simp [pes, List.mem_finRange]

namespace UnitId

/-- The PEs that the name of a unit gives it, by the bounds alone. A whole device is given none:
it has those of its architecture. -/
inductive HasPe : UnitId → Index → Prop
  | single {device pe : Index} : HasPe ⟨device, some (.single pe)⟩ pe
  | fused {device first last pe : Index} (hfirst : first ≤ pe) (hlast : pe ≤ last) :
    HasPe ⟨device, some (.fused first last)⟩ pe

/-- A device of this architecture has all PEs of the unit. -/
def FitsOn (u : UnitId) (a : Arch) : Prop := ∀ pe, u.HasPe pe → pe.val < a.peCount

variable {u : UnitId} {pe : Index}

theorem hasPe_iff : u.HasPe pe ↔ ∃ s ∈ u.span, pe ∈ s.indices := by
  constructor
  · intro hpe
    cases hpe with
    | single =>
      exact ⟨_, rfl, Span.mem_indices_iff.2 (Span.contains_iff.2 ⟨Fin.le_refl _, Fin.le_refl _⟩)⟩
    | fused hfirst hlast =>
      exact ⟨_, rfl, Span.mem_indices_iff.2 (Span.contains_iff.2 ⟨hfirst, hlast⟩)⟩
  · obtain ⟨device, span⟩ := u
    rintro ⟨s, hs, hpe⟩
    obtain rfl : span = some s := hs
    obtain ⟨hfirst, hlast⟩ := Span.contains_iff.1 (Span.mem_indices_iff.1 hpe)
    cases s with
    | single pe' =>
      obtain rfl := Fin.le_antisymm hfirst hlast
      exact .single
    | fused first last => exact .fused hfirst hlast

theorem fitsOn_iff_span {a : Arch} :
    u.FitsOn a ↔ ∀ s ∈ u.span, ∀ pe ∈ s.indices, pe.val < a.peCount := by
  simp only [FitsOn, hasPe_iff]
  constructor
  · exact fun hfits s hs pe hpe => hfits pe ⟨s, hs, hpe⟩
  · rintro hfits pe ⟨s, hs, hpe⟩
    exact hfits s hs pe hpe

instance (u : UnitId) (a : Arch) : Decidable (u.FitsOn a) :=
  decidable_of_iff ((u.span.all fun s => s.indices.all fun pe => pe.val < a.peCount) = true) <| by
    simp [fitsOn_iff_span, Option.all_eq_true]

/-- The nodes that a device keeps are those of units that fit on it. -/
theorem pes_subset_iff {n : Node} {a : Arch} : n.pes a.pes ⊆ a.pes ↔ n.id.FitsOn a := by
  rw [fitsOn_iff_span, Node.pes]
  cases n.id.span with
  | none => simp
  | some s => simp [List.subset_def, Arch.mem_pes]

end UnitId

/-! ## What is listed -/

/-- **What is listed.** On a host whose device directory can be listed, the topology is the same
in whatever order its directories list their entries, and the same as when each architecture is
asked for while the topology is put together. Its devices ascend. They are those that a file in
the directory names and whose type is read as an architecture. The nodes of a device ascend, and
are the files that are called by the name of a unit of it that fits on it. The nodes of a device
without an architecture could as well be missing. -/
theorem Discovery.list_exact {h : Host} {r : Roots} {found : List (String × Host.Entry)}
    (hn : h.Named) (hd : h.Distinct) (hf : h.list r.devfs = .ok found) :
    ∃ nodes t, scan h r = .ok nodes ∧ list h r = .ok t ∧
      (∀ h', h.Reordered h' → list h' r = .ok t) ∧
      Id.run (Topology.ofNodesM nodes fun i => pure (identify h r i)) = t ∧
      (t.Pairwise fun d e => d.index < e.index) ∧
      (∀ i arch, (∃ d ∈ t, d.index = i ∧ d.arch = arch) ↔
        (∃ name file u, (name, .file file) ∈ found ∧ UnitId.ofName? name = some u ∧
          u.device = i) ∧
        ∃ text, h.readText (r.management i "device_type") = .ok text ∧
          Arch.ofText text = .ok arch) ∧
      (∀ d ∈ t, (d.nodes.Pairwise fun m n => m.id.Precedes n.id) ∧
        ∀ n, n ∈ d.nodes ↔ n.id.device = d.index ∧ n.id.FitsOn d.arch ∧
          ∃ name file, (name, .file file) ∈ found ∧ UnitId.ofName? name = some n.id ∧
            n.path = Path.join r.devfs name) ∧
      ∀ i f, identify h r i = .error f →
        Topology.ofNodes (nodes.filter fun n => n.id.device ≠ i) (identify h r) = t := by
  have hs := scan_eq_ok_iff.2 ⟨found, hf, rfl⟩
  have hmem := fun n => @mem_scan_iff h r found _ hn hf hs n
  generalize (found.filterMap (node? r)).mergeSort Node.before = nodes at hs hmem
  have ht : list h r = .ok (Topology.ofNodes nodes (identify h r)) :=
    list_eq_ok_iff.2 ⟨nodes, hs, rfl⟩
  refine ⟨nodes, _, hs, ht, fun h' hr => (list_reordered hn hd hr r).trans ht,
    Topology.ofNodesM_pure nodes _, (Topology.ofNodes_wellFormed nodes _).ascending, ?_, ?_,
    fun i f hi => Topology.ofNodes_without hi⟩
  · intro i arch
    simp only [← identify_eq_ok_iff, Topology.mem_ofNodes, Topology.mem_indices_iff]
    constructor
    · rintro ⟨d, ⟨j, ⟨n, hnode, rfl⟩, a, ha, rfl⟩, rfl, rfl⟩
      obtain ⟨name, file, hfile, hname, -⟩ := (hmem n).1 hnode
      exact ⟨⟨name, file, n.id, hfile, hname, rfl⟩, ha⟩
    · rintro ⟨⟨name, file, u, hfile, hname, rfl⟩, ha⟩
      have hnode := (hmem ⟨u, Path.join r.devfs name⟩).2 ⟨name, file, hfile, hname, rfl⟩
      exact ⟨_, ⟨_, ⟨_, hnode, rfl⟩, arch, ha, rfl⟩, rfl, rfl⟩
  · intro d hdt
    refine ⟨(list_ascending hn hd ht d hdt).imp UnitId.precedes_iff.2, fun n => ?_⟩
    obtain ⟨i, -, arch, -, rfl⟩ := Topology.mem_ofNodes.1 hdt
    rw [Topology.mem_deviceOf, hmem n, UnitId.pes_subset_iff]
    constructor
    · rintro ⟨hfile, hi, hfits⟩
      exact ⟨hi, hfits, hfile⟩
    · rintro ⟨hi, hfits, hfile⟩
      exact ⟨hfile, hi, hfits⟩

/-- Files of two devices out of order, one of them with a PE that its device does not have, one of
no device, and a directory with the name of one. The type of the second device is unknown. -/
def mixedHost : Host where
  entries := [(["dev"], .directory), (["dev", "npu2"], .file 0), (["dev", "npu0pe1"], .file 1),
    (["dev", "tty0"], .file 2), (["dev", "npu0pe3"], .file 7), (["dev", "npu0"], .file 3),
    (["dev", "npu5"], .directory), (["dev", "npu0pe200"], .file 8),
    (["dev", "npu0pe2"], .file 6), (["sys"], .directory), (["sys", "class"], .directory),
    (["sys", "class", "npu_mgmt"], .directory),
    (["sys", "class", "npu_mgmt", "npu0_mgmt"], .directory),
    (["sys", "class", "npu_mgmt", "npu0_mgmt", "device_type"], .file 4),
    (["sys", "class", "npu_mgmt", "npu2_mgmt"], .directory),
    (["sys", "class", "npu_mgmt", "npu2_mgmt", "device_type"], .file 5)]
  contents := [(4, [114, 110, 103, 100]), (5, [103, 112, 117])]
  fresh := 9

def mixedFiles : List (String × Host.Entry) :=
  [("npu2", .file 0), ("npu0pe1", .file 1), ("tty0", .file 2), ("npu0pe3", .file 7),
    ("npu0", .file 3), ("npu5", .directory), ("npu0pe200", .file 8), ("npu0pe2", .file 6)]

def mixedNodes : List Node :=
  ["/dev/npu0", "/dev/npu0pe1", "/dev/npu0pe2", "/dev/npu0pe3"].filterMap Node.ofPath?

/-- The nodes that are scanned and not listed. -/
def mixedOthers : List Node := ["/dev/npu0pe200", "/dev/npu2"].filterMap Node.ofPath?

def mixedTopology : Topology := Topology.ofNodes mixedNodes fun _ => .ok .rngd

theorem mixedNodes_eq : mixedNodes =
    [⟨⟨0, none⟩, "/dev/npu0"⟩, ⟨⟨0, some (.single 1)⟩, "/dev/npu0pe1"⟩,
      ⟨⟨0, some (.single 2)⟩, "/dev/npu0pe2"⟩, ⟨⟨0, some (.single 3)⟩, "/dev/npu0pe3"⟩] := by
  decide

theorem mixed_indices :
    Topology.indices (mixedNodes ++ [⟨⟨0, some (.single 200)⟩, "/dev/npu0pe200"⟩]) = [0] := by
  decide

theorem mixed_sorted : mixedNodes.Pairwise fun m n => m.before n = true := by decide

theorem mixedTopology_eq : mixedTopology = [⟨0, .rngd, mixedNodes⟩] :=
  Topology.ofNodes_single (by decide) (by decide) mixed_sorted

theorem mixed_files : mixedHost.list Roots.standard.devfs = .ok mixedFiles := by
  have hat : mixedHost.at? "/dev" = .ok (["dev"], .directory) := Host.at?_of_straight? (by decide)
  exact Host.list_of_at? hat

theorem mixed_scan : Discovery.scan mixedHost .standard = .ok (mixedNodes ++ mixedOthers) := by
  have hfound : (mixedFiles.filterMap (Discovery.node? .standard)).Perm
      (mixedNodes ++ mixedOthers) := by decide
  have hids : ((mixedNodes ++ mixedOthers).map Node.id).Nodup := by decide
  have hsorted : (mixedNodes ++ mixedOthers).Pairwise fun m n => m.before n = true := by decide
  refine Discovery.scan_eq_ok_iff.2 ⟨mixedFiles, mixed_files, ?_⟩
  exact Node.eq_of_perm ((List.mergeSort_perm _ _).trans hfound) hids (Node.pairwise_before _)
    hsorted

theorem mixed_type : ∀ x ∈ [((0 : Index), "rngd"), (2, "gpu")],
    mixedHost.readText (Roots.standard.management x.1 "device_type") = .ok x.2 := by
  have hread : ∀ x ∈ [((0 : Index), "rngd"), (2, "gpu")],
      mixedHost.plainText? (Roots.standard.management x.1 "device_type") = some x.2 := by decide
  exact fun x hx => Host.readText_of_plainText? (hread x hx)

theorem mixed_unknown : ∃ f, Discovery.identify mixedHost .standard 2 = .error f := by
  have htype : mixedHost.readText (Roots.standard.management 2 "device_type") = .ok "gpu" :=
    mixed_type (2, "gpu") (by simp)
  have harch : Arch.ofText "gpu" = .error "gpu" := by decide
  unfold Discovery.identify
  rw [htype]
  simp only [harch, Except.mapError]
  exact ⟨_, rfl⟩

theorem mixed_filter : (mixedNodes ++ mixedOthers).filter (fun n => n.id.device ≠ 2) =
    mixedNodes ++ [⟨⟨0, some (.single 200)⟩, "/dev/npu0pe200"⟩] := by decide

theorem mixed_list : Discovery.list mixedHost .standard = .ok mixedTopology := by
  have hrngd : Discovery.identify mixedHost .standard 0 = .ok .rngd :=
    Discovery.identify_eq_ok_iff.2 ⟨_, mixed_type (0, "rngd") (by simp), by decide⟩
  obtain ⟨f, hgpu⟩ := mixed_unknown
  -- what is listed does not depend on the node that does not fit
  have hkept : Topology.ofNodes (mixedNodes ++ [⟨⟨0, some (.single 200)⟩, "/dev/npu0pe200"⟩])
      (fun _ => .ok .rngd) = [⟨0, .rngd, mixedNodes⟩] :=
    Topology.ofNodes_single mixed_indices (by decide) mixed_sorted
  rw [Discovery.list_eq, mixed_scan, Except.map, ← Topology.ofNodes_without hgpu, mixed_filter,
    mixedTopology_eq, ← hkept, Topology.ofNodes, Topology.ofNodes, mixed_indices]
  simp only [List.filterMap_cons, List.filterMap_nil, hrngd]

/-- Of the two devices the first is listed with the four of its nodes that fit on it, also when
directories list backwards, or when the node of the second is not there. The file of the PE that
the first does not have is passed over. -/
theorem Discovery.list_exact_mixed :
    let reversed : Host := { mixedHost with entries := mixedHost.entries.reverse }
    let outside : Node := ⟨⟨0, some (.single 200)⟩, "/dev/npu0pe200"⟩
    mixedHost.Named ∧ mixedHost.Distinct ∧ mixedHost.list Roots.standard.devfs = .ok mixedFiles ∧
      list mixedHost .standard = .ok mixedTopology ∧
      list reversed .standard = .ok mixedTopology ∧
      ("npu0pe200", .file 8) ∈ mixedFiles ∧ ¬ outside.id.FitsOn .rngd ∧
      (∀ d ∈ mixedTopology, outside ∉ d.nodes) ∧
      Topology.ofNodes (mixedNodes ++ [outside]) (identify mixedHost .standard) =
        mixedTopology := by
  intro reversed outside
  have hnamed : mixedHost.Named := by decide
  have hdistinct : mixedHost.Distinct := by decide
  have hreversed : mixedHost.Reordered reversed := ⟨List.reverse_perm _, rfl⟩
  obtain ⟨nodes, t, hs, ht, horder, -, -, -, hnodes, hwithout⟩ :=
    list_exact hnamed hdistinct mixed_files
  rw [mixed_scan, Except.ok.injEq] at hs
  rw [mixed_list, Except.ok.injEq] at ht
  subst hs ht
  have hunfit : ¬ outside.id.FitsOn .rngd := fun hfits =>
    absurd (hfits 200 .single) (by decide)
  have houtside : ∀ d ∈ mixedTopology, outside ∉ d.nodes := by
    intro d hd hmem
    have hfits := ((hnodes d hd).2 outside).1 hmem
    rw [mixedTopology_eq, List.mem_singleton] at hd
    rw [hd] at hfits
    exact hunfit hfits.2.1
  obtain ⟨f, hf⟩ := mixed_unknown
  have hrest := hwithout 2 f hf
  rw [mixed_filter] at hrest
  exact ⟨hnamed, hdistinct, mixed_files, mixed_list, horder _ hreversed, by decide, hunfit,
    houtside, hrest⟩

end NpuBroker

import NpuBroker.Discovery
import NpuBroker.Proofs.Answers
import NpuBroker.Proofs.Naming
import Mathlib.Data.List.Nodup
import Mathlib.Logic.Function.Basic

/-!
# Topologies of a host

What every enumeration of a host returns, whatever is on the host.

* `list_eq`: the topology is put together by asking for each architecture directly; the list of
  identifications in between makes no difference.
* `ofNodes_wellFormed`: devices ascend by index, and the nodes of each are its own, in order.
* `ofNodesM_eq`: each device is asked for once, so its architecture is one answer.
* `scan_eq_ok_iff`: a scan puts in order what the entries of the device directory stand for.
* `Node.ofPath?_eq_some_iff`, `list_ofPath?`: the path of a node, and of every one that is listed.
* `list_proper`, `list_fits`: the ranges of a listed topology ascend, as those of all names do, and
  have no PEs that their device does not have.
-/
namespace NpuBroker

/-! ## Nodes by their paths -/

namespace Node

variable {path : String} {n : Node}

/-- A path is that of a node when its file name is the name of the unit. -/
theorem ofPath?_eq_some_iff : ofPath? path = some n ↔
    Path.fileName? path = some n.name ∧ n.id.Proper ∧ n.path = path := by
  simp only [ofPath?, Option.bind_eq_some_iff, Option.map_eq_some_iff, UnitId.ofName?_eq_some_iff]
  constructor
  · rintro ⟨_, hname, u, ⟨hu, rfl⟩, rfl⟩
    exact ⟨hname, hu, rfl⟩
  · rintro ⟨hname, hproper, rfl⟩
    exact ⟨n.name, hname, n.id, ⟨hproper, rfl⟩, rfl⟩

theorem ofPath?_proper (hn : ofPath? path = some n) : n.id.Proper :=
  (ofPath?_eq_some_iff.1 hn).2.1

/-- The file name of a node that was found by its path is the name of its unit. -/
theorem fileName_of_ofPath? (hn : ofPath? path = some n) : n.fileName = n.name := by
  obtain ⟨hname, -, rfl⟩ := ofPath?_eq_some_iff.1 hn
  rw [fileName, hname, Option.getD_some]

end Node

/-! ## The order of nodes -/

theorem Node.before_iff {a b : Node} :
    a.before b = true ↔ a.id.rank < b.id.rank ∨
      a.id.rank = b.id.rank ∧ ¬ Path.rank b.path < Path.rank a.path := by
  simp [before]

theorem Node.before_trans {a b c : Node} (hab : a.before b = true) (hbc : b.before c = true) :
    a.before c = true := by
  rw [before_iff] at *
  rcases hab with hab | ⟨hab, hab'⟩ <;> rcases hbc with hbc | ⟨hbc, hbc'⟩
  · exact .inl (List.lt_trans hab hbc)
  · exact .inl (hbc ▸ hab)
  · exact .inl (hab ▸ hbc)
  · exact .inr ⟨hab.trans hbc, List.le_trans (List.not_lt.1 hab') (List.not_lt.1 hbc')⟩

theorem Node.before_total (a b : Node) : (a.before b || b.before a) = true := by
  rw [Bool.or_eq_true, before_iff, before_iff]
  by_cases hab : a.id.rank < b.id.rank
  · exact .inl (.inl hab)
  by_cases hba : b.id.rank < a.id.rank
  · exact .inr (.inl hba)
  have heq : a.id.rank = b.id.rank := List.le_antisymm (List.not_lt.1 hba) (List.not_lt.1 hab)
  by_cases hp : Path.rank b.path < Path.rank a.path
  · exact .inr (.inr ⟨heq.symm, fun hp' => List.lt_irrefl _ (List.lt_trans hp hp')⟩)
  · exact .inl (.inr ⟨heq, hp⟩)

theorem Node.pairwise_before (ns : List Node) :
    (ns.mergeSort Node.before).Pairwise fun m n => m.before n = true :=
  @List.pairwise_mergeSort _ Node.before (fun _ _ _ => Node.before_trans) Node.before_total ns

/-! ## Topologies from nodes -/

namespace Topology

/-- What holds of every topology put together from nodes. -/
structure WellFormed (t : Topology) : Prop where
  ascending : t.Pairwise fun d e => d.index < e.index
  own : ∀ d ∈ t, ∀ n ∈ d.nodes, n.id.device = d.index
  sorted : ∀ d ∈ t, d.nodes.Pairwise fun m n => m.before n = true

/-- The node is among those of some device. -/
def Has (t : Topology) (n : Node) : Prop := ∃ d ∈ t, n ∈ d.nodes

/-- The node is among those of its device. -/
def Listed (t : Topology) (n : Node) : Prop := ∃ d, t.device? n.id.device = some d ∧ n ∈ d.nodes

theorem mem_of_device? {t : Topology} {i : Index} {d : Device} (h : t.device? i = some d) :
    d ∈ t := List.mem_of_find?_eq_some h

theorem Listed.has {t : Topology} {n : Node} (h : t.Listed n) : t.Has n := by
  obtain ⟨d, hd, hn⟩ := h
  exact ⟨d, mem_of_device? hd, hn⟩

theorem mem_deviceOf {nodes : List Node} {i : Index} {arch : Arch} {n : Node} :
    n ∈ (deviceOf nodes i arch).nodes ↔
      n ∈ nodes ∧ n.id.device = i ∧ n.pes arch.pes ⊆ arch.pes := by
  simp [deviceOf, List.mem_filter]

theorem mem_ofNodes {nodes : List Node} {identify : Index → Except Fault Arch} {d : Device} :
    d ∈ ofNodes nodes identify ↔
      ∃ i ∈ indices nodes, ∃ arch, identify i = .ok arch ∧ deviceOf nodes i arch = d := by
  simp only [ofNodes, List.mem_filterMap, Option.map_eq_some_iff]
  constructor
  · rintro ⟨i, hi, arch, ha, hd⟩
    cases h : identify i with
    | error f => simp [h, Except.toOption] at ha
    | ok a =>
      have hia : a = arch := by simpa [h, Except.toOption] using ha
      exact ⟨i, hi, arch, by rw [hia] at h; exact h, hd⟩
  · rintro ⟨i, hi, arch, ha, hd⟩
    exact ⟨i, hi, arch, by simp [ha, Except.toOption], hd⟩

/-- A topology has no other nodes than it is put together from. -/
theorem mem_of_has_ofNodes {nodes : List Node} {identify : Index → Except Fault Arch} {n : Node}
    (hn : (ofNodes nodes identify).Has n) : n ∈ nodes := by
  obtain ⟨d, hd, hn⟩ := hn
  obtain ⟨i, -, arch, -, rfl⟩ := mem_ofNodes.1 hd
  exact (mem_deviceOf.1 hn).1

theorem indices_ascending (nodes : List Node) : (indices nodes).Pairwise (· < ·) :=
  (List.pairwise_lt_finRange 256).filter _

/-- Asking for each device once, whatever that does, is putting together the answers. -/
theorem build_answers {σ : Type} (nodes : List Node)
    (identify : Index → StateM σ (Except Fault Arch)) {is : List Index} (hn : is.Nodup) (s : σ) :
    ∃ answer : Index → Except Fault Arch,
      ((is.filterMapM (m := StateM σ) fun i => do
          match ← identify i with
          | .ok arch => return some (deviceOf nodes i arch)
          | .error _ => return none).run s).1 =
        is.filterMap fun i => (answer i).toOption.map (deviceOf nodes i) := by
  induction is generalizing s with
  | nil => exact ⟨fun i => .error (.unknownArch i .notIdentified), rfl⟩
  | cons i is ih =>
    rw [List.nodup_cons] at hn
    obtain ⟨answer, ih⟩ := ih hn.2 ((identify i).run s).2
    refine ⟨Function.update answer i ((identify i).run s).1, ?_⟩
    have hrest : is.filterMap (fun j =>
          (Function.update answer i ((identify i).run s).1 j).toOption.map (deviceOf nodes j)) =
        is.filterMap fun j => (answer j).toOption.map (deviceOf nodes j) := by
      refine List.filterMap_congr fun j hj => ?_
      have hne : j ≠ i := by
        rintro rfl
        exact hn.1 hj
      rw [Function.update_of_ne hne]
    rw [List.filterMapM_cons, List.filterMap_cons, hrest, ← ih, Function.update_self]
    simp only [StateT.run_bind]
    rcases (identify i).run s with ⟨a, s'⟩
    cases a <;> rfl

/-- Each device is asked for once, so the topology is that of some answers. -/
theorem ofNodesM_eq {σ : Type} (nodes : List Node) (identify : Index → StateM σ (Except Fault Arch))
    (s : σ) : ∃ answer, ((ofNodesM nodes identify).run s).1 = ofNodes nodes answer :=
  build_answers nodes identify ((indices_ascending nodes).imp fun hlt => Fin.ne_of_lt hlt) s

theorem ofNodes_wellFormed (nodes : List Node) (identify : Index → Except Fault Arch) :
    (ofNodes nodes identify).WellFormed where
  ascending := by
    refine List.Pairwise.filterMap _ ?_ (indices_ascending nodes)
    intro i j hij d hd e he
    obtain ⟨a, -, rfl⟩ := Option.map_eq_some_iff.1 hd
    obtain ⟨b, -, rfl⟩ := Option.map_eq_some_iff.1 he
    exact hij
  own := by
    intro d hd n hn
    obtain ⟨i, -, arch, -, rfl⟩ := mem_ofNodes.1 hd
    exact (mem_deviceOf.1 hn).2.1
  sorted := by
    intro d hd
    obtain ⟨i, -, arch, -, rfl⟩ := mem_ofNodes.1 hd
    exact Node.pairwise_before _

/-- The nodes of one known device that fit on it make it up, if they are in order. -/
theorem ofNodes_single {nodes kept : List Node} {i : Index} {arch : Arch}
    (hi : indices nodes = [i])
    (hkept : nodes.filter (fun n => n.id.device = i ∧ n.pes arch.pes ⊆ arch.pes) = kept)
    (hsorted : kept.Pairwise fun m n => m.before n = true) :
    ofNodes nodes (fun _ => .ok arch) = [⟨i, arch, kept⟩] := by
  have hdevice : deviceOf nodes i arch = ⟨i, arch, kept⟩ := by
    rw [deviceOf, hkept, List.mergeSort_of_pairwise hsorted]
  rw [ofNodes, hi]
  simp [Except.toOption, hdevice]

theorem WellFormed.device?_eq {t : Topology} (hw : t.WellFormed) {d : Device} (hd : d ∈ t) :
    t.device? d.index = some d := by
  have ha := hw.ascending
  clear hw
  unfold device?
  induction t with
  | nil => simp at hd
  | cons e t ih =>
    rw [List.pairwise_cons] at ha
    rcases List.mem_cons.1 hd with rfl | hd
    · simp
    · have hne : e.index ≠ d.index := Fin.ne_of_lt (ha.1 d hd)
      rw [List.find?_cons_of_neg (by simpa using hne)]
      exact ih hd ha.2

theorem WellFormed.device?_of_mem {t : Topology} (hw : t.WellFormed) {d : Device} (hd : d ∈ t)
    {n : Node} (hn : n ∈ d.nodes) : t.device? n.id.device = some d := by
  rw [hw.own d hd n hn, hw.device?_eq hd]

/-- Every node is listed under its own device. -/
theorem WellFormed.listed {t : Topology} (hw : t.WellFormed) {n : Node} (hn : t.Has n) :
    t.Listed n := by
  obtain ⟨d, hd, hn⟩ := hn
  exact ⟨d, hw.device?_of_mem hd hn, hn⟩

end Topology

/-! ## Enumerations -/

namespace Discovery

/-- Filling a place with the last element loses that place's own element alone. -/
theorem mem_set_dropLast {α : Type} {ys : List α} {i : Nat} {x z : α}
    (hi : i < (ys ++ [z]).length) :
    (x ∈ ((ys ++ [z]).set i z).dropLast → x ∈ ys ++ [z]) ∧
      (x ∈ ys ++ [z] → x ≠ (ys ++ [z])[i] → x ∈ ((ys ++ [z]).set i z).dropLast) := by
  have hset : ((ys ++ [z]).set i z).dropLast = ys.set i z := by
    rw [List.set_append]
    split
    · simp
    · rename_i hge
      have hz : i - ys.length = 0 := by
        rw [List.length_append, List.length_singleton] at hi
        omega
      simp [hz, List.set_eq_of_length_le (Nat.le_of_not_lt hge)]
  rw [hset]
  refine ⟨fun hx => ?_, fun hx hne => ?_⟩
  · rcases List.mem_or_eq_of_mem_set hx with hx | rfl <;> simp [*]
  · rcases List.mem_append.1 hx with hx | hx
    · obtain ⟨j, hj, rfl⟩ := List.mem_iff_getElem.1 hx
      have hij : i ≠ j := by
        rintro rfl
        exact hne (List.getElem_append_left hj).symm
      exact List.mem_iff_getElem.2 ⟨j, by simpa using hj, by simp [hij]⟩
    · rw [List.mem_singleton] at hx
      subst hx
      by_cases hlt : i < ys.length
      · exact List.mem_set hlt x
      · refine absurd ?_ hne
        rw [List.getElem_append_right (Nat.le_of_not_lt hlt)]
        simp

/-- The identification that is taken out is the device's own, and those of others stay. -/
theorem take_spec {identify : Index → Except Fault Arch} {known : Identified} {i : Index}
    (hk : ∀ k ∈ known, k.2 = identify k.1) (hi : i ∈ known.map Prod.fst) :
    (take i known).1 = identify i ∧ (∀ k ∈ (take i known).2, k ∈ known) ∧
      ∀ k ∈ known, k.1 ≠ i → k ∈ (take i known).2 := by
  obtain ⟨ys, z, rfl⟩ : ∃ ys z, known = ys ++ [z] := by
    rcases List.eq_nil_or_concat known with rfl | ⟨ys, z, h⟩
    · simp at hi
    · exact ⟨ys, z, by simpa using h⟩
  unfold take
  split
  · rename_i hnone
    obtain ⟨k, hk', rfl⟩ := List.mem_map.1 hi
    have := List.findIdx?_eq_none_iff.1 hnone k hk'
    simp at this
  · rename_i j hj
    obtain ⟨hlt, hji, -⟩ := List.findIdx?_eq_some_iff_getElem.1 hj
    have hfst : (ys ++ [z])[j].1 = i := by simpa using hji
    refine ⟨?_, ?_, ?_⟩
    · rw [List.getElem?_eq_getElem hlt]
      simpa [hfst] using hk _ (List.getElem_mem hlt)
    · intro k hk'
      simp only [List.getLast?_concat] at hk'
      exact (mem_set_dropLast hlt).1 hk'
    · intro k hk' hne
      simp only [List.getLast?_concat]
      exact (mem_set_dropLast hlt).2 hk' fun he => hne (he ▸ hfst)

/-- Building takes each identification once, so it meets what asking directly gives. -/
theorem build_take {identify : Index → Except Fault Arch} (nodes : List Node) {is : List Index}
    {known : Identified} (hk : ∀ k ∈ known, k.2 = identify k.1) (hn : is.Nodup)
    (hi : ∀ i ∈ is, i ∈ known.map Prod.fst) :
    ((is.filterMapM (m := StateM Identified) fun i => do
        match ← take i with
        | .ok arch => return some (Topology.deviceOf nodes i arch)
        | .error _ => return none).run known).1 =
      is.filterMap fun i => (identify i).toOption.map (Topology.deviceOf nodes i) := by
  induction is generalizing known with
  | nil => rfl
  | cons i is ih =>
    rw [List.nodup_cons] at hn
    obtain ⟨htake, hold, hkeep⟩ := take_spec hk (hi i List.mem_cons_self)
    have ih := @ih (take i known).2 (fun k hm => hk k (hold k hm)) hn.2 fun j hj => by
      obtain ⟨k, hm, rfl⟩ := List.mem_map.1 (hi j (List.mem_cons_of_mem _ hj))
      have hne : k.1 ≠ i := by
        rintro rfl
        exact hn.1 hj
      exact List.mem_map_of_mem (hkeep k hm hne)
    rw [List.filterMapM_cons, List.filterMap_cons]
    cases ht : take i known with
    | mk answer rest =>
    rw [ht] at htake ih
    subst htake
    have hrun : (take i).run known = (identify i, rest) := ht
    simp only [StateT.run_bind, hrun]
    cases identify i with
    | error f => exact ih
    | ok arch => exact congrArg (Topology.deviceOf nodes i arch :: ·) ih

theorem mem_devicesOf {nodes : List Node} {n : Node} (hn : n ∈ nodes) :
    n.id.device ∈ devicesOf nodes := by
  fun_induction devicesOf nodes generalizing n with
  | case1 => simp at hn
  | case2 m => simp_all
  | case3 m m' ns he ih =>
    rcases List.mem_cons.1 hn with rfl | hn
    · exact he ▸ ih List.mem_cons_self
    · exact ih hn
  | case4 m m' ns he ih =>
    rcases List.mem_cons.1 hn with rfl | hn
    · exact List.mem_cons_self
    · exact List.mem_cons_of_mem _ (ih hn)

/-- The topology of a host is put together by asking for each architecture directly. -/
theorem list_eq (h : Host) (r : Roots) :
    list h r = (scan h r).map fun nodes => Topology.ofNodes nodes (identify h r) := by
  unfold list
  cases scan h r with
  | error f => rfl
  | ok nodes =>
    simp only [bind, Except.bind, pure, Except.pure, Except.map, Topology.ofNodesM]
    congr 1
    refine build_take nodes ?_ ?_ ?_
    · simp
    · exact (Topology.indices_ascending nodes).imp fun hlt => Fin.ne_of_lt hlt
    · intro i hi
      obtain ⟨n, hn, rfl⟩ := Topology.mem_indices_iff.1 hi
      simpa using mem_devicesOf hn

theorem list_eq_ok_iff {h : Host} {r : Roots} {t : Topology} :
    list h r = .ok t ↔
      ∃ nodes, scan h r = .ok nodes ∧ Topology.ofNodes nodes (identify h r) = t := by
  rw [list_eq]
  cases scan h r <;> simp [Except.map]

theorem list_wellFormed {h : Host} {r : Roots} {t : Topology} (ht : list h r = .ok t) :
    t.WellFormed := by
  obtain ⟨nodes, -, rfl⟩ := list_eq_ok_iff.1 ht
  exact Topology.ofNodes_wellFormed nodes _

/-- What is listed was found by the scan. -/
theorem scan_of_has {h : Host} {r : Roots} {t : Topology} (ht : list h r = .ok t) {n : Node}
    (hn : t.Has n) : ∃ nodes, scan h r = .ok nodes ∧ n ∈ nodes := by
  obtain ⟨nodes, hs, rfl⟩ := list_eq_ok_iff.1 ht
  exact ⟨nodes, hs, Topology.mem_of_has_ofNodes hn⟩

/-- The nodes of a device have no PEs that it does not have. -/
theorem list_fits {h : Host} {r : Roots} {t : Topology} (ht : list h r = .ok t) {d : Device}
    (hd : d ∈ t) {n : Node} (hn : n ∈ d.nodes) : n.pes d.pes ⊆ d.pes := by
  obtain ⟨nodes, -, rfl⟩ := list_eq_ok_iff.1 ht
  obtain ⟨i, -, arch, -, rfl⟩ := Topology.mem_ofNodes.1 hd
  exact (Topology.mem_deviceOf.1 hn).2.2

/-- The node that an entry of the device directory stands for. -/
def node? (r : Roots) (x : String × Host.Entry) : Option Node :=
  match x.2 with
  | .file _ => Node.ofPath? (Path.join r.devfs x.1)
  | _ => none

/-- A scan puts in order what the entries of the directory stand for. -/
theorem scan_eq_ok_iff {h : Host} {r : Roots} {nodes : List Node} :
    scan h r = .ok nodes ↔ ∃ found, h.list r.devfs = .ok found ∧
      (found.filterMap (node? r)).mergeSort Node.before = nodes := by
  constructor
  · intro hs
    obtain ⟨found, hfound, hs⟩ := bind_eq_ok_iff.1 hs
    exact ⟨found, mapError_eq_ok_iff.1 hfound, Except.ok.inj hs⟩
  · rintro ⟨found, hfound, rfl⟩
    rw [scan, hfound]
    rfl

/-- A node is found for a file in the device directory whose path has the name of a unit. -/
theorem file_of_scan {h : Host} {r : Roots} {nodes : List Node} (hs : scan h r = .ok nodes)
    {n : Node} (hn : n ∈ nodes) : ∃ found name file, h.list r.devfs = .ok found ∧
      (name, .file file) ∈ found ∧ Node.ofPath? (Path.join r.devfs name) = some n := by
  obtain ⟨found, hfound, rfl⟩ := scan_eq_ok_iff.1 hs
  rw [List.mem_mergeSort, List.mem_filterMap] at hn
  obtain ⟨⟨name, e⟩, hmem, hn⟩ := hn
  cases e with
  | file file => exact ⟨found, name, file, hfound, hmem, hn⟩
  | directory => cases hn
  | link target => cases hn

/-- The nodes of a scan were found by their paths. -/
theorem scan_ofPath? {h : Host} {r : Roots} {nodes : List Node} (hs : scan h r = .ok nodes) :
    ∀ n ∈ nodes, Node.ofPath? n.path = some n := by
  intro n hn
  obtain ⟨_, _, _, -, -, hpath⟩ := file_of_scan hs hn
  rwa [(Node.ofPath?_eq_some_iff.1 hpath).2.2]

theorem list_ofPath? {h : Host} {r : Roots} {t : Topology} (ht : list h r = .ok t) {n : Node}
    (hn : t.Has n) : Node.ofPath? n.path = some n := by
  obtain ⟨nodes, hs, hmem⟩ := scan_of_has ht hn
  exact scan_ofPath? hs n hmem

/-- Listed nodes are named, so their units are proper. -/
theorem list_proper {h : Host} {r : Roots} {t : Topology} (ht : list h r = .ok t) {n : Node}
    (hn : t.Has n) : n.id.Proper := Node.ofPath?_proper (list_ofPath? ht hn)

end Discovery
end NpuBroker

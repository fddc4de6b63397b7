import NpuBroker.Proofs.Capacity
import NpuBroker.Proofs.Enumeration

/-!
# Requests for usable units

Two kinds of requests come down to which units are usable. Units that are named are judged one by
one. Units of one PE and whole devices do not overlap one another, so none of them stands in the
way of another that is asked for.

* `Claim.run_find_explicit`: the named nodes that are usable are claimed.
* `find_explicit`: whether a unit is claimed does not depend on what else is named, or where.
* `UnitId.overlaps_eq_false`: different units of a size that cannot nest do not overlap.
* `find_unfused`: a request for such units is answered as long as there are enough of them.
-/
namespace NpuBroker

variable {h : Host} {t : Topology} {s : Locks}

/-! ## Named units -/

namespace Request

theorem check_perm {us vs : List UnitId} (hp : us.Perm vs) (hc : (explicit us).check = .ok ()) :
    (explicit vs).check = .ok () := by
  rw [check_explicit] at hc ⊢
  refine ⟨fun hnil => hc.1 (hp.trans (.of_eq hnil)).eq_nil, hp.nodup_iff.1 hc.2.1, ?_⟩
  refine (hp.pairwise_iff fun {u v} huv => ?_).1 hc.2.2
  rw [UnitId.overlaps_comm, huv]

/-- The names of the units with commas between them. -/
theorem text_explicit (us : List UnitId) :
    (explicit us).text = ",".intercalate (us.map UnitId.name) := by
  have hchars : us.map (String.toList ∘ UnitId.name) = us.map UnitId.chars :=
    List.map_congr_left fun u _ => String.toList_ofList
  have hcomma : ",".toList = [','] := rfl
  rw [String.ext_iff, String.toList_intercalate, List.map_map, hchars, hcomma]
  exact String.toList_ofList

end Request

/-- The names of groups of one node each are those of the units. -/
theorem Claim.intercalate_groupName (nodes : List Node) :
    ",".intercalate ((nodes.map ([·])).map groupName) =
      (Request.explicit (nodes.map Node.id)).text := by
  rw [Request.text_explicit, List.map_map, List.map_map]
  rfl

namespace Plan

variable {usable : Node → Bool}

theorem any_overlaps_eq_false {ns : List Node} {n : Node}
    (hns : ∀ m ∈ ns, m.overlaps n = false) : ns.any (·.overlaps n) = false := by
  simpa using hns

/-- From groups of one each, whatever is usable is picked if none overlaps another. -/
theorem picks?_singletons {ns picked : List Node}
    (hns : ns.Pairwise fun m n => m.overlaps n = false)
    (hpicked : ∀ m ∈ picked, ∀ n ∈ ns, m.overlaps n = false) :
    picks? usable .bestEffort (ns.map ([·])) picked = some (picked ++ ns.filter usable) := by
  induction ns generalizing picked with
  | nil => simp [picks?]
  | cons n ns ih =>
    rw [List.pairwise_cons] at hns
    have hrest : ∀ m ∈ picked, ∀ n ∈ ns, m.overlaps n = false := fun m hm k hk =>
      hpicked m hm k (List.mem_cons_of_mem _ hk)
    have hfree := any_overlaps_eq_false fun m hm => hpicked m hm n List.mem_cons_self
    have hpick : pick? usable picked [n] = if usable n then some n else none := by
      rw [pick?, List.find?_singleton, hfree, Bool.not_false, Bool.and_true]
    rw [List.map_cons, picks?.eq_def, List.filter_cons]
    dsimp only
    rw [hpick]
    cases usable n with
    | false => exact ih hns.2 hrest
    | true =>
      have hboth : ∀ m ∈ picked ++ [n], ∀ k ∈ ns, m.overlaps k = false := by
        rw [List.forall_mem_append, List.forall_mem_singleton]
        exact ⟨hrest, hns.1⟩
      simpa using ih hns.2 hboth

/-- Units that the topology has can be named. -/
theorem exists_named {us : List UnitId} (hu : ∀ u ∈ us, ∃ n, t.Listed n ∧ n.id = u) :
    ∃ nodes : List Node, nodes.map Node.id = us ∧ ∀ n ∈ nodes, named t n.id = .ok n := by
  induction us with
  | nil => exact ⟨[], rfl, by simp⟩
  | cons u us ih =>
    rw [List.forall_mem_cons] at hu
    obtain ⟨⟨n, hn, rfl⟩, hus⟩ := hu
    obtain ⟨nodes, rfl, hnodes⟩ := ih hus
    obtain ⟨m, hnamed, hid⟩ := named_of_listed hn
    refine ⟨m :: nodes, by simp [hid], List.forall_mem_cons.2 ⟨?_, hnodes⟩⟩
    rw [hid, hnamed]

/-- A plan of named nodes comes to those that are usable. -/
theorem select_named {nodes : List Node} (hns : nodes.Pairwise fun m n => m.overlaps n = false) :
    select usable ⟨(Request.explicit (nodes.map Node.id)).text, nodes.map ([·]), .bestEffort⟩ =
      if nodes.filter usable = [] then
        .error (.busy (Request.explicit (nodes.map Node.id)).text)
      else .ok (nodes.filter usable) := by
  have hpicks := @picks?_singletons usable nodes [] hns (by simp)
  rw [List.nil_append] at hpicks
  rw [select, hpicks, Claim.intercalate_groupName]
  cases nodes.filter usable with
  | nil => rfl
  | cons n ns => rfl

end Plan

namespace Claim

/-- Of the named nodes those that are usable are claimed, in the order in which they are named. -/
theorem run_find_explicit {us : List UnitId} (ho : t.Openable h)
    (hu : ∀ u ∈ us, ∃ n, t.Listed n ∧ n.id = u) (hc : (Request.explicit us).check = .ok ()) :
    ∃ nodes : List Node, nodes.map Node.id = us ∧ (∀ n ∈ nodes, t.Has n) ∧
      ((find t (.explicit us)).run h s).1.map (List.map Claim.node) =
        if nodes.filter (t.usable h s) = [] then .error (.busy (Request.explicit us).text)
        else .ok (nodes.filter (t.usable h s)) := by
  obtain ⟨nodes, rfl, hnodes⟩ := Plan.exists_named hu
  have hapart : nodes.Pairwise fun m n => m.overlaps n = false :=
    List.pairwise_map.1 (Request.check_explicit.1 hc).2.2
  have he := Plan.expand_explicit_iff.2 ⟨hc, nodes, rfl, hnodes, rfl⟩
  refine ⟨nodes, rfl, fun n hn => (Plan.named_spec (hnodes n hn)).2.has, ?_⟩
  rw [run_find_eq ho he, Plan.select_named hapart]

/-- The units that an answer holds claims of. -/
def returned (answer : Except Fault (List Claim)) : List UnitId :=
  (answer.toOption.getD []).map fun c => c.node.id

theorem returned_eq (answer : Except Fault (List Claim)) :
    returned answer = ((answer.map (List.map node)).toOption.getD []).map Node.id := by
  cases answer with
  | error f => rfl
  | ok cs => exact (List.map_map (l := cs)).symm

end Claim

/-- The unit has a node that is usable. -/
def Topology.vacant (t : Topology) (h : Host) (s : Locks) (u : UnitId) : Bool :=
  t.any fun d => d.nodes.any fun n => n.id = u ∧ t.usable h s n = true

theorem Topology.vacant_eq (hunique : ∀ m n, t.Has m → t.Has n → m.id = n.id → m = n) {n : Node}
    (hn : t.Has n) : t.vacant h s n.id = t.usable h s n := by
  rw [Bool.eq_iff_iff]
  simp only [vacant, List.any_eq_true, decide_eq_true_eq]
  constructor
  · rintro ⟨d, hd, m, hm, hid, husable⟩
    rwa [hunique m n ⟨d, hd, hm⟩ hn hid] at husable
  · intro husable
    obtain ⟨d, hd, hnd⟩ := hn
    exact ⟨d, hd, n, hnd, rfl, husable⟩

/-- Which of the named units are claimed is a matter of each of them alone. -/
theorem Claim.returned_find {us : List UnitId} (hw : t.WellFormed) (ho : t.Openable h)
    (hunique : ∀ m n, t.Has m → t.Has n → m.id = n.id → m = n)
    (hu : ∀ u ∈ us, ∃ n, t.Has n ∧ n.id = u) (hc : (Request.explicit us).check = .ok ()) :
    returned ((find t (.explicit us)).run h s).1 = us.filter (t.vacant h s) := by
  obtain ⟨nodes, rfl, hnodes, hrun⟩ := @run_find_explicit h t s us ho
    (fun u hmem => (hu u hmem).imp fun n hn => ⟨hw.listed hn.1, hn.2⟩) hc
  have hvacant : (nodes.map Node.id).filter (t.vacant h s) =
      (nodes.filter (t.usable h s)).map Node.id := by
    rw [List.filter_map]
    congr 1
    exact List.filter_congr fun n hn => Topology.vacant_eq hunique (hnodes n hn)
  rw [returned_eq, hrun, hvacant]
  split
  · rename_i hnone
    rw [hnone]
    rfl
  · rfl

/-- **Named units are judged one by one.** A host was listed, its nodes still exist, and different
ones share a file only if they overlap. Whatever is locked, a request for units that the topology
has claims those of them that are usable, in the order in which they are named, and is busy when
none is. Naming the same units in another order orders the claims the same way. Whether a unit is
claimed is the same in every request that names it. -/
theorem find_explicit {h₀ : Host} {r : Roots} {units : List UnitId} (hh : h₀.Named)
    (ht : Discovery.list h₀ r = .ok t)
    (hopens : ∀ n, t.Has n → ∃ file, h.openNode n.path = .ok file)
    (hshares : ∀ m n, t.Has m → t.Has n → m ≠ n → h.openNode m.path = h.openNode n.path →
      m.overlaps n = true)
    (hu : ∀ u ∈ units, ∃ n, t.Has n ∧ n.id = u) (hc : (Request.explicit units).check = .ok ())
    (s : Locks) :
    let answer (us : List UnitId) := ((Claim.find t (.explicit us)).run h s).1
    (∃ nodes : List Node, nodes.map Node.id = units ∧ (∀ n ∈ nodes, t.Has n) ∧
      (answer units).map (List.map Claim.node) =
        if nodes.filter (t.usable h s) = [] then .error (.busy (Request.explicit units).text)
        else .ok (nodes.filter (t.usable h s))) ∧
    (∀ us, us.Perm units →
      Claim.returned (answer us) = us.filter (· ∈ Claim.returned (answer units))) ∧
    ∀ us, (∀ u ∈ us, ∃ n, t.Has n ∧ n.id = u) → (Request.explicit us).check = .ok () →
      ∀ u ∈ units, u ∈ us → (u ∈ Claim.returned (answer us) ↔
        u ∈ Claim.returned (answer units)) := by
  intro answer
  have hw := Discovery.list_wellFormed ht
  have ho : t.Openable h := .of_proper (fun n hn => Discovery.list_proper ht hn) hopens hshares
  have hreturned : ∀ us, (∀ u ∈ us, ∃ n, t.Has n ∧ n.id = u) →
      (Request.explicit us).check = .ok () →
      Claim.returned (answer us) = us.filter (t.vacant h s) := fun us =>
    Claim.returned_find hw ho fun m n hm hn => Discovery.list_unique hh ht hm hn
  have hmem : ∀ u, u ∈ Claim.returned (answer units) ↔ u ∈ units ∧ t.vacant h s u = true := by
    intro u
    rw [hreturned units hu hc, List.mem_filter]
  refine ⟨Claim.run_find_explicit ho (fun u hmem => ?_) hc, fun us hp => ?_,
    fun us hus hcus u hunits humem => ?_⟩
  · obtain ⟨n, hn, hid⟩ := hu u hmem
    exact ⟨n, hw.listed hn, hid⟩
  · rw [hreturned us (fun u humem => hu u (hp.subset humem)) (Request.check_perm hp.symm hc)]
    refine List.filter_congr fun u humem => ?_
    rw [Bool.eq_iff_iff, decide_eq_true_eq, hmem, and_iff_right (hp.subset humem)]
  · rw [hreturned us hus hcus, hmem, List.mem_filter, and_iff_right humem, and_iff_right hunits]

/-- With the second range locked, of the second and the third the third is claimed. -/
theorem find_explicit_nested :
    let second : UnitId := ⟨0, some (.fused 1 2)⟩
    let third : UnitId := ⟨0, some (.fused 3 4)⟩
    nestedHost.Named ∧ Discovery.list nestedHost .standard = .ok nestedTopology ∧
      (∀ u ∈ [second, third], ∃ n, nestedTopology.Has n ∧ n.id = u) ∧
      (Request.explicit [second, third]).check = .ok () ∧
      ((Claim.find nestedTopology (.explicit [second, third])).run nestedHost [1]).1.map
        (List.map Claim.node) = .ok [⟨third, "/dev/npu0pe3-4"⟩] ∧
      Claim.returned ((Claim.find nestedTopology (.explicit [third, second])).run nestedHost
        [1]).1 = [third] := by
  intro second third
  have hh : nestedHost.Named := by decide
  have hopens : ∀ n, nestedTopology.Has n → ∃ file, nestedHost.openNode n.path = .ok file :=
    fun n hn => ⟨_, nested_openNode n (nested_has.1 hn)⟩
  have hshares : ∀ m n, nestedTopology.Has m → nestedTopology.Has n → m ≠ n →
      nestedHost.openNode m.path = nestedHost.openNode n.path → m.overlaps n = true :=
    fun m n hm hn hne he => absurd (nested_idle.distinct m n hm hn he) hne
  have hu : ∀ u ∈ [second, third], ∃ n, nestedTopology.Has n ∧ n.id = u := by
    simp only [nested_has]
    decide
  have hc : (Request.explicit [second, third]).check = .ok () := by decide
  obtain ⟨⟨nodes, hids, hnodes, hrun⟩, hperm, -⟩ :=
    find_explicit hh nested_list hopens hshares hu hc [1]
  obtain rfl : nodes = [second, third].map fun u => ⟨u, Path.join "/dev" u.name⟩ := by
    rw [← hids, List.map_map]
    refine (List.map_id nodes).symm.trans (List.map_congr_left fun n hn => ?_)
    have hpath := Discovery.list_path hh nested_list (hnodes n hn)
    exact congrArg (Node.mk n.id) hpath
  have hfree : ([second, third].map fun u => (⟨u, Path.join "/dev" u.name⟩ : Node)).filter
      (nestedTopology.usable nestedHost [1]) = [⟨third, "/dev/npu0pe3-4"⟩] := by
    rw [List.filter_congr fun n hn => nested_usable (nested_has.1 (hnodes n hn))]
    decide
  rw [hfree] at hrun
  have hreturned : Claim.returned ((Claim.find nestedTopology (.explicit [second, third])).run
      nestedHost [1]).1 = [third] := by
    rw [Claim.returned_eq, hrun]
    rfl
  have hswapped := hperm [third, second] (.swap _ _ _)
  rw [hreturned] at hswapped
  exact ⟨hh, nested_list, hu, hc, hrun, hswapped⟩

/-! ## Units that cannot nest -/

/-- Different units of one PE, and whole devices, do not overlap. -/
theorem UnitId.overlaps_eq_false {u v : UnitId} (hm : u.mode = v.mode) (hfused : u.mode ≠ .fused)
    (hne : u ≠ v) : u.overlaps v = false := by
  obtain ⟨d, a⟩ := u
  obtain ⟨e, b⟩ := v
  by_contra hover
  rw [Bool.not_eq_false, overlaps, Bool.and_eq_true, beq_iff_eq] at hover
  obtain ⟨rfl, hover⟩ := hover
  cases a with
  | none =>
    cases b with
    | none => exact hne rfl
    | some b => cases b <;> cases hm
  | some a =>
    cases b with
    | none => cases a <;> cases hm
    | some b =>
      cases a with
      | fused first last => exact hfused rfl
      | single pe =>
        cases b with
        | fused first last => cases hm
        | single pe' =>
          have hover : (decide (pe ≤ pe') && decide (pe' ≤ pe)) = true := hover
          rw [Bool.and_eq_true, decide_eq_true_eq, decide_eq_true_eq] at hover
          obtain rfl := Fin.le_antisymm hover.1 hover.2
          exact hne rfl

namespace Plan

theorem disjointFrom_eq {taken ns : List Node}
    (hp : (taken ++ ns).Pairwise fun m n => m.overlaps n = false) :
    disjointFrom taken ns = taken ++ ns := by
  induction ns generalizing taken with
  | nil => simp [disjointFrom]
  | cons n ns ih =>
    have hfree := any_overlaps_eq_false fun m hm =>
      (List.pairwise_append.1 hp).2.2 m hm n List.mem_cons_self
    rw [disjointFrom_cons, hfree, if_neg Bool.false_ne_true]
    have happ : taken ++ n :: ns = (taken ++ [n]) ++ ns := by simp
    rw [happ] at hp ⊢
    exact ih hp

/-- A scan takes all nodes when none overlaps another. -/
theorem disjoint_eq_self {ns : List Node} (hp : ns.Pairwise fun m n => m.overlaps n = false) :
    disjoint ns = ns :=
  @disjointFrom_eq [] ns hp

end Plan

/-- **Single PEs and whole devices.** A host was listed, its nodes still exist, and different ones
share a file only if they overlap. Whatever is locked, a request for single PEs or whole devices
that was expanded claims the first so many units of its size and architecture that are usable, by
device and by PE, when there are so many, and is busy when there are not. -/
theorem find_unfused {h₀ : Host} {r : Roots} {arch : Arch} {mode : Mode} {count : Index} {p : Plan}
    (hh : h₀.Named) (hd : h₀.Distinct) (ht : Discovery.list h₀ r = .ok t)
    (hopens : ∀ n, t.Has n → ∃ file, h.openNode n.path = .ok file)
    (hshares : ∀ m n, t.Has m → t.Has n → m ≠ n → h.openNode m.path = h.openNode n.path →
      m.overlaps n = true)
    (hmode : mode ≠ .fused) (he : Plan.expand (.structured arch mode count) t = .ok p)
    (s : Locks) :
    let units := (t.flatMap Device.nodes).filter (t.Offers arch mode)
    let free := units.filter (t.usable h s)
    (units.Pairwise fun m n => m.id.rank < n.id.rank) ∧
      ((Claim.find t (.structured arch mode count)).run h s).1.map (List.map Claim.node) =
        if count.val ≤ free.length then .ok (free.take count)
        else .error (.busy (Request.structured arch mode count).text) := by
  intro units free
  have hw := Discovery.list_wellFormed ht
  have ho : t.Openable h := .of_proper (fun n hn => Discovery.list_proper ht hn) hopens hshares
  have hunits : Plan.candidates t arch mode = units := Plan.candidates_eq_filter hw
  have hsorted : units.Pairwise fun m n => m.id.rank < n.id.rank := by
    rw [← hunits]
    refine Plan.candidates_pairwise hw
      (fun d hdt _ => (Discovery.list_ascending hh hd ht d hdt).filter _) fun m n hlt => ?_
    exact List.cons_lt_cons_iff.2 (.inl hlt)
  have hsize : ∀ n ∈ units, n.id.mode = mode := by
    intro n hn
    rw [← hunits, Plan.mem_candidates] at hn
    obtain ⟨-, -, -, -, hm⟩ := hn
    exact hm
  -- units of this size are apart as soon as they are different
  have hapart : units.Pairwise fun m n => m.overlaps n = false := by
    refine hsorted.imp_of_mem fun {m n} hm hn hlt => ?_
    refine UnitId.overlaps_eq_false ((hsize m hm).trans (hsize n hn).symm) ?_ ?_
    · rwa [hsize m hm]
    · intro hid
      rw [hid] at hlt
      exact List.lt_irrefl _ hlt
  have hfree : Plan.disjoint ((Plan.candidates t arch mode).filter (t.usable h s)) = free := by
    rw [hunits]
    exact Plan.disjoint_eq_self (hapart.filter _)
  refine ⟨hsorted, ?_⟩
  rcases Claim.find_structured ho he hfree with ⟨hle, cs, hr, hcs⟩ | ⟨hlt, hr⟩
  · rw [hr, if_pos hle, ← hcs]
    rfl
  · rw [hr, if_neg (Nat.not_le.2 hlt)]
    rfl

/-- The file of each node. -/
def mixedFile (n : Node) : FileId :=
  if n.path = "/dev/npu0" then 3 else if n.path = "/dev/npu0pe1" then 1
  else if n.path = "/dev/npu0pe2" then 6 else 7

theorem mixed_openNode : ∀ n ∈ mixedNodes, mixedHost.openNode n.path = .ok (mixedFile n) := by
  have hwhole : mixedHost.openNode "/dev/npu0" = .ok 3 :=
    Host.openNode_of_straight? (p := ["dev", "npu0"]) (by decide)
  have h1 : mixedHost.openNode "/dev/npu0pe1" = .ok 1 :=
    Host.openNode_of_straight? (p := ["dev", "npu0pe1"]) (by decide)
  have h2 : mixedHost.openNode "/dev/npu0pe2" = .ok 6 :=
    Host.openNode_of_straight? (p := ["dev", "npu0pe2"]) (by decide)
  have h3 : mixedHost.openNode "/dev/npu0pe3" = .ok 7 :=
    Host.openNode_of_straight? (p := ["dev", "npu0pe3"]) (by decide)
  simp [mixedNodes_eq, mixedFile, hwhole, h1, h2, h3]

theorem mixed_has {n : Node} : mixedTopology.Has n ↔ n ∈ mixedNodes := by
  simp [Topology.Has, mixedTopology_eq]

theorem mixed_candidates : Plan.candidates mixedTopology .rngd .single = mixedNodes.tail := by
  rw [mixedTopology_eq]
  decide

theorem mixed_expand : ∃ p, Plan.expand (.structured .rngd .single 2) mixedTopology = .ok p := by
  have havailable : Plan.available mixedNodes.tail = 3 := by
    simp +decide [Plan.available, mixedNodes_eq, List.mergeSort]
  refine ⟨_, Plan.expand_structured_iff.2 ⟨by decide, ?_, rfl⟩⟩
  rw [mixed_candidates, havailable]
  decide

/-- A node is usable when no file of a node that overlaps it is locked. -/
theorem mixed_usable {s : Locks} {n : Node} (hn : n ∈ mixedNodes) :
    mixedTopology.usable mixedHost s n =
      mixedNodes.all fun m => !m.overlaps n || decide (mixedFile m ∉ s) := by
  have hdevice : ∀ n ∈ mixedNodes,
      mixedTopology.device? n.id.device = some ⟨0, .rngd, mixedNodes⟩ := by
    rw [mixedTopology_eq]
    decide
  exact Topology.usable_eq_all (hdevice n hn) hn
    (Discovery.list_proper mixed_list (mixed_has.2 hn)).overlaps_self mixed_openNode

/-- Two single PEs are asked for. With the first locked the second and the third are claimed, in
order; with the file of the whole device locked none is usable. -/
theorem find_unfused_mixed :
    mixedHost.Named ∧ mixedHost.Distinct ∧
      Discovery.list mixedHost .standard = .ok mixedTopology ∧
      (∃ p, Plan.expand (.structured .rngd .single 2) mixedTopology = .ok p) ∧
      (∀ n ∈ mixedNodes, mixedHost.openNode n.path = .ok (mixedFile n)) ∧
      ((Claim.find mixedTopology (.structured .rngd .single 2)).run mixedHost
        [mixedFile ⟨⟨0, some (.single 1)⟩, "/dev/npu0pe1"⟩]).1.map (List.map Claim.node) =
          .ok [⟨⟨0, some (.single 2)⟩, "/dev/npu0pe2"⟩,
            ⟨⟨0, some (.single 3)⟩, "/dev/npu0pe3"⟩] ∧
      ((Claim.find mixedTopology (.structured .rngd .single 2)).run mixedHost
        [mixedFile ⟨⟨0, none⟩, "/dev/npu0"⟩]).1.map (List.map Claim.node) =
          .error (.busy "rngd(single)*2") := by
  have hh : mixedHost.Named := by decide
  have hd : mixedHost.Distinct := by decide
  have hopens : ∀ n, mixedTopology.Has n → ∃ file, mixedHost.openNode n.path = .ok file :=
    fun n hn => ⟨_, mixed_openNode n (mixed_has.1 hn)⟩
  have hshares : ∀ m n, mixedTopology.Has m → mixedTopology.Has n → m ≠ n →
      mixedHost.openNode m.path = mixedHost.openNode n.path → m.overlaps n = true := by
    have hown : ∀ m ∈ mixedNodes, ∀ n ∈ mixedNodes, mixedFile m = mixedFile n → m = n := by
      decide
    intro m n hm hn hne he
    rw [mixed_has] at hm hn
    rw [mixed_openNode m hm, mixed_openNode n hn, Except.ok.injEq] at he
    exact absurd (hown m hm n hn he) hne
  obtain ⟨p, he⟩ := mixed_expand
  have hunits : (mixedTopology.flatMap Device.nodes).filter (mixedTopology.Offers .rngd .single) =
      mixedNodes.tail :=
    (Plan.candidates_eq_filter (Discovery.list_wellFormed mixed_list)).symm.trans mixed_candidates
  have hfree : ∀ s : Locks, mixedNodes.tail.filter (mixedTopology.usable mixedHost s) =
      mixedNodes.tail.filter fun n =>
        mixedNodes.all fun m => !m.overlaps n || decide (mixedFile m ∉ s) :=
    fun s => List.filter_congr fun n hn => mixed_usable (List.mem_of_mem_tail hn)
  have hfirst := (find_unfused hh hd mixed_list hopens hshares (by decide) he
    [mixedFile ⟨⟨0, some (.single 1)⟩, "/dev/npu0pe1"⟩]).2
  have hwhole := (find_unfused hh hd mixed_list hopens hshares (by decide) he
    [mixedFile ⟨⟨0, none⟩, "/dev/npu0"⟩]).2
  rw [hunits, hfree] at hfirst hwhole
  exact ⟨hh, hd, mixed_list, ⟨p, he⟩, mixed_openNode, hfirst.trans (by decide),
    hwhole.trans (by decide)⟩

end NpuBroker

import NpuBroker.Proofs.Enumeration
import Mathlib.Data.List.Perm.Basic

/-!
# Nodes in groups

A topology is put together from nodes in any order. One pass puts each node behind those of its
device; a second one asks for the architecture of each device, in order, and keeps the nodes that
fit on it. No node is lost on the way, none is doubled, and none gets to another device.

* `Topology.put_cut`: where a node is put among groups, and that all others stay.
* `Topology.groups_eq`: the groups are those of the devices that are named, each with its nodes.
* `Topology.ofNodesM_groups`: going over the groups makes the topology.
* `Topology.ofNodesM_partition`: what is asked, which devices there are, and which nodes each has.
-/
namespace NpuBroker.Topology

/-- A device that nodes name, and these nodes. -/
abbrev Group := Index × List Node

/-! ## The first pass -/

/-- Puts a node behind those of its device, among groups that ascend. -/
def put (n : Node) : List Group → List Group
  | [] => [(n.id.device, [n])]
  | g :: gs =>
    if n.id.device < g.1 then (n.id.device, [n]) :: g :: gs
    else if n.id.device = g.1 then (g.1, g.2 ++ [n]) :: gs
    else g :: put n gs

/-- All nodes in groups, one after the other. -/
def groups (nodes : List Node) : List Group := nodes.foldl (fun gs n => put n gs) []

theorem groups_concat (nodes : List Node) (n : Node) :
    groups (nodes ++ [n]) = put n (groups nodes) := by
  simp [groups]

/-- One node more is in the groups, and no other. -/
theorem put_perm (n : Node) (gs : List Group) :
    ((put n gs).flatMap Prod.snd).Perm (n :: gs.flatMap Prod.snd) := by
  induction gs with
  | nil => exact List.Perm.refl _
  | cons g gs ih =>
    unfold put
    split
    · exact List.Perm.refl _
    · split
      · simp
      · rw [List.flatMap_cons, List.flatMap_cons]
        exact (ih.append_left g.2).trans List.perm_middle

/-- Every node is in one group. -/
theorem groups_perm (nodes : List Node) : ((groups nodes).flatMap Prod.snd).Perm nodes := by
  induction nodes using List.reverseRecOn with
  | nil => exact List.Perm.refl _
  | append_singleton nodes n ih =>
    rw [groups_concat]
    exact (put_perm n _).trans ((ih.cons n).trans (List.perm_append_singleton n nodes).symm)

/-- A node is put behind the group of its device, or between groups if there is none. -/
theorem put_cut (n : Node) {gs : List Group} (hgs : gs.Pairwise fun g g' => g.1 < g'.1) :
    ∃ front old back, put n gs = front ++ (n.id.device, old ++ [n]) :: back ∧
      (∀ g ∈ front, g.1 < n.id.device) ∧ (∀ g ∈ back, n.id.device < g.1) ∧
      (gs = front ++ (n.id.device, old) :: back ∨ gs = front ++ back ∧ old = []) := by
  induction gs with
  | nil => exact ⟨[], [], [], rfl, by simp, by simp, .inr ⟨rfl, rfl⟩⟩
  | cons g gs ih =>
    obtain ⟨hhead, htail⟩ := List.pairwise_cons.1 hgs
    unfold put
    split
    · rename_i hlt
      refine ⟨[], [], g :: gs, rfl, by simp, ?_, .inr ⟨rfl, rfl⟩⟩
      rw [List.forall_mem_cons]
      exact ⟨hlt, fun g' hg' => Fin.lt_trans hlt (hhead g' hg')⟩
    · rename_i hnot
      split
      · rename_i heq
        exact ⟨[], g.2, gs, by simp [heq], by simp, heq ▸ hhead, .inl (by simp [heq])⟩
      · rename_i hne
        obtain ⟨front, old, back, hput, hfront, hback, hcut⟩ := ih htail
        have hlt : g.1 < n.id.device :=
          Nat.lt_of_le_of_ne (Fin.not_lt.1 hnot) fun he => hne (Fin.ext he.symm)
        refine ⟨g :: front, old, back, by rw [hput, List.cons_append], ?_, hback, ?_⟩
        · exact List.forall_mem_cons.2 ⟨hlt, hfront⟩
        · rcases hcut with rfl | ⟨rfl, hold⟩
          · exact .inl rfl
          · exact .inr ⟨rfl, hold⟩

/-- What the groups are once these nodes are in them. -/
structure Grouped (gs : List Group) (nodes : List Node) : Prop where
  ascending : gs.Pairwise fun g g' => g.1 < g'.1
  named : ∀ i, (∃ g ∈ gs, g.1 = i) ↔ ∃ n ∈ nodes, n.id.device = i
  own : ∀ g ∈ gs, g.2 = nodes.filter fun n => n.id.device = g.1

theorem Grouped.add {gs : List Group} {nodes : List Node} (hg : Grouped gs nodes) (n : Node) :
    Grouped (put n gs) (nodes ++ [n]) := by
  obtain ⟨front, old, back, hput, hfront, hback, hcut⟩ := put_cut n hg.ascending
  have hold : old = nodes.filter fun m => m.id.device = n.id.device := by
    rcases hcut with rfl | ⟨rfl, rfl⟩
    · exact hg.own (n.id.device, old) (by simp)
    · -- without a group of the device none of the nodes before is of it
      refine (List.filter_eq_nil_iff.2 fun m hm hdevice => ?_).symm
      obtain ⟨g, hmem, hkey⟩ := (hg.named m.id.device).2 ⟨m, hm, rfl⟩
      rw [← hkey, decide_eq_true_eq] at hdevice
      rcases List.mem_append.1 hmem with hmem | hmem
      · exact absurd hdevice (Fin.ne_of_lt (hfront g hmem))
      · exact absurd hdevice.symm (Fin.ne_of_lt (hback g hmem))
  have hother : ∀ g, g.1 ≠ n.id.device → (g ∈ put n gs ↔ g ∈ gs) := by
    intro g hne
    have hneq : ∀ ns, g ≠ (n.id.device, ns) := fun ns he => hne (congrArg Prod.fst he)
    rw [hput]
    rcases hcut with rfl | ⟨rfl, -⟩ <;> simp [hneq]
  constructor
  case ascending =>
    have hsub : (front ++ back).Sublist gs := by
      rcases hcut with rfl | ⟨rfl, -⟩
      · exact (List.sublist_cons_self _ _).append_left front
      · exact List.Sublist.refl _
    obtain ⟨ha, hb, hab⟩ := List.pairwise_append.1 (hg.ascending.sublist hsub)
    rw [hput]
    refine List.pairwise_append.2 ⟨ha, List.pairwise_cons.2 ⟨hback, hb⟩, fun g hmem => ?_⟩
    exact List.forall_mem_cons.2 ⟨hfront g hmem, hab g hmem⟩
  case named =>
    intro i
    by_cases hi : i = n.id.device
    · subst hi
      exact iff_of_true ⟨(n.id.device, old ++ [n]), by simp [hput], rfl⟩ ⟨n, by simp, rfl⟩
    · have hgroups : (∃ g ∈ put n gs, g.1 = i) ↔ ∃ g ∈ gs, g.1 = i :=
        exists_congr fun g => and_congr_left fun hkey => hother g (hkey ▸ hi)
      rw [hgroups, hg.named i]
      simp [List.mem_append, or_and_right, exists_or, Ne.symm hi]
  case own =>
    intro g hmem
    rw [List.filter_append]
    by_cases hi : g.1 = n.id.device
    · rw [hput] at hmem
      have hmid : g = (n.id.device, old ++ [n]) := by
        rcases List.mem_append.1 hmem with hmem | hmem
        · exact absurd hi (Fin.ne_of_lt (hfront g hmem))
        · refine (List.mem_cons.1 hmem).resolve_right fun hmem => ?_
          exact absurd hi.symm (Fin.ne_of_lt (hback g hmem))
      simp [hmid, hold]
    · rw [hg.own g ((hother g hi).1 hmem)]
      simp [Ne.symm hi]

theorem grouped_groups (nodes : List Node) : Grouped (groups nodes) nodes := by
  induction nodes using List.reverseRecOn with
  | nil => exact ⟨List.Pairwise.nil, by simp [groups], by simp [groups]⟩
  | append_singleton nodes n ih =>
    rw [groups_concat]
    exact ih.add n

theorem Grouped.keys_eq {gs : List Group} {nodes : List Node} (hg : Grouped gs nodes) :
    gs.map Prod.fst = indices nodes := by
  have hasc : (gs.map Prod.fst).Pairwise (· < ·) := List.pairwise_map.2 hg.ascending
  have hasc' := indices_ascending nodes
  have hperm : (gs.map Prod.fst).Perm (indices nodes) := by
    refine (List.perm_ext_iff_of_nodup (hasc.imp fun h => Fin.ne_of_lt h)
      (hasc'.imp fun h => Fin.ne_of_lt h)).2 fun i => ?_
    rw [mem_indices_iff, ← hg.named i, List.mem_map]
  exact hperm.eq_of_pairwise (fun i j _ _ hij hji => absurd hij (Fin.lt_asymm hji)) hasc hasc'

/-- The groups are those of the devices that are named, ascending, each with its nodes in order. -/
theorem groups_eq (nodes : List Node) :
    groups nodes = (indices nodes).map fun i => (i, nodes.filter fun n => n.id.device = i) := by
  have hg := grouped_groups nodes
  rw [← hg.keys_eq, List.map_map]
  exact (List.map_id _).symm.trans (List.map_congr_left fun g hmem => Prod.ext rfl (hg.own g hmem))

/-! ## The second pass -/

/-- The device of a group, with those of the nodes whose PEs it has, in order. -/
def ofGroup (g : Group) (arch : Arch) : Device where
  index := g.1
  arch := arch
  nodes := (g.2.filter fun n => n.pes arch.pes ⊆ arch.pes).mergeSort Node.before

theorem deviceOf_eq (nodes : List Node) (i : Index) (arch : Arch) :
    deviceOf nodes i arch = ofGroup (i, nodes.filter fun n => n.id.device = i) arch := by
  simp [deviceOf, ofGroup, List.filter_filter, Bool.and_comm]

section

variable {m : Type → Type} [Monad m]

/-- Asks for the architecture of the device of a group. -/
def deviceM (identify : Index → m (Except Fault Arch)) (g : Group) : m (Option Device) :=
  (fun answer => answer.toOption.map (ofGroup g)) <$> identify g.1

/-- Going over the groups makes the topology, whatever asking for an architecture does. -/
theorem ofNodesM_groups [LawfulMonad m] (nodes : List Node)
    (identify : Index → m (Except Fault Arch)) :
    ofNodesM nodes identify = (groups nodes).filterMapM (deviceM identify) := by
  rw [ofNodesM, groups_eq]
  induction indices nodes with
  | nil => rfl
  | cons i is ih =>
    rw [List.map_cons, List.filterMapM_cons, List.filterMapM_cons, ih, deviceM,
      map_eq_pure_bind, bind_assoc, bind_assoc]
    refine bind_congr fun answer => ?_
    cases answer with
    | error f => simp [Except.toOption]
    | ok arch => simp [Except.toOption, deviceOf_eq]

end

/-- What a device is asked for, and the answer. -/
abbrev Question := Index × Except Fault Arch

/-- `identify`, with a record of what was asked and answered. -/
def recorded {σ : Type} (identify : Index → StateM σ (Except Fault Arch)) (i : Index) :
    StateM (σ × List Question) (Except Fault Arch) := fun w =>
  let a := (identify i).run w.1
  (a.1, a.2, w.2 ++ [(i, a.1)])

/-- A group whose device has been asked for. -/
structure Round where
  group : Group
  answer : Except Fault Arch

namespace Round

def question (q : Round) : Question := (q.group.1, q.answer)

/-- The device, if it has an architecture. -/
def device? (q : Round) : Option Device := q.answer.toOption.map (ofGroup q.group)

end Round

theorem run_recorded {σ : Type} (identify : Index → StateM σ (Except Fault Arch)) (i : Index)
    (s : σ) (asked : List Question) : (recorded identify i).run (s, asked) =
      (((identify i).run s).1, ((identify i).run s).2,
        asked ++ [(i, ((identify i).run s).1)]) := rfl

/-- Going over one group more: its device is added, if it has an architecture. -/
theorem run_filterMapM_cons {σ α β : Type} {f : α → StateM σ (Option β)} {a : α} {b : Option β}
    {s s₁ : σ} (ha : (f a).run s = (b, s₁)) (as : List α) :
    ((a :: as).filterMapM f).run s =
      (b.toList ++ ((as.filterMapM f).run s₁).1, ((as.filterMapM f).run s₁).2) := by
  rw [List.filterMapM_cons, StateT.run_bind, ha]
  cases b with
  | none => rfl
  | some b => rfl

/-- The groups are asked for one after the other, each once, and nothing else is asked. -/
theorem run_rounds {σ : Type} (identify : Index → StateM σ (Except Fault Arch)) (gs : List Group)
    (s : σ) (asked : List Question) :
    ∃ (rounds : List Round) (s' : σ), rounds.map Round.group = gs ∧
      (gs.filterMapM (deviceM identify)).run s = (rounds.filterMap Round.device?, s') ∧
      (gs.filterMapM (deviceM (recorded identify))).run (s, asked) =
        (rounds.filterMap Round.device?, s', asked ++ rounds.map Round.question) := by
  induction gs generalizing s asked with
  | nil => exact ⟨[], s, rfl, rfl, by rw [List.map_nil, List.append_nil]; rfl⟩
  | cons g gs ih =>
    cases ha : (identify g.1).run s with
    | mk answer s₁ =>
    obtain ⟨rounds, s', hgroups, hrun, hrecorded⟩ := ih s₁ (asked ++ [(g.1, answer)])
    have hask : (deviceM identify g).run s = (answer.toOption.map (ofGroup g), s₁) := by
      rw [deviceM, StateT.run_map, ha]
      rfl
    have hrecord : (deviceM (recorded identify) g).run (s, asked) =
        (answer.toOption.map (ofGroup g), s₁, asked ++ [(g.1, answer)]) := by
      rw [deviceM, StateT.run_map, run_recorded, ha]
      rfl
    have hdevices : (answer.toOption.map (ofGroup g)).toList ++ rounds.filterMap Round.device? =
        (⟨g, answer⟩ :: rounds).filterMap Round.device? := by
      rw [List.filterMap_cons, Round.device?]
      cases answer with
      | error f => rfl
      | ok arch => rfl
    refine ⟨⟨g, answer⟩ :: rounds, s', by rw [List.map_cons, hgroups], ?_, ?_⟩
    · rw [run_filterMapM_cons hask, hrun, hdevices]
    · rw [run_filterMapM_cons hrecord, hrecorded, hdevices, List.map_cons, List.append_assoc]
      rfl

/-! ## Where each node is -/

/-- Whether the device of the node has been identified and the unit fits on it. -/
def hasPlace (asked : List Question) (n : Node) : Bool :=
  match asked.lookup n.id.device with
  | some (.ok arch) => n.id.FitsOn arch
  | _ => false

/-- The nodes of a group that stay are those that have a place. -/
theorem Round.nodes_perm {asked : List Question} {q : Round}
    (hq : asked.lookup q.group.1 = some q.answer)
    (hown : ∀ n ∈ q.group.2, n.id.device = q.group.1) :
    (q.device?.toList.flatMap Device.nodes).Perm (q.group.2.filter (hasPlace asked)) := by
  have hanswer : ∀ n ∈ q.group.2, asked.lookup n.id.device = some q.answer := fun n hn => by
    rw [hown n hn, hq]
  rw [Round.device?]
  cases ha : q.answer with
  | error f =>
    have hnone : ∀ n ∈ q.group.2, hasPlace asked n = false := fun n hn => by
      rw [hasPlace, hanswer n hn, ha]
    simp [Except.toOption, List.filter_congr hnone]
  | ok arch =>
    have hfits : ∀ n ∈ q.group.2, hasPlace asked n = decide (n.pes arch.pes ⊆ arch.pes) := by
      intro n hn
      rw [hasPlace, hanswer n hn, ha]
      exact decide_eq_decide.2 UnitId.pes_subset_iff.symm
    rw [List.filter_congr hfits]
    simpa [Except.toOption, ofGroup] using List.mergeSort_perm _ _

theorem Round.flatMap_nodes_perm {asked : List Question} {rounds : List Round}
    (hq : ∀ q ∈ rounds, asked.lookup q.group.1 = some q.answer)
    (hown : ∀ q ∈ rounds, ∀ n ∈ q.group.2, n.id.device = q.group.1) :
    ((rounds.filterMap Round.device?).flatMap Device.nodes).Perm
      ((rounds.flatMap fun q => q.group.2).filter (hasPlace asked)) := by
  rw [List.filterMap_eq_flatMap_toList, List.flatMap_assoc, List.filter_flatMap]
  exact List.Perm.flatMap_left rounds fun q hmem => Round.nodes_perm (hq q hmem) (hown q hmem)

/-- A device has nodes of its own group alone, in order. -/
theorem Round.nodes_of_device {q : Round} {d : Device} (hd : q.device? = some d)
    (hown : ∀ n ∈ q.group.2, n.id.device = q.group.1) :
    (∀ n ∈ d.nodes, n.id.device = d.index) ∧
      d.nodes.Pairwise fun m n => m.before n = true := by
  obtain ⟨arch, -, rfl⟩ := Option.map_eq_some_iff.1 hd
  refine ⟨fun n hn => ?_, Node.pairwise_before _⟩
  rw [ofGroup, List.mem_mergeSort, List.mem_filter] at hn
  exact hown n hn.1

/-- The devices are those for which an architecture is answered, in the order of the questions. -/
theorem Round.devices_eq (rounds : List Round) :
    (rounds.filterMap Round.device?).map (fun d => (d.index, Except.ok d.arch)) =
      (rounds.map Round.question).filter fun q => q.2.toBool := by
  induction rounds with
  | nil => rfl
  | cons q rounds ih =>
    obtain ⟨g, answer⟩ := q
    cases answer with
    | error f => exact ih
    | ok arch => exact congrArg (List.cons _) ih

end NpuBroker.Topology

import NpuBroker.Proofs.Claim.Selection
import NpuBroker.Proofs.Enumeration
import Mathlib.Data.List.Find

/-!
# The report of a device

The nodes of a device are probed one after another, and each that is held takes the PEs that it
covers and nobody took before. So a PE goes to the first node in order that is locked and covers
it, however many others do, and what is left over is available. A node that has vanished takes
nothing.

* `Device.heldThrough?`: the node that a PE goes to, said without probes.
* `Occupancy.mark_report`, `Occupancy.run_probe_eq`: one mark, and the probes of a run of nodes.
* `Occupancy.run_ofDevice_eq`: the whole report.
* `Occupancy.ofDevice_exact`: the report of a listed device.
-/
namespace NpuBroker

/-! ## Nodes that cover a PE -/

namespace Node

variable {n : Node} {h : Host} {l : Locks}

/-- The node is a file, or there is nothing any more where it was. -/
def OpenOrGone (h : Host) (n : Node) : Prop :=
  (∃ file, h.openNode n.path = .ok file) ∨ h.openNode n.path = .error .notFound

theorem OpenOrGone.heldIn_eq (ho : n.OpenOrGone h) : n.heldIn h l = .ok (n.lockedIn h l) := by
  rcases ho with ⟨file, ho⟩ | ho
  · rw [heldIn_of_open ho, lockedIn_of_open ho]
  · simp [heldIn, lockedIn, ho]

/-- The PE is one of the unit; a whole device has all of them. -/
def covers (n : Node) (pe : Index) : Bool :=
  match n.id.span with
  | none => true
  | some s => s.contains pe

/-- Of the PEs that are present a node holds those that it covers. -/
theorem mem_pes_iff {present : List Index} {pe : Index} (hpe : pe ∈ present) :
    pe ∈ n.pes present ↔ n.covers pe = true := by
  unfold pes covers
  cases n.id.span with
  | none => simp [hpe]
  | some s => exact Span.mem_indices_iff

end Node

/-- The node that a PE is held through: the first in order that is locked and covers it. -/
def Device.heldThrough? (d : Device) (h : Host) (s : Locks) (pe : Index) : Option Node :=
  d.nodes.find? fun n => n.lockedIn h s && n.covers pe

/-- The state of a PE that is held through this node, or through none. -/
def PeState.through : Option Node → PeState
  | none => .available
  | some n => .occupied n.fileName

@[simp] theorem PeState.through_eq_available_iff {holder : Option Node} :
    through holder = .available ↔ holder = none := by
  cases holder <;> simp [through]

variable {h : Host} {t : Topology} {d : Device} {s : Locks}

namespace Occupancy

/-! ## Probes -/

/-- The report in which each PE is held through a node of its own, or through none. -/
def report (d : Device) (holder : Index → Option Node) : Occupancy :=
  d.pes.map fun pe => (pe, .through (holder pe))

theorem idle_eq (d : Device) : idle d = report d fun _ => none := rfl

/-- A mark leaves the PEs that are taken to those who have them. -/
theorem mark_report (n : Node) (holder : Index → Option Node) :
    mark d n (report d holder) =
      report d fun pe => (holder pe).or (if n.covers pe then some n else none) := by
  unfold mark report
  rw [List.map_map]
  refine List.map_congr_left fun pe hpe => ?_
  simp only [Function.comp_apply, PeState.through_eq_available_iff, Node.mem_pes_iff hpe]
  cases holder pe with
  | some m => simp
  | none => cases n.covers pe <;> simp [PeState.through]

/-- Probes give what is still available to the first node that is held and covers it. -/
theorem run_probe_eq {ns : List Node} (hns : ∀ n ∈ ns, n.heldIn h s = .ok (n.lockedIn h s))
    (holder : Index → Option Node) :
    ((probe d ns (report d holder)).run h s).1 = .ok (report d fun pe =>
      (holder pe).or (ns.find? fun n => n.lockedIn h s && n.covers pe)) := by
  induction ns generalizing holder with
  | nil => simp [probe]
  | cons n ns ih =>
    rw [List.forall_mem_cons] at hns
    have ih := ih hns.2
    simp only [probe, Attempt.run_bind, Claim.run_held, hns.1, List.find?_cons]
    cases n.lockedIn h s with
    | false => simpa using ih holder
    | true =>
      dsimp only
      rw [mark_report, ih]
      congr 2
      funext pe
      rw [Option.or_assoc]
      cases n.covers pe <;> rfl

/-- Every PE of the device is reported as held through the first node that is locked and covers
it. -/
theorem run_ofDevice_eq (hd : ∀ n ∈ d.nodes, n.OpenOrGone h) (s : Locks) :
    ((ofDevice d).run h s).1 = .ok (report d (d.heldThrough? h s)) := by
  rw [ofDevice, idle_eq, run_probe_eq fun n hn => (hd n hn).heldIn_eq]
  simp only [Option.none_or]
  rfl

theorem lookup_report {holder : Index → Option Node} {pe : Index} (hpe : pe ∈ d.pes) :
    (report d holder).lookup pe = some (.through (holder pe)) :=
  List.lookup_graph _ hpe

end Occupancy

/-! ## Listed devices -/

/-- The PEs of a device are the numbers up to how many it has. -/
theorem Arch.pes_eq_range (a : Arch) : a.pes.map Fin.val = List.range a.peCount := by
  cases a <;> decide

theorem Discovery.list_fileName? {h : Host} {r : Roots} (ht : list h r = .ok t) {n : Node}
    (hn : t.Has n) : Path.fileName? n.path = some n.fileName := by
  have hpath := list_ofPath? ht hn
  rw [Node.fileName_of_ofPath? hpath]
  exact (Node.ofPath?_eq_some_iff.1 hpath).1

/-- **The report is exact.** A host was listed, and since then nodes may have vanished, may share
their files, and anybody may hold any lock. The report of a device is there and has the PEs from `0`
up to their number, each once. A PE is occupied through the first node of the device that is locked
and covers it, by the file name of that node, and available when there is none. The nodes are in
order: the whole device, single PEs, and ranges by where they begin and then by where they end. -/
theorem Occupancy.ofDevice_exact {h₀ : Host} {r : Roots} (hnamed : h₀.Named)
    (hdistinct : h₀.Distinct) (ht : Discovery.list h₀ r = .ok t) (hd : d ∈ t)
    (hnodes : ∀ n ∈ d.nodes, n.OpenOrGone h) (s : Locks) :
    (d.nodes.Pairwise fun m n => m.id.rank < n.id.rank) ∧
    ∃ o, ((ofDevice d).run h s).1 = .ok o ∧
      o.map (fun x => x.1.val) = List.range d.arch.peCount ∧
      ∀ pe : Index, pe.val < d.arch.peCount →
        (d.heldThrough? h s pe = none → o.lookup pe = some .available) ∧
        ∀ n, d.heldThrough? h s pe = some n →
          Path.fileName? n.path = some n.fileName ∧
            o.lookup pe = some (.occupied n.fileName) := by
  refine ⟨Discovery.list_ascending hnamed hdistinct ht d hd, _, run_ofDevice_eq hnodes s, ?_, ?_⟩
  · rw [← Arch.pes_eq_range, report, List.map_map]
    rfl
  · intro pe hpe
    rw [lookup_report (Arch.mem_pes.2 hpe)]
    refine ⟨fun hnone => by rw [hnone]; rfl, fun n hn => ?_⟩
    have hmem : n ∈ d.nodes := List.mem_of_find?_eq_some hn
    exact ⟨Discovery.list_fileName? ht ⟨d, hd, hmem⟩, by rw [hn]; rfl⟩

/-- The host with the three ranges once the second of them has vanished. -/
def goneHost : Host :=
  { nestedHost with entries := nestedHost.entries.filter fun x => x.1 ≠ ["dev", "npu0pe1-2"] }

theorem gone_openNode : ∀ n ∈ nestedNodes, goneHost.openNode n.path =
    if n.path = "/dev/npu0pe1-2" then .error .notFound else .ok (nestedFile n) := by
  have hfirst : goneHost.openNode "/dev/npu0pe0-3" = .ok 0 :=
    Host.openNode_of_straight? (p := ["dev", "npu0pe0-3"]) (by decide)
  have hthird : goneHost.openNode "/dev/npu0pe3-4" = .ok 2 :=
    Host.openNode_of_straight? (p := ["dev", "npu0pe3-4"]) (by decide)
  have hsecond : goneHost.openNode "/dev/npu0pe1-2" = .error .notFound :=
    Host.openNode_of_missing (by decide)
  simp [nestedNodes_eq, nestedFile, hfirst, hsecond, hthird]

theorem gone_openOrGone : ∀ n ∈ nestedNodes, n.OpenOrGone goneHost := by
  intro n hn
  unfold Node.OpenOrGone
  rw [gone_openNode n hn]
  split
  · exact .inr rfl
  · exact .inl ⟨_, rfl⟩

theorem gone_heldThrough? (s : Locks) (pe : Index) :
    Device.heldThrough? ⟨0, .rngd, nestedNodes⟩ goneHost s pe = nestedNodes.find? fun n =>
      decide (n.path ≠ "/dev/npu0pe1-2" ∧ nestedFile n ∈ s) && n.covers pe := by
  unfold Device.heldThrough?
  have hlocked : ∀ n ∈ nestedNodes, n.lockedIn goneHost s =
      decide (n.path ≠ "/dev/npu0pe1-2" ∧ nestedFile n ∈ s) := by
    intro n hn
    rw [Node.lockedIn, gone_openNode n hn]
    by_cases hgone : n.path = "/dev/npu0pe1-2" <;> simp [hgone]
  exact List.find?_congr fun n hn => by rw [hlocked n hn]

/-- With every lock taken but that of the first range, what is left of the second has no effect, and
the third range holds its PEs. With all three taken the PE that two of the ranges cover goes to the
first of them. -/
theorem Occupancy.ofDevice_exact_gone :
    let device : Device := ⟨0, .rngd, nestedNodes⟩
    nestedHost.Named ∧ nestedHost.Distinct ∧
      Discovery.list nestedHost .standard = .ok nestedTopology ∧ device ∈ nestedTopology ∧
      (∀ n ∈ device.nodes, n.OpenOrGone goneHost) ∧
      (∃ o, ((ofDevice device).run goneHost [1, 2]).1 = .ok o ∧
        o.map (fun x => x.1.val) = [0, 1, 2, 3, 4, 5, 6, 7] ∧
        o.lookup 1 = some .available ∧ o.lookup 3 = some (.occupied "npu0pe3-4")) ∧
      ∃ o, ((ofDevice device).run goneHost [0, 1, 2]).1 = .ok o ∧
        o.lookup 3 = some (.occupied "npu0pe0-3") ∧ o.lookup 4 = some (.occupied "npu0pe3-4") ∧
        o.lookup 5 = some .available := by
  intro device
  have hnamed : nestedHost.Named := by decide
  have hdistinct : nestedHost.Distinct := by decide
  have hd : device ∈ nestedTopology := by simp [nestedTopology_eq, device]
  have hnodes : ∀ n ∈ device.nodes, n.OpenOrGone goneHost := gone_openOrGone
  obtain ⟨-, o, ho, hkeys, hstates⟩ :=
    ofDevice_exact hnamed hdistinct nested_list hd hnodes [1, 2]
  obtain ⟨-, o', ho', -, hstates'⟩ :=
    ofDevice_exact hnamed hdistinct nested_list hd hnodes [0, 1, 2]
  simp only [device, gone_heldThrough?] at hstates hstates'
  refine ⟨hnamed, hdistinct, nested_list, hd, hnodes, ⟨o, ho, hkeys, ?_, ?_⟩, o', ho', ?_, ?_, ?_⟩
  · exact (hstates 1 (by decide)).1 (by decide)
  · exact ((hstates 3 (by decide)).2 ⟨⟨0, some (.fused 3 4)⟩, "/dev/npu0pe3-4"⟩ (by decide)).2
  · exact ((hstates' 3 (by decide)).2 ⟨⟨0, some (.fused 0 3)⟩, "/dev/npu0pe0-3"⟩ (by decide)).2
  · exact ((hstates' 4 (by decide)).2 ⟨⟨0, some (.fused 3 4)⟩, "/dev/npu0pe3-4"⟩ (by decide)).2
  · exact (hstates' 5 (by decide)).1 (by decide)

end NpuBroker

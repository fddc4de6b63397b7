import NpuBroker.Proofs.Occupancy
import NpuBroker.Proofs.Spans

/-!
# Vacant units

Whether a unit is free is asked in two ways. The occupancy of its device marks the PEs of every
node that is held, and a request for the unit by name probes the nodes that overlap it before it
claims it. Both come to the same: no node that is held shares a PE with the unit.

* `Node.overlaps_iff`: nodes of one device overlap exactly when they share a PE.
* `Occupancy.ofDevice_reports`: a PE is reported available when no node that is held covers it.
* `Claim.run_find_only`: a unit is claimed by name when no node that is held overlaps it.
* `find_iff_available`: so a request for it succeeds exactly when all its PEs are reported
  available, whatever other nodes have vanished since or share their files.
-/
namespace NpuBroker

/-! ## Overlapping and sharing -/

namespace Node

variable {present : List Index} {m n : Node}

theorem exists_mem_pes (hpresent : present ≠ []) (hn : n.id.Proper) : ∃ pe, pe ∈ n.pes present := by
  unfold pes
  cases hs : n.id.span with
  | none => exact List.exists_mem_of_ne_nil _ hpresent
  | some s =>
    have hle := hn.first_le_last hs
    exact ⟨s.first, by simp [Span.mem_indices_iff, Span.contains, hle]⟩

/-- On a device that has the PEs of both, nodes overlap exactly when they share one. -/
theorem overlaps_iff (hpresent : present ≠ []) (hd : m.id.device = n.id.device)
    (hm : m.id.Proper) (hn : n.id.Proper) (hmp : m.pes present ⊆ present)
    (hnp : n.pes present ⊆ present) :
    m.overlaps n = true ↔ ∃ pe ∈ m.pes present, pe ∈ n.pes present := by
  simp only [overlaps, UnitId.overlaps, hd, BEq.rfl, Bool.true_and]
  cases hms : m.id.span with
  | none =>
    obtain ⟨pe, hpe⟩ := exists_mem_pes hpresent hn
    exact iff_of_true rfl ⟨pe, by simpa [pes, hms] using hnp hpe, hpe⟩
  | some a =>
    cases hns : n.id.span with
    | none =>
      obtain ⟨pe, hpe⟩ := exists_mem_pes hpresent hm
      exact iff_of_true rfl ⟨pe, hpe, by simpa [pes, hns] using hmp hpe⟩
    | some b =>
      simp only [pes, hms, hns]
      exact Span.overlaps_iff (hm.first_le_last hms) (hn.first_le_last hns)

end Node

theorem Device.pes_ne_nil (d : Device) : d.pes ≠ [] := by
  have hzero : (0 : Index) ∈ d.arch.pes := by cases d.arch <;> decide
  exact List.ne_nil_of_mem hzero

variable {h : Host} {t : Topology} {d : Device} {n : Node} {s : Locks}

/-! ## The report -/

namespace Occupancy

/-- A PE of the device is reported available when no node that is held covers it. -/
theorem ofDevice_reports (hd : ∀ m ∈ d.nodes, m.OpenOrGone h) (s : Locks) :
    ∃ o, ((ofDevice d).run h s).1 = .ok o ∧
      ∀ pe, o.lookup pe = some .available ↔
        pe ∈ d.pes ∧ ∀ m ∈ d.nodes, m.lockedIn h s = true → pe ∉ m.pes d.pes := by
  refine ⟨_, run_ofDevice_eq hd s, fun pe => ?_⟩
  by_cases hpe : pe ∈ d.pes
  · simp [lookup_report hpe, Device.heldThrough?, Node.mem_pes_iff hpe, hpe]
  · refine iff_of_false (fun hlookup => hpe ?_) fun hreport => hpe hreport.1
    obtain ⟨before, after, ho, -⟩ := List.lookup_eq_some_iff.1 hlookup
    have hmem : (pe, PeState.available) ∈ report d (d.heldThrough? h s) := by simp [ho]
    obtain ⟨pe', hpe', he⟩ := List.mem_map.1 hmem
    exact (Prod.mk.inj he).1 ▸ hpe'

end Occupancy

/-! ## The request -/

/-- The only node of a unit is found by the name of the unit. -/
theorem Plan.named_self (hw : t.WellFormed) (hd : d ∈ t) (hn : n ∈ d.nodes)
    (hunique : ∀ m ∈ d.nodes, m.id = n.id → m = n) : named t n.id = .ok n := by
  refine named_eq_ok_iff.2 ⟨d, hw.device?_of_mem hd hn, ?_⟩
  unfold Device.find?
  cases hf : d.nodes.find? fun m => m.id = n.id with
  | none => simpa using List.find?_eq_none.1 hf n hn
  | some m => rw [hunique m (List.mem_of_find?_eq_some hf) (by simpa using List.find?_some hf)]

namespace Claim

/-- A request for one unit is answered as the claim of its node is. -/
theorem run_find_one (hn : Plan.named t n.id = .ok n) :
    ((find t (.explicit [n.id])).run h s).1 =
      match ((candidate? t [] n).run h s).1 with
      | .error f => .error f
      | .ok none => .error (.busy n.name)
      | .ok (some c) => .ok [c] := by
  simp only [find, Plan.expand_one hn, resolve, groups, group?, Attempt.run_bind]
  rcases (candidate? t [] n).run h s with ⟨answer, l⟩
  rcases answer with f | _ | c <;> rfl

/-- Neither a rival of the node nor the node itself is held when nothing is that overlaps it. -/
theorem quiet_iff (hdevice : t.device? n.id.device = some d) (hn : n ∈ d.nodes)
    (hunique : ∀ m ∈ d.nodes, m.id = n.id → m = n) (hself : n.overlaps n = true) :
    (rivals t [] n).any (·.lockedIn h s) = false ∧ n.lockedIn h s = false ↔
      ∀ m ∈ d.nodes, m.lockedIn h s = true → m.overlaps n = false := by
  have hrivals : ∀ m, m ∈ rivals t [] n ↔
      m ∈ d.nodes ∧ m.same n = false ∧ m.overlaps n = true := by
    intro m
    simp [mem_rivals, hdevice]
  simp only [List.any_eq_false, hrivals, Bool.not_eq_true]
  constructor
  · rintro ⟨hfree, hfreen⟩ m hm hl
    by_contra hover
    rw [Bool.not_eq_false] at hover
    -- what overlaps the node and is not a rival is the node itself
    have hsame : m.same n = true := by
      by_contra hsame
      rw [hfree m ⟨hm, by simpa using hsame, hover⟩] at hl
      cases hl
    simp only [Node.same, Bool.and_eq_true, beq_iff_eq] at hsame
    rw [hunique m hm hsame.1, hfreen] at hl
    cases hl
  · intro hall
    refine ⟨fun m hm => ?_, ?_⟩
    · by_contra hl
      rw [hall m hm.1 (by simpa using hl)] at hm
      simp at hm
    · by_contra hl
      rw [hall n hn (by simpa using hl)] at hself
      cases hself

/-- A unit that is one of a kind is claimed when no node of its device that overlaps it is held,
itself included. -/
theorem run_find_only {file : FileId} (hw : t.WellFormed) (hd : d ∈ t) (hn : n ∈ d.nodes)
    (hunique : ∀ m ∈ d.nodes, m.id = n.id → m = n) (hself : n.overlaps n = true)
    (hfile : h.openNode n.path = .ok file) (hnodes : ∀ m ∈ d.nodes, m.OpenOrGone h) :
    ((find t (.explicit [n.id])).run h s).1 =
      if ∀ m ∈ d.nodes, m.lockedIn h s = true → m.overlaps n = false then .ok [⟨n, file⟩]
      else .error (.busy n.name) := by
  have hdevice := hw.device?_of_mem hd hn
  have hany := @anyHeldIn_eq h s (rivals t [] n) fun m hm => by
    obtain ⟨e, he, hm, -⟩ := mem_rivals.1 hm
    rw [hdevice, Option.some.injEq] at he
    exact (hnodes m (he ▸ hm)).heldIn_eq
  rw [run_find_one (Plan.named_self hw hd hn hunique), run_candidate?, hany, run_node?, hfile]
  simp only [← quiet_iff hdevice hn hunique hself, Node.lockedIn_of_open hfile, List.any_nil,
    Bool.false_eq_true, if_false]
  cases (rivals t [] n).any (·.lockedIn h s) with
  | true => simp
  | false => by_cases hl : file ∈ s <;> simp [hl]

end Claim

/-- **The report and the request agree.** A host was listed, and since then nodes may have
vanished, may share their files, and anybody may hold any lock. A request for a unit whose node is
still there succeeds, with the claim of that node, exactly when all PEs of the unit are reported
available under the same locks. Otherwise it is busy. -/
theorem find_iff_available {h₀ : Host} {r : Roots} {file : FileId} (hh : h₀.Named)
    (ht : Discovery.list h₀ r = .ok t) (hd : d ∈ t) (hn : n ∈ d.nodes)
    (hfile : h.openNode n.path = .ok file) (hnodes : ∀ m ∈ d.nodes, m.OpenOrGone h) (s : Locks) :
    let answer := ((Claim.find t (.explicit [n.id])).run h s).1
    ∃ o, ((Occupancy.ofDevice d).run h s).1 = .ok o ∧
      ((∃ cs, answer = .ok cs) ↔ ∀ pe ∈ n.pes d.pes, o.lookup pe = some .available) ∧
      (∀ cs, answer = .ok cs → cs = [⟨n, file⟩]) ∧
      ∀ f, answer = .error f → f = .busy n.name := by
  intro answer
  have hw := Discovery.list_wellFormed ht
  have hproper : ∀ m ∈ d.nodes, m.id.Proper := fun m hm => Discovery.list_proper ht ⟨d, hd, hm⟩
  have hunique : ∀ m ∈ d.nodes, m.id = n.id → m = n := fun m hm =>
    Discovery.list_unique hh ht ⟨d, hd, hm⟩ ⟨d, hd, hn⟩
  have hanswer : answer = _ :=
    Claim.run_find_only hw hd hn hunique (hproper n hn).overlaps_self hfile hnodes
  obtain ⟨o, ho, hreport⟩ := Occupancy.ofDevice_reports hnodes s
  have hshare : ∀ m ∈ d.nodes, m.overlaps n = false ↔ ∀ pe ∈ m.pes d.pes, pe ∉ n.pes d.pes := by
    intro m hm
    rw [← Bool.not_eq_true, Node.overlaps_iff d.pes_ne_nil
      ((hw.own d hd m hm).trans (hw.own d hd n hn).symm) (hproper m hm) (hproper n hn)
      (Discovery.list_fits ht hd hm) (Discovery.list_fits ht hd hn)]
    simp
  have hiff : (∀ pe ∈ n.pes d.pes, o.lookup pe = some .available) ↔
      ∀ m ∈ d.nodes, m.lockedIn h s = true → m.overlaps n = false := by
    constructor
    · intro hall m hm hl
      exact (hshare m hm).2 fun pe hpe hpen => ((hreport pe).1 (hall pe hpen)).2 m hm hl hpe
    · intro hall pe hpe
      exact (hreport pe).2 ⟨Discovery.list_fits ht hd hn hpe, fun m hm hl hpem =>
        (hshare m hm).1 (hall m hm hl) pe hpem hpe⟩
  refine ⟨o, ho, ?_⟩
  rw [hiff, hanswer]
  split
  · rename_i hfree
    refine ⟨iff_of_true ⟨_, rfl⟩ hfree, fun cs hcs => ?_, fun f hf => ?_⟩
    · cases hcs
      rfl
    · cases hf
  · rename_i hheld
    refine ⟨iff_of_false ?_ hheld, fun cs hcs => ?_, fun f hf => ?_⟩
    · rintro ⟨cs, hcs⟩
      cases hcs
    · cases hcs
    · cases hf
      rfl

/-- With the second range locked the third is free: its PEs are available, and it is claimed by
name. -/
theorem find_iff_available_nested :
    let device : Device := ⟨0, .rngd, nestedNodes⟩
    let third : Node := ⟨⟨0, some (.fused 3 4)⟩, "/dev/npu0pe3-4"⟩
    nestedHost.Named ∧ Discovery.list nestedHost .standard = .ok nestedTopology ∧
      device ∈ nestedTopology ∧ third ∈ device.nodes ∧
      nestedHost.openNode third.path = .ok 2 ∧ (∀ m ∈ device.nodes, m.OpenOrGone nestedHost) ∧
      ∃ o, ((Occupancy.ofDevice device).run nestedHost [1]).1 = .ok o ∧
        (∀ pe ∈ third.pes device.pes, o.lookup pe = some .available) ∧
        ((Claim.find nestedTopology (.explicit [third.id])).run nestedHost [1]).1 =
          .ok [⟨third, 2⟩] := by
  intro device third
  have hh : nestedHost.Named := by decide
  have hd : device ∈ nestedTopology := by simp [nestedTopology_eq, device]
  have hn : third ∈ device.nodes := by simp [device, third, nestedNodes_eq]
  have hfile : nestedHost.openNode third.path = .ok 2 := nested_openNode third hn
  have hnodes : ∀ m ∈ device.nodes, m.OpenOrGone nestedHost := fun m hm =>
    .inl ⟨_, nested_openNode m hm⟩
  obtain ⟨o, ho, hiff, hok, -⟩ := find_iff_available hh nested_list hd hn hfile hnodes [1]
  obtain ⟨o', ho', hreport⟩ := Occupancy.ofDevice_reports hnodes [1]
  rw [ho, Except.ok.injEq] at ho'
  subst ho'
  have hfree : ∀ pe ∈ third.pes device.pes, o.lookup pe = some .available := by
    have hheld : ∀ m ∈ nestedNodes, nestedFile m ∈ [1] → m.id.span = some (.fused 1 2) := by decide
    have hapart : ∀ pe ∈ (Span.fused 3 4).indices, pe ∉ (Span.fused 1 2).indices :=
      fun pe hpe hpe' => absurd ((Span.overlaps_iff (by decide) (by decide)).2 ⟨pe, hpe, hpe'⟩)
        (by decide)
    intro pe hpe
    refine (hreport pe).2 ⟨Discovery.list_fits nested_list hd hn hpe, fun m hm hl => ?_⟩
    rw [Node.lockedIn_of_open (nested_openNode m hm), decide_eq_true_eq] at hl
    rw [Node.pes, hheld m hm hl]
    exact hapart pe hpe
  obtain ⟨cs, hcs⟩ := hiff.2 hfree
  rw [hok cs hcs] at hcs
  exact ⟨hh, nested_list, hd, hn, hfile, hnodes, o, ho, hfree, hcs⟩

end NpuBroker

import NpuBroker.Proofs.Claim.Vacancy

/-!
# Opening a unit by name

A unit is opened in two steps: its name is looked up, and the node that was found is then requested
as any unit is. The request goes through checks of its own, with faults of their own for a unit that
is not there. None of these shows: what was found is there to be requested, so that a name is
refused by the look-up or not at all.

* `Claim.lookup_spec`: what is found under a name, and when nothing is.
* `Claim.run_openNode_of_ok`: a node that was found is opened as the request for its unit is met.
* `Claim.run_find_free`, `Claim.run_find_held`: the request for a node of a listed topology.
* `openNode_lookup`: for every name, which of the answers there is to both.
-/
namespace NpuBroker

variable {h₀ h : Host} {r : Roots} {t : Topology} {n : Node} {s : Locks} {name : String}

/-- A node is named as a text when the text is read as its unit. -/
theorem Node.name_eq_iff (hn : n.id.Proper) {text : String} :
    n.name = text ↔ UnitId.ofName? text = some n.id := by
  rw [UnitId.ofName?_eq_some_iff, Node.name, eq_comm (a := text)]
  exact (and_iff_right hn).symm

namespace Claim

/-! ## Looking a name up -/

/-- A text that is no name of a unit is refused as such. -/
theorem lookup_of_none (hu : UnitId.ofName? (Text.trimmed name) = none) :
    lookup t name = .error (.invalidSpecifier (Text.trimmed name) .badName) := by
  rw [lookup, UnitId.ofText, hu]
  rfl

/-- A unit with a node is found, and one without is not. -/
theorem lookup_spec (hw : t.WellFormed) {u : UnitId}
    (hu : UnitId.ofName? (Text.trimmed name) = some u) :
    (∃ n, t.Has n ∧ n.id = u ∧ lookup t name = .ok n) ∨
      (∀ n, t.Has n → n.id ≠ u) ∧ lookup t name = .error (.notFound (Text.trimmed name)) := by
  have hname : Text.trimmed name = u.name := (UnitId.ofName?_eq_some_iff.1 hu).2
  rw [lookup, UnitId.ofText, hu, hname]
  simp only [Option.elim_some, bind, Except.bind]
  cases hf : (t.filter fun d => d.index = u.device).findSome? fun d => d.find? u with
  | none =>
    refine .inr ⟨?_, rfl⟩
    rintro n ⟨d, hd, hn⟩ hid
    have hindex : d.index = u.device := by rw [← hw.own d hd n hn, hid]
    have hnot := List.findSome?_eq_none_iff.1 hf d (List.mem_filter.2 ⟨hd, by simpa⟩)
    simpa [hid] using List.find?_eq_none.1 hnot n hn
  | some n =>
    obtain ⟨d, hd, hfind⟩ := List.exists_of_findSome?_eq_some hf
    exact .inl ⟨n, ⟨d, (List.mem_filter.1 hd).1, List.mem_of_find?_eq_some hfind⟩,
      by simpa using List.find?_some hfind, rfl⟩

/-! ## Opening what was found -/

theorem run_openNode_of_error {f : Fault} (hl : lookup t name = .error f) :
    (openNode t name).run h s = (.error f, s) := by
  rw [openNode, hl]
  rfl

/-- A node that was found is opened as the request for its unit is met. -/
theorem run_openNode_of_ok (hl : lookup t name = .ok n) :
    (∀ f, ((find t (.explicit [n.id])).run h s).1 = .error f →
      (openNode t name).run h s = (.error f, s)) ∧
    ∀ c, ((find t (.explicit [n.id])).run h s).1 = .ok [c] →
      (openNode t name).run h s = (.ok c, c.file :: s) := by
  simp only [openNode, hl, Attempt.run_bind]
  rcases @run_find h t s (.explicit [n.id]) with ⟨f, hr⟩ | ⟨p, cs, m, -, hr, -, hg⟩
  · rw [hr]
    refine ⟨fun f' hf => ?_, fun c hc => ?_⟩
    · cases hf
      rfl
    · cases hc
  · rw [hr]
    refine ⟨fun f hf => ?_, fun c hc => ?_⟩
    · cases hf
    · cases hc
      have hm : m = c.file :: s := hg.locks_eq
      rw [hm]
      rfl

section Request

variable (hh : h₀.Named) (ht : Discovery.list h₀ r = .ok t)
  (hopens : ∀ n, t.Has n → ∃ file, h.openNode n.path = .ok file)
include hh ht hopens

/-- The request for the unit of a listed node is met when nothing is held that overlaps it, and
busy when something is. -/
theorem run_find_listed (hn : t.Has n) :
    ((∀ m, t.Has m → m.overlaps n = true → m.lockedIn h s = false) →
      ∃ file, h.openNode n.path = .ok file ∧
        ((find t (.explicit [n.id])).run h s).1 = .ok [⟨n, file⟩]) ∧
    ((∃ m, t.Has m ∧ m.overlaps n = true ∧ m.lockedIn h s = true) →
      ((find t (.explicit [n.id])).run h s).1 = .error (.busy n.name)) := by
  have hw := Discovery.list_wellFormed ht
  obtain ⟨d, hd, hmem⟩ := id hn
  obtain ⟨file, hfile⟩ := hopens n hn
  have hrun := @run_find_only h t d n s file hw hd hmem
    (fun m hm => Discovery.list_unique hh ht ⟨d, hd, hm⟩ hn)
    (Discovery.list_proper ht hn).overlaps_self hfile
    fun m hm => .inl (hopens m ⟨d, hd, hm⟩)
  rw [hrun]
  constructor
  · intro hfree
    refine ⟨file, hfile, if_pos fun m hm hl => ?_⟩
    by_contra hover
    rw [hfree m ⟨d, hd, hm⟩ (by simpa using hover)] at hl
    cases hl
  · rintro ⟨m, hm, hover, hl⟩
    refine if_neg fun hall => ?_
    -- what overlaps the node is one of its own device
    have hlisted := hw.listed hm
    have hmd : m ∈ d.nodes := by
      obtain ⟨e, he, hme⟩ := hlisted
      rw [Node.device_of_overlaps hover, hw.device?_of_mem hd hmem, Option.some.injEq] at he
      exact he ▸ hme
    rw [hall m hmd hl] at hover
    cases hover

end Request

end Claim

/-- **Looking up and opening answer alike.** A host was listed, all its nodes still open, and
anybody may hold any lock. A text that is no name of a unit is refused by the look-up and by the
opening as a specifier that says nothing, and a name that no node has as one that was not found.
For the name of a node the look-up finds this node and no other. Opening claims exactly this node,
and locks its file beside what was locked, when neither it nor any node that overlaps it is held.
Else it says that the name is busy, and it says nothing else of a name that there is. -/
theorem openNode_lookup (hh : h₀.Named) (ht : Discovery.list h₀ r = .ok t)
    (hopens : ∀ n, t.Has n → ∃ file, h.openNode n.path = .ok file) (s : Locks) (name : String) :
    let text := Text.trimmed name
    let found := Claim.lookup t name
    let opened := (Claim.openNode t name).run h s
    (UnitId.ofName? text = none →
      found = .error (.invalidSpecifier text .badName) ∧
        opened = (.error (.invalidSpecifier text .badName), s)) ∧
    (UnitId.ofName? text ≠ none → (∀ n, t.Has n → n.name ≠ text) →
      found = .error (.notFound text) ∧ opened = (.error (.notFound text), s)) ∧
    ∀ n, t.Has n → n.name = text →
      found = .ok n ∧ (∀ m, t.Has m → m.name = text → m = n) ∧
      (n.lockedIn h s = false →
        (∀ m, t.Has m → m.overlaps n = true → m.lockedIn h s = false) →
        ∃ file, h.openNode n.path = .ok file ∧ opened = (.ok ⟨n, file⟩, file :: s)) ∧
      (n.lockedIn h s = true ∨
          (∃ m, t.Has m ∧ m.overlaps n = true ∧ m.lockedIn h s = true) →
        opened = (.error (.busy text), s)) ∧
      ∀ f, opened.1 = .error f → f = .busy text := by
  intro text found opened
  have hw := Discovery.list_wellFormed ht
  have hproper : ∀ n, t.Has n → n.id.Proper := fun n => Discovery.list_proper ht
  refine ⟨fun hnone => ?_, fun hsome habsent => ?_, fun n hn hname => ?_⟩
  · have hfound := Claim.lookup_of_none (t := t) hnone
    exact ⟨hfound, Claim.run_openNode_of_error hfound⟩
  · obtain ⟨u, hu⟩ := Option.ne_none_iff_exists'.1 hsome
    rcases Claim.lookup_spec hw hu with ⟨n, hn, hid, -⟩ | ⟨-, hfound⟩
    · exact absurd ((Node.name_eq_iff (hproper n hn)).2 (hid ▸ hu)) (habsent n hn)
    · exact ⟨hfound, Claim.run_openNode_of_error hfound⟩
  · have hunique : ∀ m, t.Has m → m.id = n.id → m = n := fun m hm =>
      Discovery.list_unique hh ht hm hn
    have hu := (Node.name_eq_iff (hproper n hn)).1 hname
    have hfound : found = .ok n := by
      rcases Claim.lookup_spec hw hu with ⟨m, hm, hid, hl⟩ | ⟨habsent, -⟩
      · rwa [hunique m hm hid] at hl
      · exact absurd rfl (habsent n hn)
    obtain ⟨herror, hok⟩ := @Claim.run_openNode_of_ok h t n s name hfound
    obtain ⟨hfree, hheld⟩ := @Claim.run_find_listed h₀ h r t n s hh ht hopens hn
    have hbusy : (∃ m, t.Has m ∧ m.overlaps n = true ∧ m.lockedIn h s = true) →
        opened = (.error (.busy text), s) := fun hm => hname ▸ herror _ (hheld hm)
    refine ⟨hfound, fun m hm hm' => ?_, fun _ hquiet => ?_, ?_, fun f hf => ?_⟩
    · exact hunique m hm (Option.some.inj
        (((Node.name_eq_iff (hproper m hm)).1 hm').symm.trans hu))
    · obtain ⟨file, hfile, hclaim⟩ := hfree hquiet
      exact ⟨file, hfile, hok _ hclaim⟩
    · rintro (hl | hm)
      · exact hbusy ⟨n, hn, (hproper n hn).overlaps_self, hl⟩
      · exact hbusy hm
    · by_cases hm : ∃ m, t.Has m ∧ m.overlaps n = true ∧ m.lockedIn h s = true
      · rw [hbusy hm] at hf
        cases hf
        rfl
      · obtain ⟨file, -, hclaim⟩ := hfree fun m hmem hover => by
          by_contra hl
          exact hm ⟨m, hmem, hover, by simpa using hl⟩
        have hopened : opened = _ := hok _ hclaim
        rw [hopened] at hf
        cases hf

/-- Blanks around a name are not part of it. The third range is claimed beside the second, and is
busy with the first; there is no eighth device, and a number has no zero in front. -/
theorem openNode_lookup_nested :
    let third : Node := ⟨⟨0, some (.fused 3 4)⟩, "/dev/npu0pe3-4"⟩
    nestedHost.Named ∧ Discovery.list nestedHost .standard = .ok nestedTopology ∧
      (∀ n, nestedTopology.Has n → ∃ file, nestedHost.openNode n.path = .ok file) ∧
      (Claim.openNode nestedTopology "npu07").run nestedHost [] =
        (.error (.invalidSpecifier "npu07" .badName), []) ∧
      (Claim.openNode nestedTopology "npu7").run nestedHost [] =
        (.error (.notFound "npu7"), []) ∧
      (Claim.openNode nestedTopology " npu0pe3-4\n").run nestedHost [1] =
        (.ok ⟨third, 2⟩, [2, 1]) ∧
      (Claim.openNode nestedTopology " npu0pe3-4\n").run nestedHost [0] =
        (.error (.busy "npu0pe3-4"), [0]) := by
  intro third
  have hh : nestedHost.Named := by decide
  have hopens : ∀ n, nestedTopology.Has n → ∃ file, nestedHost.openNode n.path = .ok file :=
    fun n hn => ⟨_, nested_openNode n (nested_has.1 hn)⟩
  have hlocked : ∀ s n, nestedTopology.Has n →
      n.lockedIn nestedHost s = decide (nestedFile n ∈ s) := fun s n hn =>
    Node.lockedIn_of_open (nested_openNode n (nested_has.1 hn))
  have hthird : nestedTopology.Has third := by simp [nested_has, third, nestedNodes_eq]
  have answer := openNode_lookup hh nested_list hopens
  refine ⟨hh, nested_list, hopens, ?_, ?_, ?_, ?_⟩
  · have htext : Text.trimmed "npu07" = "npu07" := by decide
    exact htext ▸ ((answer [] "npu07").1 (by decide)).2
  · have habsent : ∀ n ∈ nestedNodes, n.name ≠ Text.trimmed "npu7" := by decide
    have htext : Text.trimmed "npu7" = "npu7" := by decide
    exact htext ▸ ((answer [] "npu7").2.1 (by decide) fun n hn => habsent n (nested_has.1 hn)).2
  · obtain ⟨-, -, hfree, -⟩ := (answer [1] " npu0pe3-4\n").2.2 third hthird (by decide)
    have hquiet : ∀ m ∈ nestedNodes, m.overlaps third = true → nestedFile m ∉ [1] := by decide
    obtain ⟨file, hfile, hopened⟩ := hfree (by rw [hlocked [1] third hthird]; decide)
      fun m hm hover => by simpa [hlocked [1] m hm] using hquiet m (nested_has.1 hm) hover
    rw [nested_openNode third (nested_has.1 hthird), Except.ok.injEq] at hfile
    subst hfile
    exact hopened
  · obtain ⟨-, -, -, hheld, -⟩ := (answer [0] " npu0pe3-4\n").2.2 third hthird (by decide)
    have htext : Text.trimmed " npu0pe3-4\n" = "npu0pe3-4" := by decide
    have hfirst : ∃ m ∈ nestedNodes, m.overlaps third = true ∧ nestedFile m ∈ [0] := by decide
    obtain ⟨m, hm, hover, hl⟩ := hfirst
    have hmem := nested_has.2 hm
    exact htext ▸ hheld (.inr ⟨m, hmem, hover, by simpa [hlocked [0] m hmem] using hl⟩)

end NpuBroker

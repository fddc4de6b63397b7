import NpuBroker.Proofs.Claim.Race
import NpuBroker.Proofs.Claim.Selection

/-!
# Two callers for one device

Two callers ask for one unit each at the same time. A call looks at the nodes that overlap its own
and gives each lock back before it takes its own, so it does not see a node that is claimed after
it was looked at.

* `Race.calls_both_succeed`: when calls for two units both succeed, overlapping or not.
* `Race.calls_one_wins`: of two calls for one unit exactly one succeeds.
-/
namespace NpuBroker

open Claim

variable {h : Host} {t : Topology} {m n : Node} {s : Locks}

/-! ## Calls for two units -/

/-- The calls for the units `u` and `v` before either has had a turn. -/
def Race.calls (t : Topology) (u v : UnitId) (s : Locks) :
    Race (Except Fault (List Claim)) (Except Fault (List Claim)) :=
  ⟨find t (.explicit [u]), find t (.explicit [v]), s⟩

variable {u v : UnitId}

theorem Race.calls_eq (hm : Plan.named t u = .ok m) (hn : Plan.named t v = .ok n) :
    calls t u v s = ⟨seek m (rivals t [] m), seek n (rivals t [] n), s⟩ := by
  have hu := (Plan.named_spec hm).1
  have hv := (Plan.named_spec hn).1
  subst hu hv
  rw [calls, find_eq_seek hm, find_eq_seek hn]

/-- Of two overlapping units one is the other, or each call looks at the other's node. -/
theorem Claim.eq_or_mem_rivals (hm : Plan.named t u = .ok m) (hn : Plan.named t v = .ok n)
    (ho : m.overlaps n = true) : m = n ∨ m ∈ rivals t [] n := by
  obtain ⟨d, hd, hfind⟩ := Plan.named_eq_ok_iff.1 hm
  have hu := (Plan.named_spec hm).1
  have hv := (Plan.named_spec hn).1
  cases hsame : m.same n with
  | true =>
    have hid : m.id = n.id := by
      simp only [Node.same, Bool.and_eq_true, beq_iff_eq] at hsame
      exact hsame.1
    rw [← hu, hid, hv, hn, Except.ok.injEq] at hm
    exact .inl hm.symm
  | false =>
    refine .inr (mem_rivals.2 ⟨d, ?_, List.mem_of_find?_eq_some hfind, hsame, ho, by simp⟩)
    rw [← Node.device_of_overlaps ho, hu, hd]

/-- Where every node exists and nobody has locked one, nothing is in the way of a call. -/
theorem Claim.heldIn_of_mem_rivals
    (hfree : ∀ n, t.Has n → ∃ file, h.openNode n.path = .ok file ∧ file ∉ s) :
    ∀ m ∈ rivals t [] n, m.heldIn h s = .ok false := by
  intro m hm
  obtain ⟨d, hd, hm, -⟩ := mem_rivals.1 hm
  obtain ⟨file, ho, hf⟩ := hfree m ⟨d, Topology.mem_of_device? hd, hm⟩
  simp [Node.heldIn_of_open ho, hf]

/-- **Two calls at a time can claim units that overlap.** Both calls succeed in exactly those orders
in which each would alone and they do not meet. There is such an order if and only if each would
alone, some time, and their nodes lead to different files, whether the units overlap or not. When
they do overlap, a call that begins after the other has succeeded does not succeed beside it. -/
theorem Race.calls_both_succeed (hm : Plan.named t u = .ok m) (hn : Plan.named t v = .ok n) :
    let r := calls t u v s
    (∀ order, (r.run h order).left.Succeeded ∧ (r.run h order).right.Succeeded ↔
      (r.left.turns h (order.count .left) s).1.Succeeded ∧
        (r.right.turns h (order.count .right) s).1.Succeeded ∧ ¬ r.Meet h order) ∧
    ((∃ order, (r.run h order).left.Succeeded ∧ (r.run h order).right.Succeeded) ↔
      (∃ cs, (r.left.run h s).1 = .ok cs) ∧ (∃ cs, (r.right.run h s).1 = .ok cs) ∧
        h.openNode m.path ≠ h.openNode n.path) ∧
    (m.overlaps n = true → ∀ first second, .right ∉ first → (r.run h first).left.Succeeded →
      ¬ (r.run h (first ++ second)).right.Succeeded) := by
  rw [calls_eq hm hn]
  refine ⟨fun order => succeeded_iff, exists_succeeded_iff, fun ho first second hfirst hleft => ?_⟩
  exact not_succeeded_after (eq_or_mem_rivals hm hn ho) hfirst hleft

/-! ### Overlapping ranges -/

theorem nested_named : ∀ n ∈ nestedNodes, Plan.named nestedTopology n.id = .ok n := by
  rw [nestedTopology_eq, nestedNodes_eq]
  decide

theorem nested_rivals :
    rivals nestedTopology [] ⟨⟨0, some (.fused 0 3)⟩, "/dev/npu0pe0-3"⟩ =
        [⟨⟨0, some (.fused 1 2)⟩, "/dev/npu0pe1-2"⟩, ⟨⟨0, some (.fused 3 4)⟩, "/dev/npu0pe3-4"⟩] ∧
      rivals nestedTopology [] ⟨⟨0, some (.fused 1 2)⟩, "/dev/npu0pe1-2"⟩ =
        [⟨⟨0, some (.fused 0 3)⟩, "/dev/npu0pe0-3"⟩] := by
  rw [nestedTopology_eq, nestedNodes_eq]
  decide

/-- Whoever asks for a node of the idle host alone is given it. -/
theorem nested_run_find {n : Node} (hn : n ∈ nestedNodes) :
    ((find nestedTopology (.explicit [n.id])).run nestedHost []).1 = .ok [⟨n, nestedFile n⟩] := by
  have hquiet := heldIn_of_mem_rivals (n := n) nested_idle.opens
  rw [find_eq_seek (nested_named n hn),
    run_seek_free hquiet (nested_openNode n hn) List.not_mem_nil]

/-- The hypotheses hold of two overlapping ranges of an idle host, and there is an order in which
both calls succeed. -/
theorem Race.calls_both_succeed_nested :
    let m : Node := ⟨⟨0, some (.fused 1 2)⟩, "/dev/npu0pe1-2"⟩
    let n : Node := ⟨⟨0, some (.fused 0 3)⟩, "/dev/npu0pe0-3"⟩
    Plan.named nestedTopology m.id = .ok m ∧ Plan.named nestedTopology n.id = .ok n ∧
      ∃ order, ((calls nestedTopology m.id n.id []).run nestedHost order).left.Succeeded ∧
        ((calls nestedTopology m.id n.id []).run nestedHost order).right.Succeeded := by
  intro m n
  have hm : m ∈ nestedNodes := by simp [nestedNodes_eq, m]
  have hn : n ∈ nestedNodes := by simp [nestedNodes_eq, n]
  refine ⟨nested_named m hm, nested_named n hn,
    (calls_both_succeed (nested_named m hm) (nested_named n hn)).2.1.2
      ⟨⟨_, nested_run_find hm⟩, ⟨_, nested_run_find hn⟩, ?_⟩⟩
  rw [nested_openNode m hm, nested_openNode n hn]
  decide

/-- Every node is a file of its own and nobody holds one. The left call looks at the outer range,
the right one locks it, and then the left one locks the range inside it. -/
theorem Race.calls_nested_together :
    let m : Node := ⟨⟨0, some (.fused 1 2)⟩, "/dev/npu0pe1-2"⟩
    let n : Node := ⟨⟨0, some (.fused 0 3)⟩, "/dev/npu0pe0-3"⟩
    let r := (calls nestedTopology m.id n.id []).run nestedHost
      [.left, .left, .right, .right, .right, .right, .right, .left]
    nestedTopology.Idle nestedHost [] ∧ m.overlaps n = true ∧
      r.left = .done (.ok [⟨m, 1⟩]) ∧ r.right = .done (.ok [⟨n, 0⟩]) := by
  intro m n r
  have hm : m ∈ nestedNodes := by simp [nestedNodes_eq, m]
  have hn : n ∈ nestedNodes := by simp [nestedNodes_eq, n]
  have h0 := nested_openNode n hn
  have h1 := nested_openNode m hm
  have h2 := nested_openNode ⟨⟨0, some (.fused 3 4)⟩, "/dev/npu0pe3-4"⟩ (by simp [nestedNodes_eq])
  refine ⟨nested_idle, rfl, ?_⟩
  simp only [r, calls_eq (nested_named m hm) (nested_named n hn)]
  simp only [m, n, nested_rivals] at h0 h1 h2 ⊢
  simp [run, turn, seek_cons, seek_nil, Attempt.step, Locks.acquire, Locks.release, h0, h1, h2,
    nestedFile]

/-! ## One unit -/

/-- **Exactly one of two calls for one unit wins.** All nodes exist and nobody holds one, and nodes
may lead to one file. In every order of turns each call is over after two turns for each node that
overlaps the unit, and one more. When both are over one of them has the unit and the other found it
busy, and nothing else has come to be locked. -/
theorem Race.calls_one_wins (hu : ∃ n, t.Listed n ∧ n.id = u)
    (hfree : ∀ n, t.Has n → ∃ file, h.openNode n.path = .ok file ∧ file ∉ s) :
    ∃ n file, t.Listed n ∧ n.id = u ∧ h.openNode n.path = .ok file ∧ ∀ order,
      let r := (calls t u u s).run h order
      (∀ x y, r.left = .done x → r.right = .done y →
        (x = .ok [⟨n, file⟩] ∧ y = .error (.busy u.name) ∨
          x = .error (.busy u.name) ∧ y = .ok [⟨n, file⟩]) ∧ r.locks.Perm (file :: s)) ∧
      (2 * (rivals t [] n).length + 1 ≤ order.count .left → ∃ x, r.left = .done x) ∧
      (2 * (rivals t [] n).length + 1 ≤ order.count .right → ∃ y, r.right = .done y) := by
  obtain ⟨x, hx, rfl⟩ := hu
  obtain ⟨n, hn, hid⟩ := Plan.named_of_listed hx
  have hlisted := (Plan.named_spec hn).2
  obtain ⟨file, hfile, hunlocked⟩ := hfree n hlisted.has
  have hquiet := heldIn_of_mem_rivals (n := n) hfree
  have hname : x.id.name = n.name := by rw [Node.name, hid]
  refine ⟨n, file, hlisted, hid, hfile, fun order => ?_⟩
  rw [calls_eq hn hn, hname]
  exact ⟨fun x y hx hy => one_succeeds hquiet hfile hunlocked hx hy, ended_of_le_count⟩

/-- The hypotheses hold of the outer range of an idle host, and five turns each are enough. -/
theorem Race.calls_one_wins_nested :
    let n : Node := ⟨⟨0, some (.fused 0 3)⟩, "/dev/npu0pe0-3"⟩
    let r := (calls nestedTopology n.id n.id []).run nestedHost
      (List.replicate 5 [Side.left, Side.right]).flatten
    (∃ m, nestedTopology.Listed m ∧ m.id = n.id) ∧
      (∀ m, nestedTopology.Has m → ∃ file, nestedHost.openNode m.path = .ok file ∧ file ∉ []) ∧
      ∃ x y, r.left = .done x ∧ r.right = .done y ∧
        (x = .ok [⟨n, 0⟩] ∧ y = .error (.busy n.name) ∨
          x = .error (.busy n.name) ∧ y = .ok [⟨n, 0⟩]) := by
  intro n r
  have hn : n ∈ nestedNodes := by simp [nestedNodes_eq, n]
  have hlisted := (Plan.named_spec (nested_named n hn)).2
  refine ⟨⟨n, hlisted, rfl⟩, nested_idle.opens, ?_⟩
  obtain ⟨m, file, hm, hid, hfile, hrun⟩ := calls_one_wins ⟨n, hlisted, rfl⟩ nested_idle.opens
  obtain rfl : m = n := by
    have hsame := nested_named m (nested_has.1 hm.has)
    rw [hid, nested_named n hn, Except.ok.injEq] at hsame
    exact hsame.symm
  obtain rfl : 0 = file := by
    have hfirst : nestedHost.openNode "/dev/npu0pe0-3" = .ok 0 := nested_openNode n hn
    exact Except.ok.inj (hfirst.symm.trans hfile)
  obtain ⟨hdone, hleft, hright⟩ := hrun (List.replicate 5 [Side.left, Side.right]).flatten
  rw [nested_rivals.1] at hleft hright
  obtain ⟨x, hx⟩ := hleft (by decide)
  obtain ⟨y, hy⟩ := hright (by decide)
  exact ⟨x, y, hx, hy, (hdone x y hx hy).1⟩

end NpuBroker

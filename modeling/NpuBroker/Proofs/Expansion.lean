import NpuBroker.Plan
import NpuBroker.Proofs.Listing

/-!
# What a plan consists of

A plan holds nodes of its topology and nothing else: for a structured request the same candidates
again and again, for an explicit one the named nodes, one by one.

* `expand_structured_iff`, `expand_explicit_iff`: when a request is expanded, and to what.
* `expand_has`: every candidate of a plan is a node of the topology.
-/
namespace NpuBroker.Plan

variable {t : Topology} {p : Plan}

theorem named_eq_ok_iff {u : UnitId} {n : Node} :
    named t u = .ok n ↔ ∃ d, t.device? u.device = some d ∧ d.find? u = some n := by
  unfold named
  split
  · rename_i h
    simp [h]
  · rename_i d h
    cases hf : d.find? u <;> simp [h, hf]

/-- A named node is the unit asked for, and listed under its device. -/
theorem named_spec {u : UnitId} {n : Node} (h : named t u = .ok n) : n.id = u ∧ t.Listed n := by
  obtain ⟨d, hd, hf⟩ := named_eq_ok_iff.1 h
  have hid : n.id = u := by simpa using List.find?_some hf
  exact ⟨hid, d, hid ▸ hd, List.mem_of_find?_eq_some hf⟩

/-- A unit that the topology lists can be named. -/
theorem named_of_listed {m : Node} (hm : t.Listed m) : ∃ n, named t m.id = .ok n ∧ n.id = m.id := by
  obtain ⟨d, hd, hmem⟩ := hm
  obtain ⟨n, hn⟩ : ∃ n, d.find? m.id = some n :=
    Option.isSome_iff_exists.1 (List.find?_isSome.2 ⟨m, hmem, by simp⟩)
  have hnamed : named t m.id = .ok n := named_eq_ok_iff.2 ⟨d, hd, hn⟩
  exact ⟨n, hnamed, (named_spec hnamed).1⟩

/-- Units are named one by one, each after its own node. -/
theorem mapM_named_iff {units : List UnitId} {nodes : List Node} :
    units.mapM (named t) = .ok nodes ↔
      nodes.map Node.id = units ∧ ∀ n ∈ nodes, named t n.id = .ok n := by
  induction units generalizing nodes with
  | nil =>
    rw [List.map_eq_nil_iff]
    constructor
    · rintro ⟨⟩
      simp
    · rintro ⟨rfl, -⟩
      rfl
  | cons u us ih =>
    rw [List.mapM_cons]
    cases hu : named t u with
    | error f =>
      simp only [bind, Except.bind, reduceCtorEq, false_iff, not_and, not_forall]
      intro hm
      obtain ⟨n, ns, rfl, rfl, -⟩ := List.map_eq_cons_iff.1 hm
      exact ⟨n, List.mem_cons_self, by simp [hu]⟩
    | ok m =>
      have hid := (named_spec hu).1
      subst hid
      simp only [bind, Except.bind]
      cases hus : us.mapM (named t) with
      | error f =>
        simp only [reduceCtorEq, false_iff, not_and]
        intro hm hall
        obtain ⟨n, ns, rfl, -, hns⟩ := List.map_eq_cons_iff.1 hm
        rw [List.forall_mem_cons] at hall
        simpa [hus] using ih.2 ⟨hns, hall.2⟩
      | ok ms =>
        obtain ⟨hms, hall⟩ := ih.1 hus
        subst hms
        simp only [pure, Except.pure, Except.ok.injEq]
        constructor
        · rintro rfl
          exact ⟨rfl, List.forall_mem_cons.2 ⟨hu, hall⟩⟩
        · rintro ⟨hm, hall'⟩
          obtain ⟨n, ns, rfl, hn, hns⟩ := List.map_eq_cons_iff.1 hm
          rw [List.forall_mem_cons] at hall'
          have hnm : n = m := by simpa [hn, hu, eq_comm] using hall'.1
          have := ih.2 ⟨hns, hall'.2⟩
          rw [hus, Except.ok.injEq] at this
          rw [hnm, this]

theorem mem_candidates {arch : Arch} {mode : Mode} {n : Node} :
    n ∈ candidates t arch mode ↔ ∃ d ∈ t, d.arch = arch ∧ n ∈ d.nodes ∧ n.id.mode = mode := by
  simp [candidates, Device.withMode, and_assoc]

/-- What holds between the nodes of a device in order, and between nodes of devices in order, holds
between the candidates in order. -/
theorem candidates_pairwise {arch : Arch} {mode : Mode} {R : Node → Node → Prop}
    (hw : t.WellFormed)
    (hsame : ∀ d ∈ t, d.arch = arch → (d.withMode mode).Pairwise R)
    (hlt : ∀ m n : Node, m.id.device < n.id.device → R m n) :
    (candidates t arch mode).Pairwise R := by
  rw [candidates, List.pairwise_flatMap]
  refine ⟨fun d hd => ?_, ?_⟩
  · rw [List.mem_filter, decide_eq_true_eq] at hd
    exact hsame d hd.1 hd.2
  refine (hw.ascending.filter _).imp_of_mem fun {d e} hd he hde m hm n hn => hlt m n ?_
  rw [hw.own d (List.mem_filter.1 hd).1 m (List.mem_filter.1 hm).1,
    hw.own e (List.mem_filter.1 he).1 n (List.mem_filter.1 hn).1]
  exact hde

/-- A structured request that asks for something is refused only when it asks for too much. -/
theorem expand_structured_eq {arch : Arch} {mode : Mode} {count : Index} (hc : count ≠ 0) :
    expand (.structured arch mode count) t =
      if available (candidates t arch mode) < count.val then
        .error (.insufficient (Request.structured arch mode count).text count
          (available (candidates t arch mode)))
      else
        .ok ⟨(Request.structured arch mode count).text,
          List.replicate count (candidates t arch mode), .allOrNothing⟩ := by
  simp only [expand, Request.check_structured.2 hc, bind, Except.bind]
  split <;> rfl

theorem expand_structured_iff {arch : Arch} {mode : Mode} {count : Index} :
    expand (.structured arch mode count) t = .ok p ↔
      count ≠ 0 ∧ count.val ≤ available (candidates t arch mode) ∧
        p = ⟨(Request.structured arch mode count).text,
          List.replicate count (candidates t arch mode), .allOrNothing⟩ := by
  by_cases hc : count = 0
  · simp [expand, Request.check, hc, bind, Except.bind]
  · rw [expand_structured_eq hc]
    split
    · rename_i hlt
      simp [Nat.not_le.2 hlt]
    · rename_i hge
      simp [hc, eq_comm, Nat.le_of_not_lt hge]

theorem expand_explicit_iff {units : List UnitId} :
    expand (.explicit units) t = .ok p ↔
      (Request.explicit units).check = .ok () ∧
        ∃ nodes : List Node, nodes.map Node.id = units ∧ (∀ n ∈ nodes, named t n.id = .ok n) ∧
          p = ⟨(Request.explicit units).text, nodes.map ([·]), .bestEffort⟩ := by
  unfold expand
  cases hc : (Request.explicit units).check with
  | error f => simp [bind, Except.bind]
  | ok _ =>
    simp only [bind, Except.bind, ← and_assoc, ← mapM_named_iff]
    cases hm : units.mapM (named t) with
    | error f => simp
    | ok nodes => simp [pure, Except.pure, eq_comm]

/-- A request for one unit comes to a group of its own node. -/
theorem expand_one {n : Node} (hn : named t n.id = .ok n) :
    expand (.explicit [n.id]) t =
      .ok ⟨(Request.explicit [n.id]).text, [[n]], .bestEffort⟩ :=
  expand_explicit_iff.2 ⟨Request.check_explicit.2 (by simp), [n], rfl, by simpa using hn, rfl⟩

/-- Every candidate of a plan is a node of the topology. -/
theorem expand_has {request : Request} (he : expand request t = .ok p) :
    ∀ g ∈ p.groups, ∀ n ∈ g, t.Has n := by
  intro g hg n hn
  cases request with
  | structured arch mode count =>
    obtain ⟨-, -, rfl⟩ := expand_structured_iff.1 he
    obtain rfl := List.eq_of_mem_replicate hg
    obtain ⟨d, hd, -, hn, -⟩ := mem_candidates.1 hn
    exact ⟨d, hd, hn⟩
  | explicit units =>
    obtain ⟨-, nodes, -, hu, rfl⟩ := expand_explicit_iff.1 he
    obtain ⟨m, hm, rfl⟩ := List.mem_map.1 hg
    obtain rfl := List.mem_singleton.1 hn
    exact (named_spec (hu n hm)).2.has

/-- No request is expanded to nothing. -/
theorem expand_groups_ne_nil {request : Request} (he : expand request t = .ok p) :
    p.groups ≠ [] := by
  cases request with
  | structured arch mode count =>
    obtain ⟨hc, -, rfl⟩ := expand_structured_iff.1 he
    intro hnil
    exact hc (Fin.ext (List.replicate_eq_nil_iff _ |>.1 hnil))
  | explicit units =>
    obtain ⟨hc, nodes, rfl, -, rfl⟩ := expand_explicit_iff.1 he
    have := (Request.check_explicit.1 hc).1
    simpa using this

end NpuBroker.Plan

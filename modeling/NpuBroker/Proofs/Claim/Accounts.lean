import NpuBroker.Proofs.Claim.Usable
import NpuBroker.Proofs.Specifier.Meaning

/-!
# What a request is answered

A call accounts for the groups of its plan one by one: it has a claim from a group, or notes that
the group is busy, which under all or nothing is the end of it. What a call says of itself follows
from that account. As many units are claimed as were asked for, or some of those that were named;
and a call that has nothing names all its groups, which together are the request.

* `Claim.run_group?_ne_busy`: a search that fails does so because of the host, never because
  candidates are held.
* `Claim.Accounted`, `Claim.run_groups_accounted`: the account of the groups gone through so far,
  and that of a whole run.
* `Claim.Gathered.sublist`: claims are candidates in the order of the groups.
* `find_accounted`: how an answer goes with the request.
-/
namespace NpuBroker

variable {h : Host} {t : Topology} {s l : Locks} {p : Plan}

namespace Claim

/-! ## Searches that fail -/

theorem anyHeldIn_ne_busy {ns : List Node} {name : String} :
    anyHeldIn h l ns ≠ .error (.busy name) := by
  induction ns with
  | nil => simp [anyHeldIn]
  | cons n ns ih =>
    unfold anyHeldIn
    split
    · exact ih
    · unfold Node.heldIn
      split <;> simp

theorem run_node?_ne_busy {n : Node} {name : String} :
    ((node? n).run h l).1 ≠ .error (.busy name) := by
  rw [run_node?]
  split
  · simp
  · simp
  · split <;> simp

theorem run_candidate?_ne_busy {claimed : List Claim} {n : Node} {name : String} :
    ((candidate? t claimed n).run h l).1 ≠ .error (.busy name) := by
  rw [run_candidate?]
  split
  · simp
  · split
    · rename_i f hf
      rintro ⟨⟩
      exact anyHeldIn_ne_busy hf
    · simp
    · exact run_node?_ne_busy

/-- A search fails because of the host alone: that all candidates are held is an answer. -/
theorem run_group?_ne_busy {claimed : List Claim} {g : List Node} {name : String} :
    ((group? t claimed g).run h l).1 ≠ .error (.busy name) := by
  induction g generalizing l with
  | nil => simp [group?]
  | cons n ns ih =>
    simp only [group?, Attempt.run_bind]
    split
    · exact ih
    · exact run_candidate?_ne_busy

/-! ## The account of a call -/

/-- What is known of the claims and of the busy names once the groups `done` were gone through. -/
structure Accounted (p : Plan) (done : List (List Node)) (claimed : List Claim)
    (busy : List String) : Prop where
  total : claimed.length + busy.length = done.length
  strict : p.policy = .allOrNothing → busy = []
  named : claimed = [] → busy = done.map groupName

namespace Accounted

variable {done : List (List Node)} {claimed : List Claim} {busy : List String}

theorem start : Accounted p [] [] [] := ⟨rfl, fun _ => rfl, fun _ => rfl⟩

theorem take (ha : Accounted p done claimed busy) (g : List Node) (c : Claim) :
    Accounted p (done ++ [g]) (claimed ++ [c]) busy where
  total := by
    have := ha.total
    simp only [List.length_append, List.length_singleton]
    omega
  strict := ha.strict
  named hnil := absurd hnil (by simp)

theorem skip (ha : Accounted p done claimed busy) (g : List Node) (hp : p.policy = .bestEffort) :
    Accounted p (done ++ [g]) claimed (busy ++ [groupName g]) where
  total := by
    have := ha.total
    simp only [List.length_append, List.length_singleton]
    omega
  strict hstrict := by rw [hp] at hstrict; cases hstrict
  named hnil := by rw [ha.named hnil, List.map_append, List.map_singleton]

end Accounted

/-- Groups are refused as a whole only under all or nothing, and then by the text of the request;
else each of them is accounted for. -/
theorem run_groups_accounted {done gs : List (List Node)} {claimed : List Claim}
    {busy : List String} (ha : Accounted p done claimed busy) :
    (∀ name, ((groups t p gs claimed busy).run h l).1 = .error (.busy name) →
      name = p.request) ∧
    ∀ cs names, ((groups t p gs claimed busy).run h l).1 = .ok (cs, names) →
      Accounted p (done ++ gs) cs names := by
  induction gs generalizing done claimed busy l with
  | nil =>
    refine ⟨fun name hbusy => ?_, fun cs names hok => ?_⟩
    · cases hbusy
    · cases hok
      rwa [List.append_nil]
  | cons g gs ih =>
    have hsearch := fun name => @run_group?_ne_busy h t l claimed g name
    simp only [groups, Attempt.run_bind]
    cases hg : ((group? t claimed g).run h l).1 with
    | error f =>
      refine ⟨fun name hbusy => ?_, fun cs names hok => ?_⟩
      · simp only [Attempt.run_bind, Attempt.run_pure, Except.error.injEq] at hbusy
        exact absurd (hg.trans (congrArg Except.error hbusy)) (hsearch name)
      · simp at hok
    | ok found =>
      cases found with
      | some c => simpa using ih (ha.take g c)
      | none =>
        cases hp : p.policy with
        | allOrNothing =>
          refine ⟨fun name hbusy => ?_, fun cs names hok => ?_⟩
          · simp only [Attempt.run_bind, Attempt.run_pure, Except.error.injEq,
              Fault.busy.injEq] at hbusy
            exact hbusy.symm
          · simp at hok
        | bestEffort => simpa using ih (ha.skip g hp)

/-- A plan that is busy is so by the text of its request, or by the names of all its groups. -/
theorem run_resolve_busy {name : String}
    (hbusy : ((resolve t p).run h s).1 = .error (.busy name)) :
    name = p.request ∨
      p.policy = .bestEffort ∧ name = ",".intercalate (p.groups.map groupName) := by
  obtain ⟨hrefused, haccount⟩ := @run_groups_accounted h t s p [] p.groups [] [] .start
  simp only [resolve, Attempt.run_bind] at hbusy
  split at hbusy
  · rename_i f hgroups
    cases hbusy
    exact .inl (hrefused name hgroups)
  · cases hbusy
    exact .inl rfl
  · rename_i names hne hgroups
    have ha := haccount [] names hgroups
    cases hbusy
    have hnames : names = p.groups.map groupName := ha.named rfl
    cases hp : p.policy with
    | allOrNothing => exact absurd (ha.strict hp) hne
    | bestEffort => exact .inr ⟨rfl, by rw [hnames]⟩
  · cases hbusy

/-- A plan that is resolved is accounted for. -/
theorem run_resolve_accounted {cs : List Claim} (hok : ((resolve t p).run h s).1 = .ok cs) :
    ∃ busy, Accounted p p.groups cs busy := by
  have haccount := (@run_groups_accounted h t s p [] p.groups [] [] .start).2
  simp only [resolve, Attempt.run_bind] at hok
  split at hok
  · cases hok
  · cases hok
  · cases hok
  · rename_i claims busy hne hne' hgroups
    cases hok
    exact ⟨busy, haccount _ _ hgroups⟩

/-- The claims are of candidates, in the order of their groups. -/
theorem Gathered.sublist {gs : List (List Node)} {cs : List Claim} (hg : Gathered h t s gs cs l) :
    (cs.map node).Sublist gs.flatten := by
  induction hg with
  | start => exact .slnil
  | skip _ ih =>
    rw [List.flatten_concat]
    exact ih.trans (List.sublist_append_left _ _)
  | take _ hn _ ih =>
    rw [List.flatten_concat, List.map_append, List.map_singleton]
    exact ih.append (List.singleton_sublist.2 hn)

end Claim

/-! ## Requests -/

/-- A request that cannot be expanded is not one that the topology can meet, whoever holds what. -/
theorem Plan.expand_ne_busy {request : Request} {name : String} :
    expand request t ≠ .error (.busy name) := by
  intro hbusy
  rcases bind_eq_error_iff.1 hbusy with hcheck | ⟨-, -, hrest⟩
  · cases Request.check_eq_error hcheck
  · cases request with
    | structured arch mode count =>
      dsimp only at hrest
      split at hrest <;> cases hrest
    | explicit units =>
      rcases bind_eq_error_iff.1 hrest with hnamed | ⟨nodes, -, hdone⟩
      · obtain ⟨u, -, hu⟩ := mapM_eq_error hnamed
        unfold named at hu
        split at hu
        · cases hu
        · split at hu <;> cases hu
      · cases hdone

/-- What is busy is the request, however its plan is resolved. -/
theorem Claim.find_busy {request : Request} {name : String}
    (hbusy : ((find t request).run h s).1 = .error (.busy name)) : name = request.text := by
  unfold find at hbusy
  split at hbusy
  · rename_i f he
    rw [Attempt.run_pure, Except.error.injEq] at hbusy
    exact absurd (hbusy ▸ he) Plan.expand_ne_busy
  · rename_i p he
    cases request with
    | structured arch mode count =>
      obtain ⟨-, -, rfl⟩ := Plan.expand_structured_iff.1 he
      rcases run_resolve_busy hbusy with hname | ⟨hpolicy, -⟩
      · exact hname
      · cases hpolicy
    | explicit units =>
      obtain ⟨-, nodes, rfl, -, rfl⟩ := Plan.expand_explicit_iff.1 he
      rcases run_resolve_busy hbusy with hname | ⟨-, hname⟩
      · exact hname
      · exact hname.trans (intercalate_groupName nodes)

/-- A request that is met is expanded to a plan, from which its claims are gathered and which they
account for. -/
theorem Claim.find_ok {request : Request} {cs : List Claim}
    (hok : ((find t request).run h s).1 = .ok cs) :
    ∃ p m busy, Plan.expand request t = .ok p ∧ cs ≠ [] ∧ Gathered h t s p.groups cs m ∧
      Accounted p p.groups cs busy := by
  rcases @run_find h t s request with ⟨f, hr⟩ | ⟨p, cs', m, he, hr, hne, hg⟩
  · rw [hr] at hok
    cases hok
  · have hresolve : ((resolve t p).run h s).1 = .ok cs := by
      rw [find, he] at hok
      exact hok
    obtain ⟨busy, ha⟩ := run_resolve_accounted hresolve
    rw [hr] at hok
    cases hok
    exact ⟨p, m, busy, he, hne, hg, ha⟩

/-- **What a request is answered.** Whatever is on the host, whatever the topology, the request and
the locks: a call that finds everything busy says so by the text of the request. A call that
succeeds has claims, no two of which overlap. For so many units of a size and an architecture they
are as many, each a node of the topology of that size on a device of that architecture. For units
that are named they are of nodes of the topology that are some of these units, in the order in
which they are named. -/
theorem find_accounted (h : Host) (t : Topology) (request : Request) (s : Locks) :
    let answer := ((Claim.find t request).run h s).1
    (∀ name, answer = .error (.busy name) → name = request.text) ∧
    ∀ cs, answer = .ok cs →
      cs ≠ [] ∧ (cs.Pairwise fun a b => a.node.overlaps b.node = false) ∧
      (∀ arch mode count, request = .structured arch mode count → cs.length = count.val ∧
        ∀ c ∈ cs, ∃ d ∈ t, d.arch = arch ∧ c.node ∈ d.nodes ∧ c.node.id.mode = mode) ∧
      ∀ units, request = .explicit units → 1 ≤ cs.length ∧ cs.length ≤ units.length ∧
        (cs.map fun c => c.node.id).Sublist units ∧ ∀ c ∈ cs, t.Has c.node := by
  intro answer
  refine ⟨fun name => Claim.find_busy, fun cs hok => ?_⟩
  obtain ⟨p, m, busy, he, hne, hg, ha⟩ := Claim.find_ok hok
  refine ⟨hne, hg.apart, ?_, ?_⟩
  · rintro arch mode count rfl
    obtain ⟨-, -, rfl⟩ := Plan.expand_structured_iff.1 he
    refine ⟨?_, fun c hc => ?_⟩
    · have hbusy : busy = [] := ha.strict rfl
      have htotal := ha.total
      rwa [hbusy, List.length_nil, List.length_replicate] at htotal
    · obtain ⟨g, hgroup, hcg⟩ := hg.mem_group c hc
      rw [List.eq_of_mem_replicate hgroup] at hcg
      exact Plan.mem_candidates.1 hcg
  · rintro units rfl
    obtain ⟨-, nodes, rfl, hnamed, rfl⟩ := Plan.expand_explicit_iff.1 he
    have hsub : (cs.map Claim.node).Sublist nodes := by
      have hflat : (nodes.map ([·])).flatten = nodes :=
        List.flatMap_def.symm.trans (List.flatMap_singleton' nodes)
      exact hflat ▸ hg.sublist
    have hids : (cs.map fun c => c.node.id).Sublist (nodes.map Node.id) := by
      have hmap := hsub.map Node.id
      rwa [List.map_map] at hmap
    refine ⟨List.length_pos_iff.2 hne, ?_, hids, fun c hc => ?_⟩
    · have hlength := hids.length_le
      rwa [List.length_map] at hlength
    · exact (Plan.named_spec (hnamed _ (hsub.subset (List.mem_map_of_mem hc)))).2.has

/-- With the last two ranges locked a request that names both is busy by both names, and with one
of them locked a request for one range is met. -/
theorem find_accounted_nested :
    let named : Request := .explicit [⟨0, some (.fused 1 2)⟩, ⟨0, some (.fused 3 4)⟩]
    let counted : Request := .structured .rngd .fused 1
    (∃ name, ((Claim.find nestedTopology named).run nestedHost [1, 2]).1 = .error (.busy name) ∧
      name = "npu0pe1-2,npu0pe3-4") ∧
    ∃ cs, ((Claim.find nestedTopology counted).run nestedHost [1]).1 = .ok cs ∧ cs.length = 1 ∧
      ∀ c ∈ cs, ∃ d ∈ nestedTopology, d.arch = .rngd ∧ c.node ∈ d.nodes ∧
        c.node.id.mode = .fused := by
  intro named counted
  have hopen := nested_idle.openable nested_proper
  have hlocked : nestedNodes.map (nestedTopology.usable nestedHost [1, 2]) =
      [false, false, false] := by
    rw [List.map_congr_left fun n hn => nested_usable hn]
    decide
  have hfree : nestedNodes.map (nestedTopology.usable nestedHost [1]) = [false, false, true] := by
    rw [List.map_congr_left fun n hn => nested_usable hn]
    decide
  rw [nestedNodes_eq] at hlocked hfree
  simp only [List.map_cons, List.map_nil, List.cons.injEq] at hlocked hfree
  constructor
  · have he : Plan.expand named nestedTopology = .ok ⟨named.text,
        [[⟨⟨0, some (.fused 1 2)⟩, "/dev/npu0pe1-2"⟩],
          [⟨⟨0, some (.fused 3 4)⟩, "/dev/npu0pe3-4"⟩]], .bestEffort⟩ := by
      rw [nestedTopology_eq]
      decide
    have hrun := @Claim.run_find_eq nestedHost nestedTopology [1, 2] _ _ hopen he
    simp only [Plan.select, Plan.picks?, Plan.pick?, List.find?_cons, List.find?_nil, hlocked,
      Bool.false_and] at hrun
    have hbusy := map_eq_error_iff.1 hrun
    have htext : named.text = "npu0pe1-2,npu0pe3-4" := by decide
    exact ⟨_, hbusy,
      ((find_accounted nestedHost nestedTopology named [1, 2]).1 _ hbusy).trans htext⟩
  · have he := @nested_expand 1 (by decide) (by decide)
    have hselect : Plan.select (nestedTopology.usable nestedHost [1])
        ⟨counted.text, List.replicate 1 nestedNodes, .allOrNothing⟩ =
        .ok [⟨⟨0, some (.fused 3 4)⟩, "/dev/npu0pe3-4"⟩] := by
      rw [nestedNodes_eq]
      simp [Plan.select, Plan.picks?, Plan.pick?, hfree]
    have hrun := (@Claim.run_find_eq nestedHost nestedTopology [1] _ _ hopen he).trans hselect
    obtain ⟨cs, hok, -⟩ := map_eq_ok_iff.1 hrun
    obtain ⟨-, -, hcount, -⟩ := (find_accounted nestedHost nestedTopology counted [1]).2 cs hok
    obtain ⟨hlength, hoffers⟩ := hcount .rngd .fused 1 rfl
    exact ⟨cs, hok, hlength, hoffers⟩

end NpuBroker

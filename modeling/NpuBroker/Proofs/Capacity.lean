import NpuBroker.Proofs.Claim.FirstFit
import Mathlib.Data.Finset.Pairwise
import Mathlib.Order.Bounds.Basic

/-!
# Capacity

How many units of a size a topology has room for. Candidates are scanned by where they end, and
each is taken that overlaps none before it. Every candidate overlaps a taken one that ends no
later than it does, and two candidates that share such a one overlap each other, so no choice of
disjoint candidates is larger than the scan's.

* `available_isGreatest`: the scan counts the largest set of units that fit beside each other.
* `expand_structured_exact`: a structured request is refused exactly when it asks for more.
-/
namespace NpuBroker

/-! ## Room on a topology -/

namespace Topology

/-- The node has this size and is on a device of this architecture. -/
def Offers (t : Topology) (arch : Arch) (mode : Mode) (n : Node) : Prop :=
  ∃ d ∈ t, d.arch = arch ∧ n ∈ d.nodes ∧ n.id.mode = mode

instance (t : Topology) (arch : Arch) (mode : Mode) : DecidablePred (t.Offers arch mode) :=
  fun n => inferInstanceAs (Decidable (∃ d ∈ t, d.arch = arch ∧ n ∈ d.nodes ∧ n.id.mode = mode))

/-- Nodes of this size and architecture that can all be in use at once. -/
structure Fits (t : Topology) (arch : Arch) (mode : Mode) (S : Finset Node) : Prop where
  offered : ∀ n ∈ S, t.Offers arch mode n
  apart : (S : Set Node).Pairwise fun m n => m.overlaps n = false

end Topology

namespace Plan

/-! ## The order of the scan -/

theorem endsBefore_iff {m n : Node} :
    endsBefore m n = true ↔ m.id.device.val < n.id.device ∨
      m.id.device.val = n.id.device ∧ endPe m ≤ endPe n := by
  simp only [endsBefore, Bool.or_eq_true, Bool.and_eq_true, decide_eq_true_eq, beq_iff_eq,
    Fin.lt_def, Fin.ext_iff]

theorem endsBefore_refl (n : Node) : endsBefore n n = true := by
  simp [endsBefore_iff]

theorem endsBefore_trans {a b c : Node} (hab : endsBefore a b = true)
    (hbc : endsBefore b c = true) : endsBefore a c = true := by
  rw [endsBefore_iff] at *
  omega

theorem endsBefore_total (a b : Node) : (endsBefore a b || endsBefore b a) = true := by
  rw [Bool.or_eq_true, endsBefore_iff, endsBefore_iff]
  omega

/-- Two nodes that reach back to where a third ends, which is no later than they do themselves,
share the PE there. -/
theorem overlaps_of_endsBefore {c m n : Node} (hc : c.id.Proper) (hm : m.id.Proper)
    (hn : n.id.Proper) (hcm : c.overlaps m = true) (hcn : c.overlaps n = true)
    (hem : endsBefore c m = true) (hen : endsBefore c n = true) : m.overlaps n = true := by
  rw [endsBefore_iff] at hem hen
  simp only [Node.overlaps, UnitId.overlaps, Bool.and_eq_true, beq_iff_eq] at hcm hcn ⊢
  obtain ⟨hdm, hsm⟩ := hcm
  obtain ⟨hdn, hsn⟩ := hcn
  refine ⟨hdm.symm.trans hdn, ?_⟩
  rw [← hdm] at hem
  rw [← hdn] at hen
  cases hms : m.id.span with
  | none => rfl
  | some a =>
    cases hns : n.id.span with
    | none => rfl
    | some b =>
      have hem : endPe c ≤ a.last := by
        rw [← endPe_eq hm hms]
        omega
      have hen : endPe c ≤ b.last := by
        rw [← endPe_eq hn hns]
        omega
      -- the end of `c` is a PE of both
      have hfirst : a.first.val ≤ endPe c ∧ b.first.val ≤ endPe c := by
        cases hcs : c.id.span with
        | none =>
          have : endPe c = 255 := by simp [endPe, hcs]
          omega
        | some s =>
          simp only [hcs, hms, hns, Span.overlaps, Bool.and_eq_true, decide_eq_true_eq] at hsm hsn
          rw [endPe_eq hc hcs]
          exact ⟨hsm.2, hsn.2⟩
      simp only [Span.overlaps, Bool.and_eq_true, decide_eq_true_eq, Fin.le_def]
      omega

/-! ## What the scan takes -/

theorem mem_disjointFrom {taken ns : List Node} {n : Node} (h : n ∈ disjointFrom taken ns) :
    n ∈ taken ∨ n ∈ ns := by
  induction ns generalizing taken with
  | nil => exact .inl h
  | cons m ns ih =>
    rw [disjointFrom_cons] at h
    split at h
    · exact (ih h).imp_right (List.mem_cons_of_mem m)
    · rcases ih h with h | h
      · rcases List.mem_append.1 h with h | h
        · exact .inl h
        · exact .inr (by simp [List.mem_singleton.1 h])
      · exact .inr (List.mem_cons_of_mem m h)

theorem pairwise_disjointFrom {taken : List Node} (ns : List Node)
    (h : taken.Pairwise fun m n => m.overlaps n = false) :
    (disjointFrom taken ns).Pairwise fun m n => m.overlaps n = false := by
  induction ns generalizing taken with
  | nil => exact h
  | cons m ns ih =>
    rw [disjointFrom_cons]
    split
    · exact ih h
    · rename_i hnone
      refine ih (List.pairwise_append.2 ⟨h, List.pairwise_singleton _ _, ?_⟩)
      simpa using hnone

/-- Every scanned node overlaps one that is taken and ends no later than it does. -/
theorem exists_mem_disjointFrom {taken ns : List Node}
    (htaken : ∀ c ∈ taken, ∀ n ∈ ns, endsBefore c n = true)
    (hsorted : ns.Pairwise fun m n => endsBefore m n = true)
    (hself : ∀ n ∈ ns, n.overlaps n = true) :
    ∀ n ∈ ns, ∃ c ∈ disjointFrom taken ns, c.overlaps n = true ∧ endsBefore c n = true := by
  induction ns generalizing taken with
  | nil => simp
  | cons m ns ih =>
    rw [List.pairwise_cons] at hsorted
    rw [List.forall_mem_cons] at hself
    have hrest : ∀ c ∈ taken, ∀ n ∈ ns, endsBefore c n = true :=
      fun c hc n hn => htaken c hc n (List.mem_cons_of_mem m hn)
    rw [disjointFrom_cons, List.forall_mem_cons]
    split
    · rename_i hover
      obtain ⟨c, hc, hcm⟩ := List.any_eq_true.1 hover
      exact ⟨⟨c, (prefix_disjointFrom taken ns).subset hc, hcm, htaken c hc m List.mem_cons_self⟩,
        ih hrest hsorted.2 hself.2⟩
    · have hmem : m ∈ disjointFrom (taken ++ [m]) ns :=
        (prefix_disjointFrom (taken ++ [m]) ns).subset (by simp)
      refine ⟨⟨m, hmem, hself.1, endsBefore_refl m⟩, ih ?_ hsorted.2 hself.2⟩
      rw [List.forall_mem_append, List.forall_mem_singleton]
      exact ⟨hrest, hsorted.1⟩

variable {ns : List Node}

theorem sorted_endsBefore (ns : List Node) :
    (ns.mergeSort endsBefore).Pairwise fun m n => endsBefore m n = true :=
  @List.pairwise_mergeSort _ endsBefore (fun _ _ _ => endsBefore_trans) endsBefore_total ns

theorem mem_of_mem_disjoint {n : Node} (h : n ∈ disjoint (ns.mergeSort endsBefore)) : n ∈ ns := by
  rcases mem_disjointFrom h with h | h
  · cases h
  · exact List.mem_mergeSort.1 h

/-- No set of disjoint candidates is larger than the number available. -/
theorem card_le_available (hp : ∀ n ∈ ns, n.id.Proper) {S : Finset Node} (hS : ∀ n ∈ S, n ∈ ns)
    (hapart : (S : Set Node).Pairwise fun m n => m.overlaps n = false) :
    S.card ≤ available ns := by
  have hcover : ∀ n ∈ S, ∃ c ∈ disjoint (ns.mergeSort endsBefore),
      c.overlaps n = true ∧ endsBefore c n = true := fun n hn =>
    exists_mem_disjointFrom (by simp) (sorted_endsBefore ns)
      (fun m hm => (hp m (List.mem_mergeSort.1 hm)).overlaps_self) n
      (List.mem_mergeSort.2 (hS n hn))
  choose! c hc hover hends using hcover
  have hproper : ∀ n ∈ S, (c n).id.Proper := fun n hn => hp _ (mem_of_mem_disjoint (hc n hn))
  -- two disjoint candidates do not share the taken one they overlap
  have hinj : Set.InjOn c S := by
    intro m hm n hn hcmn
    by_contra hne
    have hshare := overlaps_of_endsBefore (hproper m hm) (hp m (hS m hm)) (hp n (hS n hn))
      (hover m hm) (hcmn ▸ hover n hn) (hends m hm) (hcmn ▸ hends n hn)
    rw [hapart hm hn hne] at hshare
    cases hshare
  calc S.card ≤ (disjoint (ns.mergeSort endsBefore)).toFinset.card :=
        Finset.card_le_card_of_injOn c (fun n hn => List.mem_toFinset.2 (hc n hn)) hinj
    _ ≤ (disjoint (ns.mergeSort endsBefore)).length := List.toFinset_card_le _

/-- The taken candidates are disjoint, and as many as are available. -/
theorem exists_card_eq_available (hp : ∀ n ∈ ns, n.id.Proper) :
    ∃ S : Finset Node, (∀ n ∈ S, n ∈ ns) ∧
      ((S : Set Node).Pairwise fun m n => m.overlaps n = false) ∧ S.card = available ns := by
  have hapart : (disjoint (ns.mergeSort endsBefore)).Pairwise fun m n => m.overlaps n = false :=
    pairwise_disjointFrom _ List.Pairwise.nil
  have hnodup : (disjoint (ns.mergeSort endsBefore)).Nodup := by
    refine hapart.imp_of_mem fun {m n} hm _ hmn heq => ?_
    have hself := (hp m (mem_of_mem_disjoint hm)).overlaps_self
    rw [← heq] at hmn
    exact Bool.false_ne_true (hmn.symm.trans hself)
  refine ⟨(disjoint (ns.mergeSort endsBefore)).toFinset, ?_, ?_, ?_⟩
  · exact fun n hn => mem_of_mem_disjoint (List.mem_toFinset.1 hn)
  · have : Std.Symm fun m n : Node => m.overlaps n = false :=
      ⟨fun m n h => (UnitId.overlaps_comm n.id m.id).trans h⟩
    exact (List.pairwise_iff_coe_toFinset_pairwise hnodup).2 hapart
  · exact List.toFinset_card_of_nodup hnodup

/-! ## Structured requests -/

variable {t : Topology} {arch : Arch} {mode : Mode}

/-- **The most that fits.** What is available of a size is the largest number of its units that
can all be in use at once. -/
theorem available_isGreatest (hp : ∀ n, t.Has n → n.id.Proper) :
    IsGreatest {k | ∃ S, t.Fits arch mode S ∧ S.card = k} (available (candidates t arch mode)) := by
  have hproper : ∀ n ∈ candidates t arch mode, n.id.Proper := fun n hn => by
    obtain ⟨d, hd, -, hn, -⟩ := mem_candidates.1 hn
    exact hp n ⟨d, hd, hn⟩
  refine ⟨?_, ?_⟩
  · obtain ⟨S, hS, hapart, hcard⟩ := exists_card_eq_available hproper
    exact ⟨S, ⟨fun n hn => mem_candidates.1 (hS n hn), hapart⟩, hcard⟩
  · rintro _ ⟨S, hS, rfl⟩
    exact card_le_available hproper (fun n hn => mem_candidates.2 (hS.offered n hn)) hS.apart

/-- There is a set of every size up to the largest. -/
theorem exists_fits_iff (hp : ∀ n, t.Has n → n.id.Proper) {k : Nat} :
    (∃ S, t.Fits arch mode S ∧ S.card = k) ↔ k ≤ available (candidates t arch mode) := by
  obtain ⟨⟨S, hS, hcard⟩, hmost⟩ := @available_isGreatest t arch mode hp
  constructor
  · exact fun h => hmost h
  · intro hk
    obtain ⟨T, hTS, hT⟩ := Finset.exists_subset_card_eq (hcard ▸ hk)
    exact ⟨T, ⟨fun n hn => hS.offered n (hTS hn), hS.apart.mono (Finset.coe_subset.2 hTS)⟩, hT⟩

theorem flatMap_filter {α β : Type} (p : α → Prop) [DecidablePred p] (f : α → List β)
    (as : List α) :
    (as.filter p).flatMap f = as.flatMap fun a => if p a then f a else [] := by
  induction as with
  | nil => rfl
  | cons a as ih =>
    rw [List.filter_cons, List.flatMap_cons, ← ih]
    by_cases h : p a <;> simp [h]

/-- The candidates are all nodes that are offered, as the topology lists them. -/
theorem candidates_eq_filter (hw : t.WellFormed) :
    candidates t arch mode = (t.flatMap Device.nodes).filter (t.Offers arch mode) := by
  rw [candidates, List.filter_flatMap, flatMap_filter]
  refine List.flatMap_congr fun d hd => ?_
  -- a node is on one device only
  have hoffers : ∀ n ∈ d.nodes, t.Offers arch mode n ↔ d.arch = arch ∧ n.id.mode = mode := by
    intro n hn
    constructor
    · rintro ⟨e, he, ha, hne, hm⟩
      have hde := hw.device?_of_mem hd hn
      rw [hw.device?_of_mem he hne, Option.some.injEq] at hde
      exact ⟨hde ▸ ha, hm⟩
    · rintro ⟨ha, hm⟩
      exact ⟨d, hd, ha, hn, hm⟩
  split
  · rename_i ha
    refine List.filter_congr fun n hn => ?_
    simp [hoffers n hn, ha]
  · rename_i ha
    refine (List.filter_eq_nil_iff.2 fun n hn => ?_).symm
    simp [hoffers n hn, ha]

/-- Within a device candidates are in order, and those of a lower device come first. -/
theorem candidates_sorted (hw : t.WellFormed) :
    (candidates t arch mode).Pairwise fun m n => m.before n = true := by
  refine candidates_pairwise hw (fun d hd _ => (hw.sorted d hd).filter _) fun m n hlt => ?_
  exact Node.before_iff.2 (.inl (List.cons_lt_cons_iff.2 (.inl hlt)))

/-- **Refused for lack of units.** On a topology put together from the nodes at any paths,
whatever the devices turn out to be, a structured request is refused as asking for too much
exactly when there are not so many units of its size that can all be in use at once, and the
number it is told is the largest that can. Otherwise it is offered for each unit the same
candidates: all nodes of this size on devices of this architecture, in order. -/
theorem expand_structured_exact {σ : Type} (paths : List String)
    (identify : Index → StateM σ (Except Fault Arch)) (s : σ) (arch : Arch) (mode : Mode)
    {count : Index} (hc : count ≠ 0) :
    let t := ((Topology.ofNodesM (paths.filterMap Node.ofPath?) identify).run s).1
    let answer := expand (.structured arch mode count) t
    ((∃ text asked room, answer = .error (.insufficient text asked room)) ↔
      ¬ ∃ S, t.Fits arch mode S ∧ S.card = count.val) ∧
    (∀ text asked room, answer = .error (.insufficient text asked room) →
      text = (Request.structured arch mode count).text ∧ asked = count.val ∧
        IsGreatest {k | ∃ S, t.Fits arch mode S ∧ S.card = k} room) ∧
    ((∃ S, t.Fits arch mode S ∧ S.card = count.val) →
      ∃ p group, answer = .ok p ∧ p.groups = List.replicate count group ∧ group ≠ [] ∧
        group = (t.flatMap Device.nodes).filter (t.Offers arch mode) ∧
        group.Pairwise fun m n => m.before n = true) := by
  intro t answer
  obtain ⟨known, ht⟩ : ∃ known, t = Topology.ofNodes _ known := Topology.ofNodesM_eq _ identify s
  have hw : t.WellFormed := by
    rw [ht]
    exact Topology.ofNodes_wellFormed _ _
  have hp : ∀ n, t.Has n → n.id.Proper := by
    intro n hn
    rw [ht] at hn
    obtain ⟨path, -, hpath⟩ := List.mem_filterMap.1 (Topology.mem_of_has_ofNodes hn)
    exact Node.ofPath?_proper hpath
  have hanswer : answer = _ := expand_structured_eq hc
  rw [exists_fits_iff hp]
  by_cases hlt : available (candidates t arch mode) < count.val
  · rw [if_pos hlt] at hanswer
    refine ⟨iff_of_true ⟨_, _, _, hanswer⟩ (Nat.not_le.2 hlt), ?_, fun hle => ?_⟩
    · intro text asked room h
      rw [hanswer] at h
      cases h
      exact ⟨rfl, rfl, available_isGreatest hp⟩
    · exact absurd hlt (Nat.not_lt.2 hle)
  · rw [if_neg hlt] at hanswer
    refine ⟨iff_of_false ?_ (not_not_intro (Nat.not_lt.1 hlt)), ?_, fun hle => ?_⟩
    · rintro ⟨text, asked, room, h⟩
      rw [hanswer] at h
      cases h
    · intro text asked room h
      rw [hanswer] at h
      cases h
    · refine ⟨_, _, hanswer, rfl, ?_, candidates_eq_filter hw, candidates_sorted hw⟩
      have hlen := hle.trans (available_le_length (candidates t arch mode))
      intro hnil
      rw [hnil] at hlen
      exact hc (Fin.ext (Nat.le_zero.1 hlen))

/-- Of the three ranges two fit beside each other, which is what a request for three is told. -/
theorem expand_structured_exact_nested :
    let identify : Index → StateM Unit (Except Fault Arch) := fun _ => pure (.ok .rngd)
    let paths := ["/dev/npu0pe0-3", "/dev/npu0pe1-2", "/dev/npu0pe3-4"]
    let t := ((Topology.ofNodesM (paths.filterMap Node.ofPath?) identify).run ()).1
    (3 : Index) ≠ 0 ∧
      expand (.structured .rngd .fused 3) t = .error (.insufficient "rngd(fused)*3" 3 2) ∧
      IsGreatest {k | ∃ S, t.Fits .rngd .fused S ∧ S.card = k} 2 := by
  intro identify paths t
  have hne : (3 : Index) ≠ 0 := by decide
  have ht : t = nestedTopology := by
    have hrun : t = ((Topology.ofNodesM nestedNodes identify).run ()).1 := rfl
    rw [hrun, nestedTopology, Topology.ofNodesM, Topology.ofNodes, nested_indices]
    rfl
  have hrefused : expand (.structured .rngd .fused 3) t =
      .error (.insufficient "rngd(fused)*3" 3 2) := by
    rw [ht, expand_structured_eq hne, nested_candidates, nested_available]
    decide
  exact ⟨hne, hrefused,
    ((expand_structured_exact paths identify () .rngd .fused hne).2.1 _ _ _ hrefused).2.2⟩

end Plan
end NpuBroker

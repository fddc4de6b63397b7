import NpuBroker.Proofs.Claim.Selection

/-!
# Requests by size

A structured request offers the same candidates for each of its units, by device and by where
they start. Picking from them again and again comes to one scan of the usable ones
(`picks?_replicate`). How many units may be asked for is counted by another scan, in the order of
where the candidates end. The first scan can only find fewer when a range lies strictly inside
another.

* `find_structured`: what a structured request is answered, whatever is locked.
* `available_eq`: without a range inside another both scans are the same.
* `find_idle`: what it is answered when nothing is in use; `find_nested_busy` is a host on which
  it is busy all the same.
-/
namespace NpuBroker

variable {h : Host} {t : Topology} {s : Locks}

namespace Plan

/-! ## Scans -/

/-- A scan that has taken nodes before. -/
def disjointFrom (taken ns : List Node) : List Node :=
  ns.foldl (fun taken n => if taken.any (·.overlaps n) then taken else taken ++ [n]) taken

theorem disjointFrom_cons (taken : List Node) (n : Node) (ns : List Node) :
    disjointFrom taken (n :: ns) =
      if taken.any (·.overlaps n) = true then disjointFrom taken ns
      else disjointFrom (taken ++ [n]) ns := by
  rw [disjointFrom, List.foldl_cons]
  split <;> rfl

theorem prefix_disjointFrom (taken ns : List Node) : taken <+: disjointFrom taken ns := by
  induction ns generalizing taken with
  | nil => exact List.prefix_refl _
  | cons n ns ih =>
    rw [disjointFrom_cons]
    split
    · exact ih taken
    · exact (List.prefix_append _ _).trans (ih _)

variable {usable : Node → Bool} {all : List Node}

theorem pick?_eq (picked g : List Node) :
    pick? usable picked g = (g.filter usable).find? fun n => !picked.any (·.overlaps n) := by
  rw [List.find?_filter, pick?]
  congr 1
  funext n
  rw [Bool.decide_and, Bool.decide_eq_true, Bool.decide_eq_true]

/-- Candidates that were passed over stay so, and a taken one overlaps itself: picking once more
from all of them goes on where the scan is. -/
theorem picks?_scan {before rest taken : List Node} (hall : all.filter usable = before ++ rest)
    (hbefore : ∀ n ∈ before, taken.any (·.overlaps n) = true)
    (hself : ∀ n ∈ rest, n.overlaps n = true) (count : Nat) :
    picks? usable .allOrNothing (List.replicate count all) taken =
      if taken.length + count ≤ (disjointFrom taken rest).length then
        some ((disjointFrom taken rest).take (taken.length + count))
      else none := by
  induction rest generalizing before taken count with
  | nil =>
    cases count with
    | zero => simp [picks?, disjointFrom]
    | succ count =>
      have hnone : pick? usable taken all = none := by
        rw [pick?_eq, hall, List.append_nil, List.find?_eq_none]
        intro n hn
        simp [hbefore n hn]
      simp [List.replicate_succ, picks?, hnone, disjointFrom]
  | cons n rest ih =>
    rw [List.forall_mem_cons] at hself
    have hall' : all.filter usable = (before ++ [n]) ++ rest := by simp [hall]
    rw [disjointFrom_cons]
    -- `n` joins those passed over: it overlaps one taken before, or itself once it is taken
    by_cases hover : taken.any (·.overlaps n) = true
    · rw [if_pos hover]
      refine ih hall' ?_ hself.2 count
      rw [List.forall_mem_append, List.forall_mem_singleton]
      exact ⟨hbefore, hover⟩
    · rw [if_neg hover]
      cases count with
      | zero =>
        have hp : taken <+: disjointFrom (taken ++ [n]) rest :=
          (List.prefix_append _ _).trans (prefix_disjointFrom _ _)
        rw [List.replicate_zero, picks?, Nat.add_zero, if_pos hp.length_le,
          ← List.prefix_iff_eq_take.1 hp]
      | succ count =>
        have hpick : pick? usable taken all = some n := by
          rw [pick?_eq, hall, List.find?_append, List.find?_cons]
          have hnone : before.find? (fun n => !taken.any (·.overlaps n)) = none := by
            rw [List.find?_eq_none]
            intro m hm
            simp [hbefore m hm]
          rw [hnone]
          simp [hover]
        have hbefore' : ∀ m ∈ before ++ [n], (taken ++ [n]).any (·.overlaps m) = true := by
          rw [List.forall_mem_append, List.forall_mem_singleton]
          refine ⟨fun m hm => ?_, by simp [hself.1]⟩
          rw [List.any_append, hbefore m hm, Bool.true_or]
        have ih := ih hall' hbefore' hself.2 count
        rw [List.length_append, List.length_singleton, Nat.add_assoc, Nat.add_comm 1] at ih
        simp only [List.replicate_succ, picks?, hpick]
        exact ih

theorem picks?_replicate (hself : ∀ n ∈ all, n.overlaps n = true) (count : Nat) :
    picks? usable .allOrNothing (List.replicate count all) [] =
      if count ≤ (disjoint (all.filter usable)).length then
        some ((disjoint (all.filter usable)).take count)
      else none := by
  have hfilter : ∀ n ∈ all.filter usable, n.overlaps n = true :=
    fun n hn => hself n (List.mem_filter.1 hn).1
  have := @picks?_scan usable all [] (all.filter usable) [] rfl (by simp) hfilter count
  rwa [List.length_nil, Nat.zero_add] at this

end Plan

/-- What a structured request is answered: the first so many usable candidates that do not overlap
one before them, if there are so many. -/
theorem Claim.find_structured {arch : Arch} {mode : Mode} {count : Index} {p : Plan}
    {free : List Node} (ho : t.Openable h)
    (he : Plan.expand (.structured arch mode count) t = .ok p)
    (hfree : Plan.disjoint ((Plan.candidates t arch mode).filter (t.usable h s)) = free) :
    let answer := ((find t (.structured arch mode count)).run h s).1
    (count.val ≤ free.length ∧ ∃ cs, answer = .ok cs ∧ cs.map Claim.node = free.take count) ∨
      (free.length < count ∧
        answer = .error (.busy (Request.structured arch mode count).text)) := by
  intro answer
  obtain ⟨hpos, -, rfl⟩ := Plan.expand_structured_iff.1 he
  have hself : ∀ n ∈ Plan.candidates t arch mode, n.overlaps n = true := by
    intro n hn
    obtain ⟨d, hd, -, hn, -⟩ := Plan.mem_candidates.1 hn
    exact ho.shares n n ⟨d, hd, hn⟩ ⟨d, hd, hn⟩ rfl
  have hrun : answer.map (List.map Claim.node) = _ := run_find_eq ho he
  simp only [Plan.select, Plan.picks?_replicate hself, hfree] at hrun
  by_cases hle : count.val ≤ free.length
  · refine .inl ⟨hle, ?_⟩
    rw [if_pos hle] at hrun
    have hne : free.take count ≠ [] := by
      intro hnil
      have hlen := congrArg List.length hnil
      rw [List.length_take_of_le hle, List.length_nil] at hlen
      exact hpos (Fin.ext hlen)
    obtain ⟨n, ns, htake⟩ := List.exists_cons_of_ne_nil hne
    rw [htake] at hrun ⊢
    cases ha : answer with
    | error f => simp [ha, Except.map] at hrun
    | ok cs => exact ⟨cs, rfl, by simpa [ha, Except.map] using hrun⟩
  · refine .inr ⟨Nat.lt_of_not_le hle, ?_⟩
    rw [if_neg hle] at hrun
    cases ha : answer with
    | error f => simpa [ha, Except.map] using hrun
    | ok cs => simp [ha, Except.map] at hrun

/-! ## The order of candidates -/

/-- Both are ranges, or PEs, of one device, and the first lies strictly inside the second. -/
def UnitId.Inside (u v : UnitId) : Prop :=
  u.device = v.device ∧ ∃ a b, u.span = some a ∧ v.span = some b ∧
    b.first < a.first ∧ a.last < b.last

/-- Only a range has room for another unit. -/
theorem UnitId.Inside.fused {u v : UnitId} (hi : u.Inside v) (hu : u.Proper) :
    v.mode = .fused := by
  obtain ⟨-, a, b, ha, hb, hfirst, hlast⟩ := hi
  have hle := hu.first_le_last ha
  cases b with
  | single pe =>
    have : pe < pe := Fin.lt_of_lt_of_le hfirst (Fin.le_of_lt (Fin.lt_of_le_of_lt hle hlast))
    exact absurd this (Fin.lt_irrefl _)
  | fused first last => simp [mode, hb]

theorem Span.getLast?_indices {s : Span} (hs : s.first ≤ s.last) :
    s.indices.getLast? = some s.last := by
  have hasc : s.indices.Pairwise (· < ·) := (List.pairwise_lt_finRange 256).filter _
  have hlast : s.last ∈ s.indices := by simp [mem_indices_iff, contains, hs]
  have hmem : ∀ pe ∈ s.indices, pe ≤ s.last := by
    intro pe hpe
    simp only [mem_indices_iff, contains, Bool.and_eq_true, decide_eq_true_eq] at hpe
    exact hpe.2
  rcases List.eq_nil_or_concat s.indices with hnil | ⟨front, pe, hpe⟩
  · simp [hnil] at hlast
  · rw [List.concat_eq_append] at hpe
    rw [hpe] at hasc hlast hmem ⊢
    rw [List.getLast?_concat]
    have hle : pe ≤ s.last := hmem pe (by simp)
    rcases List.mem_append.1 hlast with hfront | hpe'
    · have hlt := (List.pairwise_append.1 hasc).2.2 s.last hfront pe (by simp)
      exact absurd hlt (Fin.not_lt.2 hle)
    · rw [List.mem_singleton.1 hpe']

theorem Plan.endPe_eq {n : Node} (hn : n.id.Proper) {s : Span} (hs : n.id.span = some s) :
    endPe n = s.last := by
  simp [endPe, hs, Span.getLast?_indices (hn.first_le_last hs)]

/-- Of two units of one size in order, the second lies inside the first if it ends before it. -/
theorem UnitId.inside_of_rank {u v : UnitId} {a b : Span} (hd : u.device = v.device)
    (hmode : u.mode = v.mode) (hrank : u.rank < v.rank ∨ u.rank = v.rank)
    (ha : u.span = some a) (hb : v.span = some b) (hlast : b.last < a.last) : v.Inside u := by
  refine ⟨hd.symm, b, a, hb, ha, ?_, hlast⟩
  simp only [rank, mode, ha, hb, hd] at hrank hmode
  cases a with
  | single pe =>
    cases b with
    | single pe' =>
      simp only [Span.rank, Span.last, Span.first, List.cons_lt_cons_iff, List.not_lt_nil,
        List.cons.injEq, Fin.lt_def] at hrank hlast ⊢
      omega
    | fused first' last' => simp at hmode
  | fused first last =>
    cases b with
    | single pe' => simp at hmode
    | fused first' last' =>
      simp only [Span.rank, Span.last, Span.first, List.cons_lt_cons_iff, List.not_lt_nil,
        List.cons.injEq, Fin.lt_def] at hrank hlast ⊢
      omega

/-- Nodes of one size that are in order also end in order, unless one lies inside the other. -/
theorem Plan.endPe_le {m n : Node} (hm : m.id.Proper) (hn : n.id.Proper)
    (hd : m.id.device = n.id.device) (hmode : m.id.mode = n.id.mode)
    (hb : m.before n = true) (hin : ¬ n.id.Inside m.id) : endPe m ≤ endPe n := by
  have hrank : m.id.rank < n.id.rank ∨ m.id.rank = n.id.rank :=
    (Node.before_iff.1 hb).imp_right And.left
  cases hms : m.id.span with
  | none =>
    have hns : n.id.span = none := by
      cases hns : n.id.span with
      | none => rfl
      | some b => cases b <;> simp [UnitId.mode, hms, hns] at hmode
    simp [endPe, hms, hns]
  | some a =>
    cases hns : n.id.span with
    | none => cases a <;> simp [UnitId.mode, hms, hns] at hmode
    | some b =>
      rw [endPe_eq hm hms, endPe_eq hn hns]
      by_contra hgt
      exact hin (UnitId.inside_of_rank hd hmode hrank hms hns (Fin.lt_def.2 (by omega)))

/-- Candidates are in the order of where they end, unless one lies inside another. -/
theorem Plan.candidates_endsBefore {arch : Arch} {mode : Mode} (hw : t.WellFormed)
    (hp : ∀ n, t.Has n → n.id.Proper)
    (hin : ∀ m ∈ candidates t arch mode, ∀ n ∈ candidates t arch mode, ¬ m.id.Inside n.id) :
    (candidates t arch mode).Pairwise fun m n => endsBefore m n = true := by
  refine candidates_pairwise hw (fun d hd ha => ?_) fun m n hlt => by simp [endsBefore, hlt]
  have hown : ∀ n ∈ d.withMode mode, n ∈ candidates t arch mode ∧ n.id.device = d.index ∧
      n.id.Proper ∧ n.id.mode = mode := by
    intro n hn
    simp only [Device.withMode, List.mem_filter, decide_eq_true_eq] at hn
    exact ⟨mem_candidates.2 ⟨d, hd, ha, hn⟩, hw.own d hd n hn.1, hp n ⟨d, hd, hn.1⟩, hn.2⟩
  refine ((hw.sorted d hd).filter _).imp_of_mem fun {m n} hm hn hb => ?_
  obtain ⟨hmall, hmd, hmp, hmm⟩ := hown m hm
  obtain ⟨hnall, hnd, hnp, hnm⟩ := hown n hn
  have hle := endPe_le hmp hnp (hmd.trans hnd.symm) (hmm.trans hnm.symm) hb
    (hin n hnall m hmall)
  simp [endsBefore, hmd, hnd, hle]

/-- As many units are available as are found, unless a range lies inside another. -/
theorem Plan.available_eq {arch : Arch} {mode : Mode} (hw : t.WellFormed)
    (hp : ∀ n, t.Has n → n.id.Proper)
    (hin : ∀ m ∈ candidates t arch mode, ∀ n ∈ candidates t arch mode, ¬ m.id.Inside n.id) :
    available (candidates t arch mode) = (disjoint (candidates t arch mode)).length := by
  rw [available, List.mergeSort_of_pairwise (candidates_endsBefore hw hp hin)]

/-! ## Idle hosts -/

/-- **First fit.** On a host where nothing is in use a structured request is answered with the
first so many of its candidates that do not overlap one before them, exactly as many as it asks
for, and it is busy when there are not so many. Then one range lies inside another, for a request
is expanded only when the topology has so many disjoint units. -/
theorem find_idle {h₀ : Host} {r : Roots} {arch : Arch} {mode : Mode} {count : Index} {p : Plan}
    (ht : Discovery.list h₀ r = .ok t) (hi : t.Idle h s)
    (he : Plan.expand (.structured arch mode count) t = .ok p) :
    let all := Plan.candidates t arch mode
    let answer := ((Claim.find t (.structured arch mode count)).run h s).1
    (count.val ≤ (Plan.disjoint all).length →
      ∃ cs, answer = .ok cs ∧ cs.map Claim.node = (Plan.disjoint all).take count ∧
        cs.length = count) ∧
    ((Plan.disjoint all).length < count →
      answer = .error (.busy (Request.structured arch mode count).text)) ∧
    ((mode = .fused → ∀ m ∈ all, ∀ n ∈ all, ¬ m.id.Inside n.id) →
      count.val ≤ (Plan.disjoint all).length) := by
  intro all answer
  have hp : ∀ n, t.Has n → n.id.Proper := fun n => Discovery.list_proper ht
  have hall : ∀ n ∈ all, t.Has n ∧ n.id.mode = mode := by
    intro n hn
    obtain ⟨d, hd, -, hn, hm⟩ := Plan.mem_candidates.1 hn
    exact ⟨⟨d, hd, hn⟩, hm⟩
  have hfilter : all.filter (t.usable h s) = all :=
    List.filter_eq_self.2 fun n hn => hi.usable (hall n hn).1
  have hfind := Claim.find_structured (hi.openable hp) he (congrArg Plan.disjoint hfilter)
  refine ⟨fun hle => ?_, fun hlt => ?_, fun hin => ?_⟩
  · rcases hfind with ⟨-, cs, hr, hcs⟩ | ⟨hlt, -⟩
    · have hlen := congrArg List.length hcs
      rw [List.length_map, List.length_take_of_le hle] at hlen
      exact ⟨cs, hr, hcs, hlen⟩
    · omega
  · rcases hfind with ⟨hle, -⟩ | ⟨-, hr⟩
    · omega
    · exact hr
  · have hnone : ∀ m ∈ all, ∀ n ∈ all, ¬ m.id.Inside n.id := by
      intro m hm n hn hmn
      have hmode := (hall n hn).2.symm.trans (hmn.fused (hp m (hall m hm).1))
      exact hin hmode m hm n hn hmn
    rw [← Plan.available_eq (Discovery.list_wellFormed ht) hp hnone]
    exact (Plan.expand_structured_iff.1 he).2.1

/-- One range is found on the device with three. -/
theorem find_idle_nested :
    Discovery.list nestedHost .standard = .ok nestedTopology ∧
      nestedTopology.Idle nestedHost [] ∧
      ∃ cs, ((Claim.find nestedTopology (.structured .rngd .fused 1)).run nestedHost []).1 =
        .ok cs ∧ cs.length = 1 := by
  have he := @nested_expand 1 (by decide) (by decide)
  have hle : (1 : Index).val ≤
      (Plan.disjoint (Plan.candidates nestedTopology .rngd .fused)).length := by
    rw [nested_candidates]
    decide
  obtain ⟨cs, hr, -, hlen⟩ := (find_idle nested_list nested_idle he).1 hle
  exact ⟨nested_list, nested_idle, cs, hr, hlen⟩

/-- Two ranges are not, though the second and the third are disjoint and nobody has any. -/
theorem find_nested_busy :
    Discovery.list nestedHost .standard = .ok nestedTopology ∧
      nestedTopology.Idle nestedHost [] ∧
      (∃ p, Plan.expand (.structured .rngd .fused 2) nestedTopology = .ok p) ∧
      ((Claim.find nestedTopology (.structured .rngd .fused 2)).run nestedHost []).1 =
        .error (.busy "rngd(fused)*2") := by
  have he := @nested_expand 2 (by decide) (by decide)
  refine ⟨nested_list, nested_idle, ⟨_, he⟩, ?_⟩
  have hfilter : (Plan.candidates nestedTopology .rngd .fused).filter
      (nestedTopology.usable nestedHost []) = nestedNodes := by
    rw [nested_candidates, List.filter_eq_self]
    exact fun n hn => nested_idle.usable (nested_has.2 hn)
  rcases Claim.find_structured (nested_idle.openable nested_proper) he
    (congrArg Plan.disjoint hfilter) with ⟨hle, -⟩ | ⟨-, hr⟩
  · exact absurd hle (by decide)
  · exact hr

end NpuBroker

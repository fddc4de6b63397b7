import NpuBroker.Span
import Mathlib.Order.Interval.Finset.Fin

/-!
# Spans that share PEs

Whether spans overlap is told by their bounds alone. That tells whether they share a PE as long as
both have one. A range that descends has none, but bounds it has: it overlaps the spans that reach
from its lower bound to its upper one.

* `Span.length_indices`: a span lists as many PEs as it has.
* `Span.overlaps_iff`: spans with PEs overlap when they share one.
* `Span.overlaps_iff_gapIn`: a range without PEs overlaps what reaches across it.
* `Span.overlaps_iff_share_or_gap`: and there is no other way to overlap.
-/
namespace NpuBroker.Span

variable {s t : Span} {pe : Index}

/-! ## The PEs of a span -/

theorem contains_iff : s.contains pe = true ↔ s.first ≤ pe ∧ pe ≤ s.last := by
  simp only [contains, Bool.and_eq_true, decide_eq_true_eq]

theorem length_indices (s : Span) : s.indices.length = s.size := by
  have hnodup : s.indices.Nodup := (List.nodup_finRange 256).filter _
  have hset : s.indices.toFinset = Finset.Icc s.first s.last := by
    ext pe
    rw [List.mem_toFinset, mem_indices_iff, contains_iff, Finset.mem_Icc]
  rw [← List.toFinset_card_of_nodup hnodup, hset, Fin.card_Icc, size]

theorem size_eq_zero_iff : s.size = 0 ↔ s.last < s.first := by
  rw [size, Fin.lt_def]
  omega

/-! ## Overlapping -/

/-- Spans with PEs overlap where the one that begins later begins. -/
theorem overlaps_iff {a b : Span} (ha : a.first ≤ a.last) (hb : b.first ≤ b.last) :
    a.overlaps b = true ↔ ∃ pe ∈ a.indices, pe ∈ b.indices := by
  simp only [mem_indices_iff, contains, overlaps, Bool.and_eq_true, decide_eq_true_eq]
  constructor
  · rintro ⟨hab, hba⟩
    rcases Fin.le_total a.first b.first with hle | hle
    · exact ⟨b.first, ⟨hle, hba⟩, Fin.le_refl _, hb⟩
    · exact ⟨a.first, ⟨Fin.le_refl _, ha⟩, hle, hab⟩
  · rintro ⟨pe, ⟨ha, ha'⟩, hb, hb'⟩
    exact ⟨Fin.le_trans ha hb', Fin.le_trans hb ha'⟩

/-- `s` has no PE, and its bounds lie in `t`. -/
def GapIn (s t : Span) : Prop :=
  s.size = 0 ∧ t.contains s.first = true ∧ t.contains s.last = true

/-- A range without PEs overlaps exactly what reaches across it. -/
theorem overlaps_iff_gapIn (hs : s.size = 0) : s.overlaps t = true ↔ s.GapIn t := by
  have hlt := size_eq_zero_iff.1 hs
  simp only [GapIn, hs, true_and, contains_iff, overlaps, Bool.and_eq_true, decide_eq_true_eq]
  constructor
  · rintro ⟨hst, hts⟩
    exact ⟨⟨Fin.le_of_lt (Fin.lt_of_le_of_lt hts hlt), hst⟩,
      hts, Fin.le_of_lt (Fin.lt_of_lt_of_le hlt hst)⟩
  · rintro ⟨⟨-, hst⟩, hts, -⟩
    exact ⟨hst, hts⟩

theorem GapIn.not_share (hg : s.GapIn t) :
    ¬ ∃ pe, s.contains pe = true ∧ t.contains pe = true := by
  rintro ⟨pe, hpe, -⟩
  obtain ⟨hfirst, hlast⟩ := contains_iff.1 hpe
  exact Fin.not_le.2 (size_eq_zero_iff.1 hg.1) (Fin.le_trans hfirst hlast)

theorem overlaps_of_share (hs : s.contains pe = true) (ht : t.contains pe = true) :
    s.overlaps t = true := by
  obtain ⟨hs, hs'⟩ := contains_iff.1 hs
  obtain ⟨ht, ht'⟩ := contains_iff.1 ht
  simp only [overlaps, Bool.and_eq_true, decide_eq_true_eq]
  exact ⟨Fin.le_trans hs ht', Fin.le_trans ht hs'⟩

theorem overlaps_cases : s.overlaps t = true ↔
    (∃ pe, s.contains pe = true ∧ t.contains pe = true) ∨ s.GapIn t ∨ t.GapIn s := by
  constructor
  · intro ho
    by_cases hs : s.size = 0
    · exact .inr (.inl ((overlaps_iff_gapIn hs).1 ho))
    by_cases ht : t.size = 0
    · rw [overlaps_comm] at ho
      exact .inr (.inr ((overlaps_iff_gapIn ht).1 ho))
    rw [size_eq_zero_iff, Fin.not_lt] at hs ht
    obtain ⟨pe, hpe, hpe'⟩ := (overlaps_iff hs ht).1 ho
    exact .inl ⟨pe, mem_indices_iff.1 hpe, mem_indices_iff.1 hpe'⟩
  · rintro (⟨pe, hs, ht⟩ | hg | hg)
    · exact overlaps_of_share hs ht
    · exact (overlaps_iff_gapIn hg.1).2 hg
    · rw [overlaps_comm]
      exact (overlaps_iff_gapIn hg.1).2 hg

/-- **Sharing a PE, or reaching across a gap.** Spans overlap when they share a PE, and when one of
them has none and its bounds lie in the other. So overlapping means sharing a PE for all spans but
these. What a span contains is what it lists, and it lists nothing exactly when it has no PE. -/
theorem overlaps_iff_share_or_gap (s t : Span) :
    (s.overlaps t = true ↔
      (∃ pe, s.contains pe = true ∧ t.contains pe = true) ∨ s.GapIn t ∨ t.GapIn s) ∧
    ((s.overlaps t = true ↔ ∃ pe, s.contains pe = true ∧ t.contains pe = true) ↔
      ¬ s.GapIn t ∧ ¬ t.GapIn s) ∧
    (∀ pe, s.contains pe = true ↔ pe ∈ s.indices) ∧ (s.size = 0 ↔ s.indices = []) := by
  refine ⟨overlaps_cases, ⟨fun hiff => ⟨fun hg => ?_, fun hg => ?_⟩, fun hgaps => ?_⟩,
    fun _ => mem_indices_iff.symm, ?_⟩
  · exact hg.not_share (hiff.1 (overlaps_cases.2 (.inr (.inl hg))))
  · obtain ⟨pe, hs, ht⟩ := hiff.1 (overlaps_cases.2 (.inr (.inr hg)))
    exact hg.not_share ⟨pe, ht, hs⟩
  · rw [overlaps_cases]
    exact or_iff_left fun h => h.elim hgaps.1 hgaps.2
  · rw [← length_indices, List.length_eq_zero_iff]

/-- A range that descends from 3 to 1 has no PE, and yet overlaps the one from 0 to 5. -/
theorem overlaps_descending :
    (fused 3 1).overlaps (fused 0 5) = true ∧ (fused 3 1).size = 0 ∧ (fused 3 1).indices = [] ∧
      ¬ ∃ pe, (fused 3 1).contains pe = true ∧ (fused 0 5).contains pe = true := by
  have hgap : (fused 3 1).GapIn (fused 0 5) := ⟨by decide, by decide, by decide⟩
  have hnone : (fused 3 1).indices = [] :=
    List.eq_nil_of_length_eq_zero ((length_indices _).trans hgap.1)
  exact ⟨by decide, hgap.1, hnone, hgap.not_share⟩

end NpuBroker.Span

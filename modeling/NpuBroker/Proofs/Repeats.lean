import Mathlib.Data.List.Pairwise
import Mathlib.Data.List.Nodup

/-!
# Repeats

Lists without repeats, and how often lists that are put together hold an element.

* `pairwise_eraseDups`: what is left when repeats are gone is in the order it was in.
* `count_flatMap_of_nodup`: an element is there once for each of the lists that hold it.
* `nodup_flatMap_iff`: so it is there once when no two of them share it.
-/
namespace NpuBroker

variable {α β : Type}

theorem pairwise_eraseDups [BEq α] [LawfulBEq α] {R : α → α → Prop} {l : List α}
    (hl : l.Pairwise fun a b => a ≠ b → R a b) : l.eraseDups.Pairwise R := by
  induction hn : l.length using Nat.strongRecOn generalizing l with
  | ind n ih =>
    cases l with
    | nil => exact List.Pairwise.nil
    | cons a as =>
      rw [List.pairwise_cons] at hl
      rw [List.eraseDups_cons, List.pairwise_cons]
      refine ⟨fun b hb => ?_, ?_⟩
      · obtain ⟨hb, hne⟩ := List.mem_filter.1 (List.mem_eraseDups.1 hb)
        have hba : b ≠ a := by simpa using hne
        exact hl.1 b hb (Ne.symm hba)
      · have hlt : (as.filter fun b => !b == a).length < n := by
          have := List.length_filter_le (fun b => !b == a) as
          rw [List.length_cons] at hn
          omega
        exact ih _ hlt (hl.2.filter _) rfl

theorem nodup_eraseDups [BEq α] [LawfulBEq α] (l : List α) : l.eraseDups.Nodup :=
  pairwise_eraseDups (List.pairwise_of_forall fun _ _ hne => hne)

theorem count_flatMap_of_nodup [DecidableEq α] {f : β → List α} (hf : ∀ b, (f b).Nodup) (a : α)
    (l : List β) :
    (l.flatMap f).count a = l.countP fun b => decide (a ∈ f b) := by
  induction l with
  | nil => rfl
  | cons b l ih =>
    rw [List.flatMap_cons, List.count_append, ih, (hf b).count, List.countP_cons]
    by_cases ha : a ∈ f b <;> simp [ha, Nat.add_comm]

/-- Lists that are put together have no repeats if none of them has, and no two share an element. -/
theorem nodup_flatMap_iff {f : β → List α} {l : List β} (hl : l.Nodup) :
    (l.flatMap f).Nodup ↔ (∀ b ∈ l, (f b).Nodup) ∧
      ∀ b ∈ l, ∀ c ∈ l, ∀ a ∈ f b, a ∈ f c → b = c := by
  rw [List.nodup_flatMap]
  refine and_congr_right fun _ => ⟨fun hapart b hb c hc a hab hac => ?_, fun hshare => ?_⟩
  · have hsymm : Std.Symm (Function.onFun List.Disjoint f) := ⟨fun _ _ => List.disjoint_symm⟩
    by_contra hne
    exact hapart.forall hb hc hne hab hac
  · exact hl.pairwise_of_forall_ne fun b hb c hc hne a hab hac => hne (hshare b hb c hc a hab hac)

end NpuBroker

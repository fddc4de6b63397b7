import NpuBroker.Claim

/-!
# Probes and single claims

What one caller sees and does when it looks at nodes and takes one of them, given the locks as
they are. A probe takes a lock and gives it back, so it leaves the locks as they were; all that a
search through a group of candidates can change is one new lock, that of the claim it returns.

* `run_held`, `run_anyHeld`: a probe answers what the locks say and changes none.
* `run_group?_cases`: a search fails, finds nothing, or is granted one claim (`Granted`).
-/
namespace NpuBroker

variable {h : Host} {t : Topology} {l : Locks}

/-- What a probe of the node answers under the locks `l`. -/
def Node.heldIn (h : Host) (l : Locks) (n : Node) : Except Fault Bool :=
  match h.openNode n.path with
  | .error .notFound => .ok false
  | .error e => .error (.host e)
  | .ok file => .ok (decide (file ∈ l))

theorem Node.heldIn_of_open {n : Node} {file : FileId} (ho : h.openNode n.path = .ok file) :
    n.heldIn h l = .ok (decide (file ∈ l)) := by
  simp [heldIn, ho]

theorem Node.overlaps_comm (m n : Node) : m.overlaps n = n.overlaps m := UnitId.overlaps_comm _ _

theorem Node.device_of_overlaps {m n : Node} (ho : m.overlaps n = true) :
    m.id.device = n.id.device := by
  simp only [overlaps, UnitId.overlaps, Bool.and_eq_true, beq_iff_eq] at ho
  exact ho.1

namespace Claim

/-- What a claim of the node alone answers, and the locks after it. -/
theorem run_node? (n : Node) :
    (node? n).run h l = match h.openNode n.path with
      | .error .notFound => (.error (.notFound n.name), l)
      | .error e => (.error (.host e), l)
      | .ok file => if file ∈ l then (.ok none, l) else (.ok (some ⟨n, file⟩), file :: l) := by
  simp only [node?, Attempt.run, Locks.acquire]
  cases h.openNode n.path with
  | error e => cases e <;> rfl
  | ok file => by_cases hf : file ∈ l <;> simp [hf]

/-- A probe changes no lock. -/
theorem run_held (n : Node) : (held n).run h l = (n.heldIn h l, l) := by
  simp only [held, Attempt.run_bind, run_node?, Node.heldIn]
  cases h.openNode n.path with
  | error e => cases e <;> rfl
  | ok file => by_cases hf : file ∈ l <;> simp [hf, Attempt.run, Locks.release]

/-- The first probe that finds a node held, or fails, decides. -/
def anyHeldIn (h : Host) (l : Locks) : List Node → Except Fault Bool
  | [] => .ok false
  | n :: ns =>
    match n.heldIn h l with
    | .ok false => anyHeldIn h l ns
    | answer => answer

theorem run_anyHeld (ns : List Node) : (anyHeld ns).run h l = (anyHeldIn h l ns, l) := by
  induction ns with
  | nil => rfl
  | cons n ns ih =>
    simp only [anyHeld, anyHeldIn, Attempt.run_bind, run_held]
    split <;> simp_all

theorem anyHeldIn_eq_false_iff {ns : List Node} :
    anyHeldIn h l ns = .ok false ↔ ∀ n ∈ ns, n.heldIn h l = .ok false := by
  induction ns with
  | nil => simp [anyHeldIn]
  | cons n ns ih =>
    simp only [anyHeldIn, List.forall_mem_cons]
    split
    · rename_i hn
      simp [hn, ih]
    · rename_i hn
      exact ⟨fun ha => absurd ha hn, fun ha => absurd ha.1 hn⟩

theorem mem_rivals {claimed : List Claim} {m n : Node} :
    m ∈ rivals t claimed n ↔
      ∃ d, t.device? n.id.device = some d ∧ m ∈ d.nodes ∧ m.same n = false ∧
        m.overlaps n = true ∧ ∀ c ∈ claimed, c.node.overlaps m = false := by
  unfold rivals
  cases t.device? n.id.device with
  | none => simp
  | some d =>
    simp only [Device.overlapping, List.mem_filter, Bool.and_eq_true, Bool.not_eq_true',
      List.any_eq_false, Bool.not_eq_true, Option.some.injEq, exists_eq_left', and_assoc]

theorem run_candidate? (claimed : List Claim) (n : Node) :
    (candidate? t claimed n).run h l =
      if (claimed.any fun c => c.node.overlaps n) = true then (.ok none, l)
      else match anyHeldIn h l (rivals t claimed n) with
        | .error f => (.error f, l)
        | .ok true => (.ok none, l)
        | .ok false => (node? n).run h l := by
  unfold candidate?
  split
  · rfl
  · simp only [Attempt.run_bind, run_anyHeld]
    cases anyHeldIn h l (rivals t claimed n) with
    | error f => rfl
    | ok held => cases held <;> rfl

/-- What is known of a claim when it is granted beside `claimed` under the locks `l`. -/
structure Granted (h : Host) (t : Topology) (claimed : List Claim) (l : Locks) (c : Claim) :
    Prop where
  opened : h.openNode c.node.path = .ok c.file
  free : c.file ∉ l
  apart : ∀ x ∈ claimed, x.node.overlaps c.node = false
  quiet : ∀ m ∈ rivals t claimed c.node, m.heldIn h l = .ok false

/-- A candidate is granted with one new lock, or the locks stay. -/
theorem run_candidate?_cases (claimed : List Claim) (n : Node) :
    (∃ c, (candidate? t claimed n).run h l = (.ok (some c), c.file :: l) ∧ c.node = n ∧
      Granted h t claimed l c) ∨
    (candidate? t claimed n).run h l = (.ok none, l) ∨
    ∃ f, (candidate? t claimed n).run h l = (.error f, l) := by
  rw [run_candidate?]
  split
  · exact .inr (.inl rfl)
  rename_i hc
  cases ha : anyHeldIn h l (rivals t claimed n) with
  | error f => exact .inr (.inr ⟨f, rfl⟩)
  | ok held =>
    cases held with
    | true => exact .inr (.inl rfl)
    | false =>
      dsimp only
      rw [run_node?]
      cases ho : h.openNode n.path with
      | error e => cases e <;> exact .inr (.inr ⟨_, rfl⟩)
      | ok file =>
        dsimp only
        split
        · exact .inr (.inl rfl)
        · rename_i hf
          refine .inl ⟨⟨n, file⟩, rfl, rfl, ho, hf, ?_, anyHeldIn_eq_false_iff.1 ha⟩
          simpa using hc

/-- The claim of a group is that of one of its candidates. -/
theorem run_group?_cases (claimed : List Claim) (g : List Node) :
    (∃ c, (group? t claimed g).run h l = (.ok (some c), c.file :: l) ∧ c.node ∈ g ∧
      Granted h t claimed l c) ∨
    (group? t claimed g).run h l = (.ok none, l) ∨
    ∃ f, (group? t claimed g).run h l = (.error f, l) := by
  induction g with
  | nil => exact .inr (.inl rfl)
  | cons n ns ih =>
    simp only [group?, Attempt.run_bind]
    rcases run_candidate?_cases (h := h) (t := t) (l := l) claimed n with
      ⟨c, hr, hn, hg⟩ | hr | ⟨f, hr⟩
    · rw [hr]
      exact .inl ⟨c, rfl, by simp [hn], hg⟩
    · rw [hr]
      rcases ih with ⟨c, hr', hn, hg⟩ | hr' | ⟨f, hr'⟩
      · exact .inl ⟨c, hr', List.mem_cons_of_mem _ hn, hg⟩
      · exact .inr (.inl hr')
      · exact .inr (.inr ⟨f, hr'⟩)
    · rw [hr]
      exact .inr (.inr ⟨f, rfl⟩)

end Claim
end NpuBroker

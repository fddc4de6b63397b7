import NpuBroker.Request
import NpuBroker.Topology

/-!
# Plans

A plan is a request spelled out on a topology: one group of candidates for each unit asked for,
and what to do about a group that has nothing left.

* `available_le_length`: never more units are available than there are candidates.
-/
namespace NpuBroker

inductive Policy where
  | allOrNothing
  | bestEffort
deriving DecidableEq

/-- The name in documents. -/
def Policy.name : Policy → String
  | .allOrNothing => "all_or_nothing"
  | .bestEffort => "best_effort"

structure Plan where
  /-- The text of the request. -/
  request : String
  groups : List (List Node)
  policy : Policy
deriving DecidableEq

namespace Plan

/-- Where the node ends on its device; a node without an end comes last. -/
def endPe (n : Node) : Nat :=
  match n.id.span with
  | none => 255
  | some s => (s.indices.getLast?.map Fin.val).getD 255

/-- By device, then by where the nodes end. -/
def endsBefore (m n : Node) : Bool :=
  m.id.device < n.id.device || m.id.device == n.id.device && endPe m ≤ endPe n

/-- The nodes of `sorted` that overlap none of those taken before them. -/
def disjoint (sorted : List Node) : List Node :=
  sorted.foldl (fun taken n => if taken.any (·.overlaps n) then taken else taken ++ [n]) []

/-- How many of the candidates can be in use at once. -/
def available (candidates : List Node) : Nat :=
  (disjoint (candidates.mergeSort endsBefore)).length

/-- Every node of this size on a device of this architecture. -/
def candidates (t : Topology) (arch : Arch) (mode : Mode) : List Node :=
  (t.filter fun d => d.arch = arch).flatMap fun d => d.withMode mode

/-- The node of a unit that is named. -/
def named (t : Topology) (u : UnitId) : Except Fault Node :=
  match t.device? u.device with
  | none => .error (.invalidSpecifier u.name (.absentDevice u.device))
  | some d =>
    match d.find? u with
    | none => .error (.invalidSpecifier u.name .absentUnit)
    | some n => .ok n

/-- What `request` comes to on `t`, whoever holds what. -/
def expand (request : Request) (t : Topology) : Except Fault Plan := do
  request.check
  match request with
  | .structured arch mode count =>
    let all := candidates t arch mode
    if available all < count.val then
      throw (.insufficient request.text count (available all))
    return ⟨request.text, List.replicate count all, .allOrNothing⟩
  | .explicit units =>
    let nodes ← units.mapM (named t)
    return ⟨request.text, nodes.map ([·]), .bestEffort⟩

theorem disjoint_length_le (sorted : List Node) : (disjoint sorted).length ≤ sorted.length := by
  have key : ∀ (ns taken : List Node),
      (ns.foldl (fun taken n => if taken.any (·.overlaps n) then taken else taken ++ [n])
        taken).length ≤ taken.length + ns.length := by
    intro ns
    induction ns with
    | nil => simp
    | cons n ns ih =>
      intro taken
      rw [List.foldl_cons]
      refine Nat.le_trans (ih _) ?_
      split
      · simp only [List.length_cons]
        omega
      · simp only [List.length_append, List.length_cons, List.length_nil]
        omega
  simpa [disjoint] using key sorted []

theorem available_le_length (candidates : List Node) :
    available candidates ≤ candidates.length := by
  have := disjoint_length_le (candidates.mergeSort endsBefore)
  rwa [List.length_mergeSort] at this

end Plan
end NpuBroker

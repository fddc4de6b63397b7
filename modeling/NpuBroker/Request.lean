import NpuBroker.Fault

/-!
# Requests

A request is either so many units of a size on an architecture, or the units named. `check` says
what a request must keep to before anything is looked for.

* `check_structured`, `check_explicit`: a request passes when it asks for something, names no
  unit twice and no two units that share a PE.
-/
namespace NpuBroker

inductive Request where
  | structured (arch : Arch) (mode : Mode) (count : Index)
  | explicit (units : List UnitId)
deriving DecidableEq

namespace Request

/-- What is asked for when nothing is said: one fused unit. -/
def standard : Request := .structured .warboy .fused 1

/-- How many units are asked for. -/
def count : Request → Nat
  | .structured _ _ count => count
  | .explicit units => units.length

def chars : Request → List Char
  | .structured arch mode count =>
    arch.name.toList ++ '(' :: mode.name.toList ++ [')', '*'] ++ Decimal.digits count
  | .explicit units => [','].intercalate (units.map UnitId.chars)

/-- The text the request is known by. -/
def text (r : Request) : String := String.ofList r.chars

/-- The first unit that is already among `seen` or named before. -/
def repeated? : List UnitId → List UnitId → Option UnitId
  | _, [] => none
  | seen, u :: us => if u ∈ seen then some u else repeated? (u :: seen) us

/-- The first unit that overlaps a later one, and the first it overlaps. -/
def clash? : List UnitId → Option (UnitId × UnitId)
  | [] => none
  | u :: us =>
    match us.find? u.overlaps with
    | some v => some (u, v)
    | none => clash? us

def check (r : Request) : Except Fault Unit :=
  match r with
  | .structured _ _ count =>
    if count = 0 then .error (.invalidSpecifier r.text .countZero) else .ok ()
  | .explicit [] => .error (.invalidSpecifier "" .nothingNamed)
  | .explicit units =>
    match repeated? [] units with
    | some u => .error (.invalidSpecifier r.text (.repeated u))
    | none =>
      match clash? units with
      | some (u, v) => .error (.invalidSpecifier r.text (.overlapping u v))
      | none => .ok ()

theorem repeated?_eq_none_iff {seen us : List UnitId} :
    repeated? seen us = none ↔ us.Nodup ∧ ∀ u ∈ us, u ∉ seen := by
  induction us generalizing seen with
  | nil => simp [repeated?]
  | cons u us ih =>
    unfold repeated?
    split
    · rename_i h
      simp only [reduceCtorEq, false_iff]
      exact fun h' => h'.2 u List.mem_cons_self h
    · rename_i h
      rw [ih]
      simp only [List.nodup_cons, List.mem_cons, not_or, forall_eq_or_imp]
      constructor
      · exact fun ⟨hn, hs⟩ => ⟨⟨fun hu => (hs u hu).1 rfl, hn⟩, h, fun v hv => (hs v hv).2⟩
      · exact fun ⟨⟨hu, hn⟩, _, hs⟩ => ⟨hn, fun v hv => ⟨fun e => hu (e ▸ hv), hs v hv⟩⟩

theorem clash?_eq_none_iff {us : List UnitId} :
    clash? us = none ↔ us.Pairwise fun u v => u.overlaps v = false := by
  induction us with
  | nil => simp [clash?]
  | cons u us ih =>
    unfold clash?
    split
    · rename_i v h
      simp only [reduceCtorEq, List.pairwise_cons, false_iff, not_and]
      intro hu
      have := List.find?_some h
      rw [hu v (List.mem_of_find?_eq_some h)] at this
      simp at this
    · rename_i h
      rw [ih, List.pairwise_cons]
      simp only [List.find?_eq_none, Bool.not_eq_true] at h
      exact ⟨fun hp => ⟨h, hp⟩, fun hp => hp.2⟩

theorem check_structured {arch : Arch} {mode : Mode} {count : Index} :
    (structured arch mode count).check = .ok () ↔ count ≠ 0 := by
  unfold check
  split <;> simp_all

theorem check_explicit {units : List UnitId} :
    (explicit units).check = .ok () ↔
      units ≠ [] ∧ units.Nodup ∧ units.Pairwise fun u v => u.overlaps v = false := by
  cases units with
  | nil => simp [check]
  | cons u us =>
    have hr := @repeated?_eq_none_iff [] (u :: us)
    have hc := @clash?_eq_none_iff (u :: us)
    simp only [List.not_mem_nil, not_false_eq_true, implies_true, and_true] at hr
    rw [← hr, ← hc]
    simp only [check, ne_eq, reduceCtorEq, not_false_eq_true, true_and]
    split
    · rename_i h
      simp [h]
    · rename_i h
      split
      · rename_i h'
        simp [h']
      · rename_i h'
        simp [h, h']

end Request
end NpuBroker

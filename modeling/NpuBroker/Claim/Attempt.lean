import NpuBroker.Host

/-!
# Attempts

A caller claims nodes by two operations, each of them atomic: it opens a node and takes the lock
of the file behind it in one go, or finds it taken; and it gives a lock back. An attempt is a
finite program of such operations. One caller alone runs it to its end (`run`); callers that run
side by side take turns at its steps (`step`).

* `run_step`: a step does not change what the rest of a run comes to.
* `run_bind`: a run of two attempts in a row is a run of the first, then of the second.
* `acquire_ok`: a lock is granted only on a file that nobody holds.
-/
namespace NpuBroker

/-- The files that are locked, by whomever. -/
abbrev Locks := List FileId

namespace Locks

/-- Opens the node at `path` and takes its lock; `none` when somebody holds it. -/
def acquire (h : Host) (path : String) (l : Locks) : Except Host.Error (Option FileId) × Locks :=
  match h.openNode path with
  | .error e => (.error e, l)
  | .ok file => if file ∈ l then (.ok none, l) else (.ok (some file), file :: l)

def release (l : Locks) (file : FileId) : Locks := l.erase file

theorem acquire_ok {h : Host} {path : String} {l m : Locks} {file : FileId}
    (ha : acquire h path l = (.ok (some file), m)) :
    h.openNode path = .ok file ∧ file ∉ l ∧ m = file :: l := by
  unfold acquire at ha
  split at ha
  · simp at ha
  · rename_i i hi
    split at ha
    · simp at ha
    · rename_i hn
      simp only [Prod.mk.injEq, Except.ok.injEq, Option.some.injEq] at ha
      obtain ⟨rfl, rfl⟩ := ha
      exact ⟨hi, hn, rfl⟩

end Locks

inductive Attempt (α : Type) where
  | done (a : α)
  | lock (path : String) (next : Except Host.Error (Option FileId) → Attempt α)
  | unlock (file : FileId) (next : Attempt α)

namespace Attempt

variable {α β : Type}

def bind : Attempt α → (α → Attempt β) → Attempt β
  | .done a, f => f a
  | .lock path next, f => .lock path fun r => (next r).bind f
  | .unlock file next, f => .unlock file (next.bind f)

instance : Monad Attempt where
  pure := .done
  bind := bind

/-- One operation; nothing happens any more when the attempt is done. -/
def step (h : Host) : Attempt α → Locks → Attempt α × Locks
  | .done a, l => (.done a, l)
  | .lock path next, l => (next (l.acquire h path).1, (l.acquire h path).2)
  | .unlock file next, l => (next, l.release file)

/-- All operations without a break. -/
def run (h : Host) : Attempt α → Locks → α × Locks
  | .done a, l => (a, l)
  | .lock path next, l => (next (l.acquire h path).1).run h (l.acquire h path).2
  | .unlock file next, l => next.run h (l.release file)

/-- Gives the locks of `files` back, one by one. -/
def unlockAll : List FileId → Attempt Unit
  | [] => .done ()
  | file :: files => .unlock file (unlockAll files)

theorem run_step (h : Host) (a : Attempt α) (l : Locks) :
    (a.step h l).1.run h (a.step h l).2 = a.run h l := by
  cases a <;> rfl

@[simp] theorem run_done (h : Host) (a : α) (l : Locks) :
    (done a : Attempt α).run h l = (a, l) := rfl

@[simp] theorem run_pure (h : Host) (a : α) (l : Locks) :
    (pure a : Attempt α).run h l = (a, l) := rfl

@[simp] theorem run_bind (h : Host) (a : Attempt α) (f : α → Attempt β) (l : Locks) :
    (a >>= f).run h l = (f (a.run h l).1).run h (a.run h l).2 := by
  change (a.bind f).run h l = _
  induction a generalizing l with
  | done a => rfl
  | lock path next ih => exact ih _ _
  | unlock file next ih => exact ih _

end Attempt
end NpuBroker

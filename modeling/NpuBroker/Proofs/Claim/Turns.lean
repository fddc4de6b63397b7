import NpuBroker.Proofs.Claim.Probe
import NpuBroker.Proofs.Expansion
import Mathlib.Data.List.Perm.Basic
import Mathlib.Logic.Function.Iterate

/-!
# A call for one unit, turn by turn

A call that names one unit locks the nodes that overlap it one after the other, giving each lock
back before it goes on, and then locks its own node. Between two of its turns it has at most one
file locked. What it does next depends on how far it is and on what others have locked, not on
which turns were theirs.

* `find_eq_seek`: the request as the sequence of operations that it comes to.
* `Stage.step_attempt`: a turn of the call is a step from stage to stage.
* `Stage.turns_seek`: what a call comes to that is alone, turn by turn.
* `Stage.exists_looking`: a call that succeeds has come past each node that it had to look at.
* `Stage.ended_of_le`: two turns for each node that is looked at, and one more, are enough.
-/
namespace NpuBroker

/-! ## Attempts in a row -/

namespace Attempt

variable {α β γ : Type}

theorem bind_assoc (a : Attempt α) (f : α → Attempt β) (g : β → Attempt γ) :
    (a >>= f) >>= g = a >>= fun x => f x >>= g := by
  show (a.bind f).bind g = a.bind fun x => (f x).bind g
  induction a with
  | done x => rfl
  | lock path next ih => exact congrArg (lock path) (funext ih)
  | unlock file next ih => exact congrArg (unlock file) ih

/-- `k` turns in a row. -/
def turns (h : Host) (k : Nat) (a : Attempt α) (l : Locks) : Attempt α × Locks :=
  (fun x => x.1.step h x.2)^[k] (a, l)

/-- Turns lead towards the end of the run, whoever takes how many. -/
theorem run_turns (h : Host) (k : Nat) (a : Attempt α) (l : Locks) :
    (a.turns h k l).1.run h (a.turns h k l).2 = a.run h l := by
  induction k with
  | zero => rfl
  | succ k ih =>
    rw [turns, Function.iterate_succ_apply', ← turns]
    exact (run_step h _ _).trans ih

/-- An attempt that is over has come to what its run comes to. -/
theorem turns_of_done {h : Host} {k : Nat} {a : Attempt α} {l : Locks} {x : α}
    (hd : (a.turns h k l).1 = .done x) : a.run h l = (x, (a.turns h k l).2) := by
  rw [← run_turns h k a l, hd]
  rfl

end Attempt

variable {h : Host} {t : Topology} {n : Node} {s l : Locks}

namespace Claim

/-! ## The request as a sequence of operations -/

/-- Claims the node once it turns out that nobody holds any of `ahead`. -/
def seek (n : Node) (ahead : List Node) : Attempt (Except Fault (List Claim)) := do
  match ← anyHeld ahead with
  | .error f => return .error f
  | .ok true => return .error (.busy n.name)
  | .ok false =>
    match ← node? n with
    | .error f => return .error f
    | .ok none => return .error (.busy n.name)
    | .ok (some c) => return .ok [c]

/-- A request for one unit looks at the rivals of its node and then claims the node. -/
theorem find_eq_seek (hn : Plan.named t n.id = .ok n) :
    find t (.explicit [n.id]) = seek n (rivals t [] n) := by
  simp only [find, Plan.expand_one hn, resolve, groups, group?, candidate?, seek,
    Attempt.bind_assoc, List.any_nil, Bool.false_eq_true, if_false]
  refine congrArg (Attempt.bind (anyHeld (rivals t [] n))) (funext fun held => ?_)
  rcases held with f | held
  · rfl
  · cases held with
    | true => rfl
    | false =>
      refine congrArg (Attempt.bind (node? n)) (funext fun answer => ?_)
      rcases answer with f | _ | c <;> rfl

/-- How the first of the nodes ahead is looked at. -/
theorem seek_cons (m : Node) (ahead : List Node) :
    seek n (m :: ahead) = .lock m.path fun
      | .error .notFound => seek n ahead
      | .error e => .done (.error (.host e))
      | .ok none => .done (.error (.busy n.name))
      | .ok (some file) => .unlock file (seek n ahead) := by
  refine congrArg (Attempt.lock m.path) (funext fun answer => ?_)
  rcases answer with e | _ | file
  · cases e <;> rfl
  · rfl
  · rfl

theorem seek_nil (n : Node) : seek n [] = .lock n.path fun
    | .error .notFound => .done (.error (.notFound n.name))
    | .error e => .done (.error (.host e))
    | .ok none => .done (.error (.busy n.name))
    | .ok (some file) => .done (.ok [⟨n, file⟩]) := by
  refine congrArg (Attempt.lock n.path) (funext fun answer => ?_)
  rcases answer with e | _ | file
  · cases e <;> rfl
  · rfl
  · rfl

/-- Alone, and with nothing in its way, the call claims its node. -/
theorem run_seek_free {ahead : List Node} {file : FileId}
    (hahead : ∀ m ∈ ahead, m.heldIn h s = .ok false) (hfile : h.openNode n.path = .ok file)
    (hfree : file ∉ s) : (seek n ahead).run h s = (.ok [⟨n, file⟩], file :: s) := by
  simp only [seek, Attempt.run_bind, run_anyHeld, anyHeldIn_eq_false_iff.2 hahead, run_node?,
    hfile, if_neg hfree]
  rfl

/-! ## Stages -/

/-- How far a call for one unit is. -/
inductive Stage where
  /-- It holds nothing, and has these nodes to look at before it claims its own. -/
  | looking (ahead : List Node)
  /-- It has the lock of a node that it looks at. -/
  | peeking (file : FileId) (ahead : List Node)
  | ended (answer : Except Fault (List Claim))

namespace Stage

/-- The files that the call has locked. -/
def held : Stage → List FileId
  | .looking _ => []
  | .peeking file _ => [file]
  | .ended answer => (answer.toOption.getD []).map Claim.file

/-- What the call has still to do. -/
def attempt (n : Node) : Stage → Attempt (Except Fault (List Claim))
  | .looking ahead => seek n ahead
  | .peeking file ahead => .unlock file (seek n ahead)
  | .ended answer => .done answer

/-- A call is over when it has nothing left to do. -/
theorem attempt_eq_done_iff {st : Stage} {answer : Except Fault (List Claim)} :
    st.attempt n = .done answer ↔ st = .ended answer := by
  cases st with
  | looking ahead => cases ahead <;> simp [attempt, seek_nil, seek_cons]
  | peeking file ahead => simp [attempt]
  | ended answer => simp [attempt]

/-- The stage after the next turn of the call, while others have `others` locked. -/
def next (h : Host) (n : Node) (others : Locks) : Stage → Stage
  | .looking [] =>
    match h.openNode n.path with
    | .error .notFound => .ended (.error (.notFound n.name))
    | .error e => .ended (.error (.host e))
    | .ok file =>
      if file ∈ others then .ended (.error (.busy n.name)) else .ended (.ok [⟨n, file⟩])
  | .looking (m :: ahead) =>
    match h.openNode m.path with
    | .error .notFound => .looking ahead
    | .error e => .ended (.error (.host e))
    | .ok file =>
      if file ∈ others then .ended (.error (.busy n.name)) else .peeking file ahead
  | .peeking _ ahead => .looking ahead
  | .ended answer => .ended answer

/-- A turn of the call takes it to its next stage, and the locks of the others stay. -/
theorem step_attempt {others : Locks} (st : Stage) (hl : l.Perm (st.held ++ others)) :
    ((st.attempt n).step h l).1 = (st.next h n others).attempt n ∧
      ((st.attempt n).step h l).2.Perm ((st.next h n others).held ++ others) := by
  have hmem : ∀ file, st.held = [] → (file ∈ l ↔ file ∈ others) := by
    intro file hnone
    rw [hl.mem_iff, hnone, List.nil_append]
  cases st with
  | looking ahead =>
    cases ahead with
    | nil =>
      simp only [attempt, seek_nil, Attempt.step, Locks.acquire, next]
      cases h.openNode n.path with
      | error e => cases e <;> exact ⟨rfl, hl⟩
      | ok file =>
        by_cases hf : file ∈ others
        · simpa [hmem file rfl, hf, attempt, held, Except.toOption] using hl
        · simpa [hmem file rfl, hf, attempt, held, Except.toOption] using hl
    | cons m ahead =>
      simp only [attempt, seek_cons, Attempt.step, Locks.acquire, next]
      cases h.openNode m.path with
      | error e => cases e <;> exact ⟨rfl, hl⟩
      | ok file =>
        by_cases hf : file ∈ others
        · simpa [hmem file rfl, hf, attempt, held, Except.toOption] using hl
        · simpa [hmem file rfl, hf, attempt, held] using hl
  | peeking file ahead =>
    refine ⟨rfl, ?_⟩
    have herase := hl.erase file
    simpa [attempt, Attempt.step, Locks.release, next, held] using herase
  | ended answer => exact ⟨rfl, hl⟩

/-- The last turn of a call: it fails, or it locks its own node, which nobody had locked. -/
theorem next_nil_cases (h : Host) (n : Node) (others : Locks) :
    (∃ f, next h n others (.looking []) = .ended (.error f)) ∨
    ∃ file, h.openNode n.path = .ok file ∧ file ∉ others ∧
      next h n others (.looking []) = .ended (.ok [⟨n, file⟩]) := by
  simp only [next]
  cases h.openNode n.path with
  | error e => cases e <;> exact .inl ⟨_, rfl⟩
  | ok file =>
    by_cases hf : file ∈ others
    · exact .inl ⟨_, if_pos hf⟩
    · exact .inr ⟨file, rfl, hf, if_neg hf⟩

/-- A turn that looks at a node: the call fails, goes on at once because the node has vanished,
or locks it. -/
theorem next_cons_cases (h : Host) (n : Node) (others : Locks) (m : Node) (ahead : List Node) :
    (∃ f, next h n others (.looking (m :: ahead)) = .ended (.error f)) ∨
    h.openNode m.path = .error .notFound ∧
      next h n others (.looking (m :: ahead)) = .looking ahead ∨
    ∃ file, h.openNode m.path = .ok file ∧ file ∉ others ∧
      next h n others (.looking (m :: ahead)) = .peeking file ahead := by
  simp only [next]
  cases h.openNode m.path with
  | error e =>
    cases e with
    | notFound => exact .inr (.inl ⟨rfl, rfl⟩)
    | _ => exact .inl ⟨_, rfl⟩
  | ok file =>
    by_cases hf : file ∈ others
    · exact .inl ⟨_, if_pos hf⟩
    · exact .inr (.inr ⟨file, rfl, hf, if_neg hf⟩)

/-- What is locked at the next turn was not locked by others. -/
theorem held_next {others : Locks} {st : Stage} (hst : ∀ file ∈ st.held, file ∉ others) :
    ∀ file ∈ (st.next h n others).held, file ∉ others := by
  cases st with
  | looking ahead =>
    cases ahead with
    | nil =>
      rcases next_nil_cases h n others with ⟨f, hnext⟩ | ⟨file, -, hfree, hnext⟩
      · simp [hnext, held, Except.toOption]
      · simpa [hnext, held, Except.toOption] using hfree
    | cons m ahead =>
      rcases next_cons_cases h n others m ahead with
        ⟨f, hnext⟩ | ⟨-, hnext⟩ | ⟨file, -, hfree, hnext⟩
      · simp [hnext, held, Except.toOption]
      · simp [hnext, held]
      · simpa [hnext, held] using hfree
  | peeking file ahead => simp [next, held]
  | ended answer => exact hst

/-! ## A call that is alone -/

/-- The stage after `k` turns while others have `s` locked all the time. -/
def alone (h : Host) (n : Node) (s : Locks) (k : Nat) (st : Stage) : Stage := (next h n s)^[k] st

theorem alone_succ (k : Nat) (st : Stage) :
    alone h n s (k + 1) st = (alone h n s k st).next h n s := Function.iterate_succ_apply' ..

theorem alone_next (k : Nat) (st : Stage) :
    alone h n s (k + 1) st = alone h n s k (st.next h n s) := Function.iterate_succ_apply ..

theorem alone_add (j k : Nat) (st : Stage) :
    alone h n s (j + k) st = alone h n s j (alone h n s k st) := Function.iterate_add_apply ..

theorem alone_ended (k : Nat) (answer : Except Fault (List Claim)) :
    alone h n s k (.ended answer) = .ended answer := by
  induction k with
  | zero => rfl
  | succ k ih => rw [alone_succ, ih, next]

/-- A call that is over stays over. -/
theorem alone_ended_of_le {j k : Nat} {st : Stage} {answer : Except Fault (List Claim)}
    (hj : alone h n s j st = .ended answer) (hjk : j ≤ k) : alone h n s k st = .ended answer := by
  obtain ⟨i, rfl⟩ := Nat.exists_eq_add_of_le' hjk
  rw [alone_add, hj, alone_ended]

theorem held_alone (k : Nat) (ahead : List Node) :
    ∀ file ∈ (alone h n s k (.looking ahead)).held, file ∉ s := by
  induction k with
  | zero => simp [alone, held]
  | succ k ih =>
    rw [alone_succ]
    exact held_next ih

/-- The turns of a call that is alone are its steps from stage to stage. -/
theorem turns_seek (k : Nat) (ahead : List Node) :
    ((seek n ahead).turns h k s).1 = (alone h n s k (.looking ahead)).attempt n ∧
      ((seek n ahead).turns h k s).2.Perm ((alone h n s k (.looking ahead)).held ++ s) := by
  induction k with
  | zero => exact ⟨rfl, .refl _⟩
  | succ k ih =>
    have hstep := step_attempt (h := h) (n := n) _ ih.2
    rw [← ih.1] at hstep
    rw [alone_succ, Attempt.turns, Function.iterate_succ_apply']
    exact hstep

/-- Two turns for each node that is looked at, and one more, are enough. -/
theorem ended_of_le {k : Nat} {ahead : List Node} (hk : 2 * ahead.length + 1 ≤ k) :
    ∃ answer, alone h n s k (.looking ahead) = .ended answer := by
  induction ahead generalizing k with
  | nil =>
    obtain ⟨k, rfl⟩ : ∃ j, k = j + 1 := ⟨k - 1, by simp at hk; omega⟩
    rw [alone_next]
    rcases next_nil_cases h n s with ⟨f, hnext⟩ | ⟨file, -, -, hnext⟩
    · exact ⟨_, by rw [hnext, alone_ended]⟩
    · exact ⟨_, by rw [hnext, alone_ended]⟩
  | cons m ahead ih =>
    rw [List.length_cons] at hk
    obtain ⟨k, rfl⟩ : ∃ j, k = j + 2 := ⟨k - 2, by omega⟩
    rw [alone_next]
    rcases next_cons_cases h n s m ahead with ⟨f, hnext⟩ | ⟨-, hnext⟩ | ⟨file, -, -, hnext⟩
    · exact ⟨_, by rw [hnext, alone_ended]⟩
    · rw [hnext]
      exact ih (by omega)
    · rw [hnext, alone_next]
      exact ih (by omega)

/-- What the whole call comes to when it is alone is what it comes to turn by turn. -/
theorem run_seek_eq_iff {ahead : List Node} {answer : Except Fault (List Claim)} :
    ((seek n ahead).run h s).1 = answer ↔ ∃ k, alone h n s k (.looking ahead) = .ended answer := by
  have hrun : ∀ k x, alone h n s k (.looking ahead) = .ended x →
      ((seek n ahead).run h s).1 = x := by
    intro k x hx
    have hturns := (turns_seek (h := h) (n := n) (s := s) k ahead).1
    rw [hx, attempt] at hturns
    rw [Attempt.turns_of_done hturns]
  constructor
  · intro hanswer
    obtain ⟨x, hx⟩ : ∃ x, alone h n s (2 * ahead.length + 1) (.looking ahead) = .ended x :=
      ended_of_le (Nat.le_refl _)
    rw [← hanswer, hrun _ x hx]
    exact ⟨_, hx⟩
  · rintro ⟨k, hk⟩
    exact hrun k answer hk

/-- A call that succeeds comes past each of the nodes that it has to look at. -/
theorem exists_looking {k : Nat} {front back : List Node} {cs : List Claim}
    (hk : alone h n s k (.looking (front ++ back)) = .ended (.ok cs)) :
    ∃ i j, k = j + i ∧ alone h n s i (.looking (front ++ back)) = .looking back ∧
      alone h n s j (.looking back) = .ended (.ok cs) := by
  induction front generalizing k with
  | nil => exact ⟨0, k, rfl, rfl, hk⟩
  | cons m front ih =>
    cases k with
    | zero => cases hk
    | succ k =>
      rw [List.cons_append] at hk ⊢
      rw [alone_next] at hk
      rcases next_cons_cases h n s m (front ++ back) with
        ⟨f, hnext⟩ | ⟨-, hnext⟩ | ⟨file, -, -, hnext⟩
      · rw [hnext, alone_ended] at hk
        cases hk
      · rw [hnext] at hk
        obtain ⟨i, j, rfl, hi, hj⟩ := ih hk
        exact ⟨i + 1, j, rfl, by rw [alone_next, hnext, hi], hj⟩
      · rw [hnext] at hk
        cases k with
        | zero => cases hk
        | succ k =>
          rw [alone_next] at hk
          obtain ⟨i, j, rfl, hi, hj⟩ := ih hk
          refine ⟨i + 2, j, rfl, ?_, hj⟩
          rw [alone_next, hnext, alone_next]
          exact hi

/-- At last it has only its own node left, which nobody else has locked, and locks it. -/
theorem exists_looking_nil {k : Nat} {ahead : List Node} {cs : List Claim}
    (hk : alone h n s k (.looking ahead) = .ended (.ok cs)) :
    ∃ i file, h.openNode n.path = .ok file ∧ file ∉ s ∧ cs = [⟨n, file⟩] ∧
      alone h n s i (.looking ahead) = .looking [] ∧
      alone h n s (i + 1) (.looking ahead) = .ended (.ok cs) := by
  rw [← List.append_nil ahead] at hk ⊢
  obtain ⟨i, j, -, hi, hj⟩ := exists_looking hk
  cases j with
  | zero => cases hj
  | succ j =>
    rw [alone_next] at hj
    rcases next_nil_cases h n s with ⟨f, hnext⟩ | ⟨file, hfile, hfree, hnext⟩
    · rw [hnext, alone_ended] at hj
      cases hj
    · rw [hnext, alone_ended] at hj
      cases hj
      exact ⟨i, file, hfile, hfree, rfl, hi, by rw [alone_succ, hi, hnext]⟩

/-- Each node that exists is looked at with the lock of it. -/
theorem exists_peeking {k : Nat} {ahead : List Node} {cs : List Claim} {m : Node} {file : FileId}
    (hk : alone h n s k (.looking ahead) = .ended (.ok cs)) (hm : m ∈ ahead)
    (hfile : h.openNode m.path = .ok file) :
    ∃ i ≤ k, (alone h n s i (.looking ahead)).held = [file] := by
  obtain ⟨front, back, rfl⟩ := List.append_of_mem hm
  obtain ⟨i, j, rfl, hi, hj⟩ := exists_looking hk
  cases j with
  | zero => cases hj
  | succ j =>
    refine ⟨i + 1, by omega, ?_⟩
    rw [alone_next] at hj
    rw [alone_succ, hi]
    rcases next_cons_cases h n s m back with ⟨f, hnext⟩ | ⟨ho, -⟩ | ⟨file', ho, -, hnext⟩
    · rw [hnext, alone_ended] at hj
      cases hj
    · rw [hfile] at ho
      cases ho
    · rw [hfile, Except.ok.injEq] at ho
      rw [hnext, ho]
      rfl

end Stage
end Claim
end NpuBroker

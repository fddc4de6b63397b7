import NpuBroker.Proofs.Claim.Turns
import Mathlib.Data.List.Induction

/-!
# Two calls at a time

Two callers ask for one unit each, on one host, and take turns in any order at the single
operations that their calls consist of. A call has at most one file locked, so all that one call
can do to the other is to have a file locked when the other tries to lock it. The calls meet when,
each as if it were alone, both would have one file locked at the same time. Until then they do not
notice each other; the one that comes second is busy and out of the way, and the other goes on as
if it had been alone all the time.

* `Stage.next_beside`: what a turn can notice of the other call.
* `Race.run_stages`: what the calls come to in any order of turns.
* `Race.succeeded_iff`, `Race.exists_succeeded_iff`: in which orders both succeed, and when in any.
* `Race.one_succeeds`: two calls for one unit.
-/
namespace NpuBroker

open Claim

/-! ## Races -/

/-- The attempt is over, and has not failed. -/
def Attempt.Succeeded {α : Type} (a : Attempt (Except Fault α)) : Prop := ∃ x, a = .done (.ok x)

inductive Side where
  | left
  | right
deriving DecidableEq

/-- Two attempts and the locks that both of them see. -/
structure Race (α β : Type) where
  left : Attempt α
  right : Attempt β
  locks : Locks

namespace Race

variable {α β : Type} {h : Host}

/-- One operation of one side. -/
def turn (h : Host) (r : Race α β) : Side → Race α β
  | .left => ⟨(r.left.step h r.locks).1, r.right, (r.left.step h r.locks).2⟩
  | .right => ⟨r.left, (r.right.step h r.locks).1, (r.right.step h r.locks).2⟩

/-- The turns of both sides in this order. -/
def run (h : Host) (r : Race α β) (order : List Side) : Race α β := order.foldl (turn h) r

/-- At some moment both sides would have one file locked that was free to begin with, if each of
them had taken its turns alone. -/
def Meet (h : Host) (r : Race α β) (order : List Side) : Prop :=
  ∃ early, early <+: order ∧ ∃ file, file ∉ r.locks ∧
    file ∈ (r.left.turns h (early.count .left) r.locks).2 ∧
    file ∈ (r.right.turns h (early.count .right) r.locks).2

/-- An attempt that is over stays as it is. -/
theorem run_left_of_done {r : Race α β} {x : α} (hd : r.left = .done x) (order : List Side) :
    (r.run h order).left = .done x := by
  induction order generalizing r with
  | nil => exact hd
  | cons side order ih =>
    refine ih ?_
    cases side with
    | left =>
      show (r.left.step h r.locks).1 = _
      rw [hd, Attempt.step]
    | right => exact hd

theorem run_append (h : Host) (r : Race α β) (first second : List Side) :
    r.run h (first ++ second) = (r.run h first).run h second := List.foldl_append ..

end Race

variable {h : Host} {t : Topology} {m n : Node} {s l : Locks}

/-! ## A turn beside another call -/

namespace Claim.Stage

/-- The call found a file locked. -/
def lost (n : Node) : Stage := .ended (.error (.busy n.name))

theorem succeeded_attempt_iff {st : Stage} :
    (st.attempt n).Succeeded ↔ ∃ cs, st = .ended (.ok cs) := by
  simp only [Attempt.Succeeded, attempt_eq_done_iff]

/-- A turn goes as if nobody else had `taken` locked, or it is lost because it would lock a file
that is taken. -/
theorem next_beside {st : Stage} {taken : List FileId} (hst : st.held.Disjoint taken) :
    (st.next h n (taken ++ s) = st.next h n s ∧ (st.next h n s).held.Disjoint taken) ∨
    (st.next h n (taken ++ s) = lost n ∧ ¬ (st.next h n s).held.Disjoint taken) := by
  cases st with
  | looking ahead =>
    cases ahead with
    | nil =>
      simp only [next, List.mem_append]
      cases h.openNode n.path with
      | error e => cases e <;> exact .inl ⟨rfl, List.disjoint_nil_left _⟩
      | ok file =>
        by_cases hs : file ∈ s
        · simp [hs, held, Except.toOption]
        · by_cases ht : file ∈ taken
          · simp [hs, ht, held, lost, Except.toOption]
          · simp [hs, ht, held, Except.toOption]
    | cons m ahead =>
      simp only [next, List.mem_append]
      cases h.openNode m.path with
      | error e => cases e <;> exact .inl ⟨rfl, List.disjoint_nil_left _⟩
      | ok file =>
        by_cases hs : file ∈ s
        · simp [hs, held, Except.toOption]
        · by_cases ht : file ∈ taken
          · simp [hs, ht, held, lost]
          · simp [hs, ht, held]
  | peeking file ahead => exact .inl ⟨rfl, List.disjoint_nil_left _⟩
  | ended answer => exact .inl ⟨rfl, hst⟩

/-- How far two calls are, `a` and `b` beside each other and `a'` and `b'` if they had been alone,
when they have met or not. -/
def Standing (m n : Node) (met : Prop) (a b a' b' : Stage) : Prop :=
  (¬ met ∧ a = a' ∧ b = b' ∧ a'.held.Disjoint b'.held) ∨
  (met ∧ (a = lost m ∧ b = b' ∨ a = a' ∧ b = lost n))

theorem Standing.symm {met : Prop} {a b a' b' : Stage} (hs : Standing m n met a b a' b') :
    Standing n m met b a b' a' := by
  rcases hs with ⟨hm, ha, hb, hd⟩ | ⟨hm, ⟨ha, hb⟩ | ⟨ha, hb⟩⟩
  · exact .inl ⟨hm, hb, ha, fun file hfb hfa => hd hfa hfb⟩
  · exact .inr ⟨hm, .inr ⟨hb, ha⟩⟩
  · exact .inr ⟨hm, .inl ⟨hb, ha⟩⟩

/-- After a turn of one of the calls they have met if they had before, or do now. -/
theorem Standing.next {met : Prop} {a b a' b' : Stage} (hs : Standing m n met a b a' b') :
    Standing m n (met ∨ ¬ (a'.next h m s).held.Disjoint b'.held) (a.next h m (b.held ++ s)) b
      (a'.next h m s) b' := by
  rcases hs with ⟨hm, rfl, rfl, hd⟩ | ⟨hm, ⟨rfl, rfl⟩ | ⟨rfl, rfl⟩⟩
  · rcases next_beside (h := h) (n := m) (s := s) hd with ⟨hnext, hd'⟩ | ⟨hnext, hd'⟩
    · exact .inl ⟨by simp [hm, hd'], hnext, rfl, hd'⟩
    · exact .inr ⟨.inr hd', .inl ⟨hnext, rfl⟩⟩
  · exact .inr ⟨.inl hm, .inl ⟨rfl, rfl⟩⟩
  · exact .inr ⟨.inl hm, .inr ⟨rfl, rfl⟩⟩

end Claim.Stage

/-! ## Races of calls for one unit -/

namespace Race

open Claim.Stage

variable {ms ns : List Node}

/-- Calls for one unit meet when both would have one file locked. -/
theorem meet_seek_iff {order : List Side} :
    Meet h ⟨seek m ms, seek n ns, s⟩ order ↔ ∃ early, early <+: order ∧
      ¬ (alone h m s (early.count .left) (.looking ms)).held.Disjoint
        (alone h n s (early.count .right) (.looking ns)).held := by
  unfold Meet
  refine exists_congr fun early => and_congr_right fun _ => ?_
  have hleft := (turns_seek (h := h) (n := m) (s := s) (early.count .left) ms).2
  have hright := (turns_seek (h := h) (n := n) (s := s) (early.count .right) ns).2
  simp only [hleft.mem_iff, hright.mem_iff, List.mem_append, List.Disjoint, not_forall]
  constructor
  · rintro ⟨file, hfree, hl, hr⟩
    exact ⟨file, hl.resolve_right hfree, hr.resolve_right hfree, id⟩
  · rintro ⟨file, hl, hr, -⟩
    exact ⟨file, held_alone _ _ file hl, .inl hl, .inl hr⟩

/-- One turn more makes calls meet if they met before, or if they do now. -/
theorem meet_concat_iff {order : List Side} {x : Side} :
    Meet h ⟨seek m ms, seek n ns, s⟩ (order ++ [x]) ↔ Meet h ⟨seek m ms, seek n ns, s⟩ order ∨
      ¬ (alone h m s ((order ++ [x]).count .left) (.looking ms)).held.Disjoint
        (alone h n s ((order ++ [x]).count .right) (.looking ns)).held := by
  simp only [meet_seek_iff, List.prefix_concat_iff]
  constructor
  · rintro ⟨early, rfl | hearly, hd⟩
    · exact .inr hd
    · exact .inl ⟨early, hearly, hd⟩
  · rintro (⟨early, hearly, hd⟩ | hd)
    · exact ⟨early, .inr hearly, hd⟩
    · exact ⟨_, .inl rfl, hd⟩

/-- However the turns are taken, the calls are at some stage each, the locks are what they hold
beside `s`, and unless they have met each is where it would be alone. -/
theorem run_stages (order : List Side) : ∃ (a b : Stage) (l : Locks),
    run h ⟨seek m ms, seek n ns, s⟩ order = ⟨a.attempt m, b.attempt n, l⟩ ∧
      l.Perm (a.held ++ (b.held ++ s)) ∧
      Standing m n (Meet h ⟨seek m ms, seek n ns, s⟩ order) a b
        (alone h m s (order.count .left) (.looking ms))
        (alone h n s (order.count .right) (.looking ns)) := by
  induction order using List.reverseRecOn with
  | nil =>
    refine ⟨.looking ms, .looking ns, s, rfl, .refl _, .inl ⟨?_, rfl, rfl, ?_⟩⟩
    · simp [meet_seek_iff, alone, Stage.held]
    · exact List.disjoint_nil_left _
  | append_singleton order x ih =>
    obtain ⟨a, b, l, hrun, hl, hs⟩ := ih
    rw [run_append, hrun, meet_concat_iff]
    cases x with
    | left =>
      have hstep := step_attempt (h := h) (n := m) a hl
      have hnext := hs.next (h := h) (s := s)
      simp only [List.count_append, List.count_singleton_self, alone_succ]
      refine ⟨a.next h m (b.held ++ s), b, _, ?_, hstep.2, hnext⟩
      show turn h _ .left = _
      rw [turn, hstep.1]
    | right =>
      have hswap : l.Perm (b.held ++ (a.held ++ s)) := hl.trans (List.perm_append_comm_assoc ..)
      have hstep := step_attempt (h := h) (n := n) b hswap
      have hlocks := hstep.2.trans (List.perm_append_comm_assoc ..)
      have hnext := (hs.symm.next (h := h) (s := s)).symm
      simp only [List.count_append, List.count_singleton_self, alone_succ]
      refine ⟨a, b.next h n (a.held ++ s), _, ?_, hlocks, ?_⟩
      · show turn h _ .right = _
        rw [turn, hstep.1]
      · simpa [List.disjoint_comm] using hnext

/-- Whatever the other does, a call is over after two turns for each node it looks at and one. -/
theorem ended_of_le_count {order : List Side} :
    (2 * ms.length + 1 ≤ order.count .left →
      ∃ x, (run h ⟨seek m ms, seek n ns, s⟩ order).left = .done x) ∧
    (2 * ns.length + 1 ≤ order.count .right →
      ∃ y, (run h ⟨seek m ms, seek n ns, s⟩ order).right = .done y) := by
  obtain ⟨a, b, l, hrun, -, hs⟩ := @run_stages h m n s ms ns order
  simp only [hrun, attempt_eq_done_iff]
  constructor
  · intro hk
    obtain ⟨x, hx⟩ := ended_of_le (h := h) (n := m) (s := s) hk
    rcases hs with ⟨-, ha, -⟩ | ⟨-, ⟨ha, -⟩ | ⟨ha, -⟩⟩
    · exact ⟨x, ha.trans hx⟩
    · exact ⟨_, ha⟩
    · exact ⟨x, ha.trans hx⟩
  · intro hk
    obtain ⟨y, hy⟩ := ended_of_le (h := h) (n := n) (s := s) hk
    rcases hs with ⟨-, -, hb, -⟩ | ⟨-, ⟨-, hb⟩ | ⟨-, hb⟩⟩
    · exact ⟨y, hb.trans hy⟩
    · exact ⟨y, hb.trans hy⟩
    · exact ⟨_, hb⟩

/-- Of two calls for one unit that nothing stands in the way of, one finds the other there. -/
theorem one_succeeds {file : FileId} {order : List Side} {x y : Except Fault (List Claim)}
    (hns : ∀ m ∈ ns, m.heldIn h s = .ok false) (hfile : h.openNode n.path = .ok file)
    (hfree : file ∉ s) (hx : (run h ⟨seek n ns, seek n ns, s⟩ order).left = .done x)
    (hy : (run h ⟨seek n ns, seek n ns, s⟩ order).right = .done y) :
    (x = .ok [⟨n, file⟩] ∧ y = .error (.busy n.name) ∨
      x = .error (.busy n.name) ∧ y = .ok [⟨n, file⟩]) ∧
    (run h ⟨seek n ns, seek n ns, s⟩ order).locks.Perm (file :: s) := by
  obtain ⟨a, b, l, hrun, hl, hs⟩ := @run_stages h n n s ns ns order
  rw [hrun] at hx hy ⊢
  rw [attempt_eq_done_iff] at hx hy
  subst hx hy
  have halone : ∀ k z, .ended z = alone h n s k (.looking ns) → z = .ok [⟨n, file⟩] := by
    intro k z hz
    rw [← run_seek_eq_iff.2 ⟨k, hz.symm⟩, run_seek_free hns hfile hfree]
  rcases hs with ⟨-, hx, hy, hd⟩ | ⟨-, ⟨hx, hy⟩ | ⟨hx, hy⟩⟩
  · -- both have the file locked, which cannot be unless they have met
    rw [← hx, ← hy, halone _ x hx, halone _ y hy] at hd
    simp [Stage.held, Except.toOption] at hd
  · have hy := halone _ y hy
    cases hx
    subst hy
    exact ⟨.inr ⟨rfl, rfl⟩, hl⟩
  · have hx := halone _ x hx
    cases hy
    subst hx
    exact ⟨.inl ⟨rfl, rfl⟩, hl⟩

/-- Of the turns of a side there is every number at some time. -/
theorem exists_prefix_count {order : List Side} {side : Side} {k : Nat}
    (hk : k ≤ order.count side) : ∃ early, early <+: order ∧ early.count side = k := by
  induction order using List.reverseRecOn with
  | nil => exact ⟨[], List.prefix_refl _, (Nat.le_zero.1 hk).symm⟩
  | append_singleton order x ih =>
    by_cases hle : k ≤ order.count side
    · obtain ⟨early, hearly, hcount⟩ := ih hle
      exact ⟨early, hearly.trans (List.prefix_append _ _), hcount⟩
    · refine ⟨order ++ [x], List.prefix_refl _, ?_⟩
      have hone : [x].count side ≤ 1 := List.count_le_length
      rw [List.count_append] at hk ⊢
      omega

/-- Calls do not meet as long as only one of them takes turns. -/
theorem not_meet_of_not_mem {order : List Side} (ho : .right ∉ order) :
    ¬ Meet h ⟨seek m ms, seek n ns, s⟩ order := by
  rw [meet_seek_iff]
  rintro ⟨early, hearly, hmeet⟩
  refine hmeet ?_
  rw [List.count_eq_zero.2 fun hmem => ho (hearly.subset hmem)]
  exact List.disjoint_nil_right _

/-- Nor do they while the left one stands still and has nothing locked. -/
theorem not_meet_append_replicate {order : List Side} {k : Nat}
    (ho : ¬ Meet h ⟨seek m ms, seek n ns, s⟩ order)
    (hidle : (alone h m s (order.count .left) (.looking ms)).held = []) :
    ¬ Meet h ⟨seek m ms, seek n ns, s⟩ (order ++ List.replicate k .right) := by
  induction k with
  | zero => simpa using ho
  | succ k ih =>
    rw [List.replicate_succ', ← List.append_assoc, meet_concat_iff]
    have hcount : (order ++ List.replicate k Side.right ++ [Side.right]).count .left =
        order.count .left := by simp [List.count_replicate]
    rw [hcount, hidle]
    simpa using ih

/-- When both calls succeed: each of them would alone, within its turns, and they do not meet. -/
theorem succeeded_iff {order : List Side} :
    (run h ⟨seek m ms, seek n ns, s⟩ order).left.Succeeded ∧
        (run h ⟨seek m ms, seek n ns, s⟩ order).right.Succeeded ↔
      ((seek m ms).turns h (order.count .left) s).1.Succeeded ∧
        ((seek n ns).turns h (order.count .right) s).1.Succeeded ∧
        ¬ Meet h ⟨seek m ms, seek n ns, s⟩ order := by
  obtain ⟨a, b, l, hrun, -, hs⟩ := @run_stages h m n s ms ns order
  rw [hrun, (turns_seek _ _).1, (turns_seek _ _).1]
  have hlost : ∀ k, ¬ ((lost k).attempt k).Succeeded := by
    simp [succeeded_attempt_iff, lost]
  rcases hs with ⟨hmet, rfl, rfl, -⟩ | ⟨hmet, ⟨rfl, -⟩ | ⟨-, rfl⟩⟩
  · simp [hmet]
  · simp [hmet, hlost]
  · simp [hmet, hlost]

/-- Two calls have each a way to their own node that the other leaves open. -/
theorem exists_apart {j k : Nat} {cs ds : List Claim}
    (hleft : alone h m s j (.looking ms) = .ended (.ok cs))
    (hright : alone h n s k (.looking ns) = .ended (.ok ds))
    (hne : h.openNode m.path ≠ h.openNode n.path) : ∃ order,
      (∃ cs, alone h m s (order.count .left) (.looking ms) = .ended (.ok cs)) ∧
      (∃ ds, alone h n s (order.count .right) (.looking ns) = .ended (.ok ds)) ∧
      ¬ Meet h ⟨seek m ms, seek n ns, s⟩ order := by
  obtain ⟨i, file, hfile, -, rfl, hi, hclaim⟩ := exists_looking_nil hleft
  obtain ⟨i', file', hfile', -, rfl, hi', hclaim'⟩ := exists_looking_nil hright
  -- each looks at others, first all on the left and then all on the right, and then both claim
  let looked := List.replicate i Side.left ++ List.replicate i' Side.right
  have hleft : (looked ++ [Side.left]).count .left = i + 1 ∧
      (looked ++ [Side.left]).count .right = i' := by
    simp [looked, List.count_replicate]
  have hboth : (looked ++ [Side.left] ++ [Side.right]).count .left = i + 1 ∧
      (looked ++ [Side.left] ++ [Side.right]).count .right = i' + 1 := by
    simp [looked, List.count_replicate]
  refine ⟨looked ++ [.left] ++ [.right], ?_, ?_, ?_⟩
  · exact ⟨_, hboth.1 ▸ hclaim⟩
  · exact ⟨_, hboth.2 ▸ hclaim'⟩
  rw [meet_concat_iff, meet_concat_iff, hleft.1, hleft.2, hboth.1, hboth.2, hi', hclaim, hclaim']
  rintro ((hmeet | hmeet) | hmeet)
  · refine not_meet_append_replicate (not_meet_of_not_mem ?_) ?_ hmeet
    · simp [List.mem_replicate]
    · simp [hi, Stage.held]
  · exact hmeet (List.disjoint_nil_right _)
  · refine hmeet ?_
    have hfiles : file' ≠ file := by
      rintro rfl
      exact hne (hfile.trans hfile'.symm)
    simpa [Stage.held, Except.toOption] using hfiles

/-- In some order both calls succeed if each would alone, on different files. -/
theorem exists_succeeded_iff :
    (∃ order, (run h ⟨seek m ms, seek n ns, s⟩ order).left.Succeeded ∧
        (run h ⟨seek m ms, seek n ns, s⟩ order).right.Succeeded) ↔
      (∃ cs, ((seek m ms).run h s).1 = .ok cs) ∧ (∃ cs, ((seek n ns).run h s).1 = .ok cs) ∧
        h.openNode m.path ≠ h.openNode n.path := by
  simp only [succeeded_iff, turns_seek, succeeded_attempt_iff, run_seek_eq_iff]
  constructor
  · rintro ⟨order, ⟨cs, hleft⟩, ⟨ds, hright⟩, hmeet⟩
    refine ⟨⟨cs, _, hleft⟩, ⟨ds, _, hright⟩, fun he => hmeet ?_⟩
    obtain ⟨-, file, hfile, -, rfl, -⟩ := exists_looking_nil hleft
    obtain ⟨-, file', hfile', -, rfl, -⟩ := exists_looking_nil hright
    rw [hfile, hfile', Except.ok.injEq] at he
    refine meet_seek_iff.2 ⟨order, List.prefix_refl _, ?_⟩
    simp [hleft, hright, he, Stage.held, Except.toOption]
  · rintro ⟨⟨cs, j, hleft⟩, ⟨ds, k, hright⟩, hne⟩
    exact exists_apart hleft hright hne

/-- A call that looks at the other's node when the other is over does not succeed beside it. -/
theorem not_succeeded_after {first second : List Side} (hmem : m = n ∨ m ∈ ns)
    (hfirst : .right ∉ first) (hleft : (run h ⟨seek m ms, seek n ns, s⟩ first).left.Succeeded) :
    ¬ (run h ⟨seek m ms, seek n ns, s⟩ (first ++ second)).right.Succeeded := by
  intro hright
  have hmet : ¬ Meet h ⟨seek m ms, seek n ns, s⟩ first := not_meet_of_not_mem hfirst
  have hboth : (run h ⟨seek m ms, seek n ns, s⟩ (first ++ second)).left.Succeeded := by
    obtain ⟨cs, hcs⟩ := hleft
    exact ⟨cs, run_append h _ first second ▸ run_left_of_done hcs second⟩
  obtain ⟨-, hds, hapart⟩ := succeeded_iff.1 ⟨hboth, hright⟩
  rw [(turns_seek _ _).1, succeeded_attempt_iff] at hds
  obtain ⟨ds, hds⟩ := hds
  obtain ⟨cs, hcs⟩ : ∃ cs, alone h m s (first.count .left) (.looking ms) = .ended (.ok cs) := by
    obtain ⟨a, b, l, hrun, -, hs⟩ := @run_stages h m n s ms ns first
    rcases hs with ⟨-, ha, -⟩ | ⟨hmeet, -⟩
    · rwa [hrun, succeeded_attempt_iff, ha] at hleft
    · exact absurd hmeet hmet
  obtain ⟨-, file, hfile, -, rfl, -⟩ := exists_looking_nil hcs
  -- the right call comes to have the file locked, because it looks at the node or claims it
  obtain ⟨j, hj, hheld⟩ : ∃ j ≤ second.count .right,
      (alone h n s j (.looking ns)).held = [file] := by
    rw [List.count_append, List.count_eq_zero.2 hfirst, Nat.zero_add] at hds
    rcases hmem with rfl | hmem
    · obtain ⟨-, file', hfile', -, rfl, -⟩ := exists_looking_nil hds
      rw [hfile, Except.ok.injEq] at hfile'
      exact ⟨_, Nat.le_refl _, by rw [hds, hfile']; rfl⟩
    · exact exists_peeking hds hmem hfile
  obtain ⟨early, hearly, rfl⟩ := exists_prefix_count hj
  refine hapart (meet_seek_iff.2 ⟨first ++ early, (List.prefix_append_right_inj _).2 hearly, ?_⟩)
  have hmore : first.count .left ≤ (first ++ early).count .left :=
    (List.prefix_append _ _).sublist.count_le _
  have hended := alone_ended_of_le hcs hmore
  rw [hended, List.count_append, List.count_eq_zero.2 hfirst, Nat.zero_add, hheld]
  simp [Stage.held, Except.toOption]

end Race

end NpuBroker

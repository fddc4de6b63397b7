import NpuBroker.Occupancy
import NpuBroker.Proofs.Claim.Probe
import NpuBroker.Proofs.Expansion
import NpuBroker.Proofs.Spelling
import Mathlib.Data.List.Perm.Basic

/-!
# What a call does to the locks

A call that claims goes through groups of candidates and gathers at most one claim from each. The
relation `Gathered` says how the claims come about, one granted beside those before it; every
fact about the claims of a call is an induction on it. However a call ends, it either gives back
all that it took or keeps one new lock for each claim it returns.

* `run_groups`, `run_resolve`, `run_find`, `run_openNode`: a call fails and the locks are as
  before, or its claims are gathered from the groups of its plan.
* `Gathered.apart`: claims of one call do not overlap.
* `locks_settled`: errors change no lock, claims are one new lock each, a look at a device changes
  none, and giving the claims back in any order restores what was before.
-/
namespace NpuBroker

variable {h : Host} {t : Topology} {s l : Locks}

theorem Attempt.run_unlockAll (files : List FileId) :
    (unlockAll files).run h l = ((), l.diff files) := by
  induction files generalizing l with
  | nil => rfl
  | cons file files ih =>
    rw [List.diff_cons]
    exact ih

namespace Claim

theorem run_releaseAll (cs : List Claim) :
    (releaseAll cs).run h l = ((), l.diff (cs.map file)) :=
  Attempt.run_unlockAll _

/-- The claims `cs` are gathered from `groups`, starting from the locks `s`, and `l` are the
locks by then: from each group one claim that is granted beside the earlier ones, or none. -/
inductive Gathered (h : Host) (t : Topology) (s : Locks) :
    List (List Node) → List Claim → Locks → Prop
  | start : Gathered h t s [] [] s
  | skip {gs g cs l} : Gathered h t s gs cs l → Gathered h t s (gs ++ [g]) cs l
  | take {gs g cs l c} : Gathered h t s gs cs l → c.node ∈ g → Granted h t cs l c →
      Gathered h t s (gs ++ [g]) (cs ++ [c]) (c.file :: l)

namespace Gathered

variable {gs : List (List Node)} {cs : List Claim}

theorem locks_eq (hg : Gathered h t s gs cs l) : l = (cs.map file).reverse ++ s := by
  induction hg with
  | start => rfl
  | skip _ ih => exact ih
  | take _ _ _ ih => simp [ih]

theorem opened (hg : Gathered h t s gs cs l) : ∀ c ∈ cs, h.openNode c.node.path = .ok c.file := by
  induction hg with
  | start => simp
  | skip _ ih => exact ih
  | take _ _ hc ih =>
    rw [List.forall_mem_append, List.forall_mem_singleton]
    exact ⟨ih, hc.opened⟩

theorem fresh (hg : Gathered h t s gs cs l) : ∀ c ∈ cs, c.file ∉ s := by
  induction hg with
  | start => simp
  | skip _ ih => exact ih
  | take hg _ hc ih =>
    have hf := hc.free
    rw [hg.locks_eq, List.mem_append, not_or] at hf
    rw [List.forall_mem_append, List.forall_mem_singleton]
    exact ⟨ih, hf.2⟩

theorem distinct (hg : Gathered h t s gs cs l) : (cs.map file).Nodup := by
  induction hg with
  | start => simp
  | skip _ ih => exact ih
  | take hg _ hc ih =>
    have hf := hc.free
    rw [hg.locks_eq, List.mem_append, List.mem_reverse, not_or] at hf
    rw [List.map_append, List.nodup_append]
    refine ⟨ih, by simp, fun a ha b hb => ?_⟩
    rw [List.map_singleton, List.mem_singleton] at hb
    rintro rfl
    exact hf.1 (hb ▸ ha)

/-- Claims of one call do not overlap. -/
theorem apart (hg : Gathered h t s gs cs l) :
    cs.Pairwise fun a b => a.node.overlaps b.node = false := by
  induction hg with
  | start => exact .nil
  | skip _ ih => exact ih
  | take _ _ hc ih =>
    rw [List.pairwise_append]
    exact ⟨ih, List.pairwise_singleton .., fun a ha b hb => by
      rw [List.mem_singleton] at hb
      exact hb ▸ hc.apart a ha⟩

theorem length_le (hg : Gathered h t s gs cs l) : cs.length ≤ gs.length := by
  induction hg with
  | start => simp
  | skip _ ih =>
    rw [List.length_append]
    omega
  | take _ _ _ ih =>
    simp only [List.length_append, List.length_singleton]
    omega

theorem mem_group (hg : Gathered h t s gs cs l) : ∀ c ∈ cs, ∃ g ∈ gs, c.node ∈ g := by
  induction hg with
  | start => simp
  | skip _ ih =>
    intro c hc
    obtain ⟨g, hg, hcg⟩ := ih c hc
    exact ⟨g, List.mem_append_left _ hg, hcg⟩
  | @take gs g cs l c _ hn _ ih =>
    intro d hd
    rcases List.mem_append.1 hd with hd | hd
    · obtain ⟨g', hg', hdg⟩ := ih d hd
      exact ⟨g', List.mem_append_left _ hg', hdg⟩
    · rw [List.mem_singleton] at hd
      exact ⟨g, by simp, hd ▸ hn⟩

/-- Claims do not overlap a listed node that was locked before them, though they are not all
checked against it: where it overlaps an earlier claim of the call, that claim is not granted. -/
theorem apart_from (hg : Gathered h t s gs cs l) {e : Node} {file : FileId} (hl : t.Listed e)
    (ho : h.openNode e.path = .ok file) (hf : file ∈ s) :
    ∀ c ∈ cs, e.overlaps c.node = false := by
  induction hg with
  | start => simp
  | skip _ ih => exact ih
  | @take gs g cs l c hg _ hc ih =>
    rw [List.forall_mem_append, List.forall_mem_singleton]
    refine ⟨ih, Bool.eq_false_iff.2 fun hover => ?_⟩
    have hfl : file ∈ l := by
      rw [hg.locks_eq]
      exact List.mem_append_right _ hf
    cases hsame : e.same c.node with
    | true =>
      simp only [Node.same, Bool.and_eq_true] at hsame
      have := Host.openNode_unique hsame.2 ho hc.opened
      exact hc.free (this ▸ hfl)
    | false =>
      obtain ⟨d, hd, hed⟩ := hl
      rw [Node.device_of_overlaps hover] at hd
      have hrival : e ∈ rivals t cs c.node :=
        mem_rivals.2 ⟨d, hd, hed, hsame, hover, fun x hx => Node.overlaps_comm e x.node ▸ ih x hx⟩
      have hquiet := hc.quiet e hrival
      rw [Node.heldIn_of_open ho] at hquiet
      simp [hfl] at hquiet

/-- Giving the claims back, in any order, leaves what was before them. -/
theorem release (hg : Gathered h t s gs cs l) {order : List Claim} (hp : order.Perm cs) :
    (releaseAll order).run h l = ((), s) := by
  have key : ∀ files : List FileId, (files ++ s).diff files = s := by
    intro files
    induction files with
    | nil => rfl
    | cons file files ih => simpa using ih
  rw [run_releaseAll, ((hp.map file).trans (List.reverse_perm _).symm).diff_left, hg.locks_eq,
    key]

end Gathered

/-! ## Runs of calls -/

/-- Groups fail and leave the locks as they were before the first of them, or claims are gathered
from them. -/
theorem run_groups {p : Plan} {done gs : List (List Node)} {claimed : List Claim}
    {busy : List String} (hg : Gathered h t s done claimed l) :
    (∃ f, (groups t p gs claimed busy).run h l = (.error f, s)) ∨
    ∃ cs names m, (groups t p gs claimed busy).run h l = (.ok (cs, names), m) ∧
      Gathered h t s (done ++ gs) cs m := by
  induction gs generalizing done claimed busy l with
  | nil => exact .inr ⟨claimed, busy, l, rfl, by simpa using hg⟩
  | cons g gs ih =>
    simp only [groups, Attempt.run_bind]
    rcases run_group?_cases (h := h) (t := t) (l := l) claimed g with
      ⟨c, hr, hn, hc⟩ | hr | ⟨f, hr⟩
    · rw [hr]
      simpa using ih (hg.take hn hc)
    · rw [hr]
      cases hp : p.policy with
      | allOrNothing =>
        refine .inl ⟨.busy p.request, ?_⟩
        simp [hg.release (.refl _)]
      | bestEffort => simpa using ih hg.skip
    · rw [hr]
      refine .inl ⟨f, ?_⟩
      simp [hg.release (.refl _)]

theorem run_resolve (p : Plan) :
    (∃ f, (resolve t p).run h s = (.error f, s)) ∨
    ∃ cs m, (resolve t p).run h s = (.ok cs, m) ∧ cs ≠ [] ∧ Gathered h t s p.groups cs m := by
  simp only [resolve, Attempt.run_bind]
  have hgroups := @run_groups h t s s p [] p.groups [] [] .start
  rcases hgroups with ⟨f, hr⟩ | ⟨cs, names, m, hr, hg⟩
  · exact .inl ⟨f, by simp [hr]⟩
  · rw [hr]
    cases cs with
    | nil =>
      have hm : m = s := hg.locks_eq
      subst hm
      cases names with
      | nil => exact .inl ⟨_, rfl⟩
      | cons name names => exact .inl ⟨_, rfl⟩
    | cons c cs => exact .inr ⟨c :: cs, m, rfl, by simp, by simpa using hg⟩

theorem run_find (request : Request) :
    (∃ f, (find t request).run h s = (.error f, s)) ∨
    ∃ p cs m, Plan.expand request t = .ok p ∧ (find t request).run h s = (.ok cs, m) ∧ cs ≠ [] ∧
      Gathered h t s p.groups cs m := by
  unfold find
  cases he : Plan.expand request t with
  | error f => exact .inl ⟨f, rfl⟩
  | ok p =>
    rcases run_resolve (h := h) (t := t) (s := s) p with hr | ⟨cs, m, hr, hne, hg⟩
    · exact .inl hr
    · exact .inr ⟨p, cs, m, rfl, hr, hne, hg⟩

/-- A named node is opened as the only claim of its own request. -/
theorem run_openNode (name : String) :
    (∃ f, (openNode t name).run h s = (.error f, s)) ∨
    ∃ n p c m, lookup t name = .ok n ∧ Plan.expand (.explicit [n.id]) t = .ok p ∧
      Gathered h t s p.groups [c] m ∧ (openNode t name).run h s = (.ok c, m) := by
  unfold openNode
  cases hl : lookup t name with
  | error f => exact .inl ⟨f, rfl⟩
  | ok n =>
    simp only [Attempt.run_bind]
    rcases run_find (h := h) (t := t) (s := s) (.explicit [n.id]) with
      ⟨f, hr⟩ | ⟨p, cs, m, he, hr, hne, hg⟩
    · exact .inl ⟨f, by rw [hr]; rfl⟩
    · have hlen := hg.length_le
      obtain ⟨-, nodes, hids, -, rfl⟩ := Plan.expand_explicit_iff.1 he
      have hone : nodes.length = 1 := by simpa using congrArg List.length hids
      rw [List.length_map, hone] at hlen
      obtain ⟨c, rfl⟩ : ∃ c, cs = [c] :=
        List.length_eq_one_iff.1 (by have := List.length_pos_iff.2 hne; omega)
      refine .inr ⟨n, _, c, m, rfl, he, hg, ?_⟩
      rw [hr]
      rfl

end Claim

/-- A look at a device changes no lock. -/
theorem Occupancy.run_ofDevice (d : Device) : ((ofDevice d).run h s).2 = s := by
  have key : ∀ (ns : List Node) (o : Occupancy), ((probe d ns o).run h s).2 = s := by
    intro ns
    induction ns with
    | nil => exact fun _ => rfl
    | cons n ns ih =>
      intro o
      simp only [probe, Attempt.run_bind, Claim.run_held]
      split
      · rfl
      · exact ih _
      · exact ih _
  exact key d.nodes _

/-! ## The locks after a call -/

/-- How a call may leave the locks `s`: as they were when it fails; else with one new lock for the
file of each of its claims, which were all free, and as they were once the claims are given back. -/
def Claim.Settled (h : Host) (s : Locks) : Except Fault (List Claim) → Locks → Prop
  | .error _, after => after = s
  | .ok cs, after =>
    after = (cs.map file).reverse ++ s ∧ (cs.map file).Nodup ∧
      (∀ c ∈ cs, h.openNode c.node.path = .ok c.file ∧ c.file ∉ s) ∧
      ∀ order : List Claim, order.Perm cs → (releaseAll order).run h after = ((), s)

theorem Claim.settled_of_cases {answer : Except Fault (List Claim)} {after : Locks}
    (hr : (∃ f, answer = .error f ∧ after = s) ∨
      ∃ gs cs, answer = .ok cs ∧ Gathered h t s gs cs after) : Settled h s answer after := by
  rcases hr with ⟨f, rfl, rfl⟩ | ⟨gs, cs, rfl, hg⟩
  · rfl
  · exact ⟨hg.locks_eq, hg.distinct, fun c hc => ⟨hg.opened c hc, hg.fresh c hc⟩,
      fun _ => hg.release⟩

/-- **All or nothing.** Whatever is on the host, whatever the topology, the plan, the request or
the name, and whatever is locked: a call that fails leaves the locks exactly as they were, a call
that succeeds has added exactly the locks of its claims, and a look at a device has no effect. -/
theorem locks_settled (h : Host) (t : Topology) (s : Locks) :
    (∀ p, Claim.Settled h s ((Claim.resolve t p).run h s).1 ((Claim.resolve t p).run h s).2) ∧
    (∀ request, Claim.Settled h s ((Claim.find t request).run h s).1
      ((Claim.find t request).run h s).2) ∧
    (∀ name, Claim.Settled h s (((Claim.openNode t name).run h s).1.map ([·]))
      ((Claim.openNode t name).run h s).2) ∧
    ∀ d, ((Occupancy.ofDevice d).run h s).2 = s := by
  refine ⟨fun p => Claim.settled_of_cases (t := t) ?_,
    fun request => Claim.settled_of_cases (t := t) ?_,
    fun name => Claim.settled_of_cases (t := t) ?_, fun d => Occupancy.run_ofDevice d⟩
  · rcases Claim.run_resolve (h := h) (t := t) (s := s) p with ⟨f, hr⟩ | ⟨cs, m, hr, -, hg⟩
    · exact .inl ⟨f, by simp [hr]⟩
    · exact .inr ⟨_, cs, by simp [hr], by simpa [hr] using hg⟩
  · rcases Claim.run_find (h := h) (t := t) (s := s) request with
      ⟨f, hr⟩ | ⟨p, cs, m, -, hr, -, hg⟩
    · exact .inl ⟨f, by simp [hr]⟩
    · exact .inr ⟨_, cs, by simp [hr], by simpa [hr] using hg⟩
  · rcases Claim.run_openNode (h := h) (t := t) (s := s) name with
      ⟨f, hr⟩ | ⟨n, p, c, m, -, -, hg, hr⟩
    · exact .inl ⟨f, by simp [hr, Except.map]⟩
    · exact .inr ⟨_, [c], by simp [hr, Except.map], by simpa [hr] using hg⟩

end NpuBroker

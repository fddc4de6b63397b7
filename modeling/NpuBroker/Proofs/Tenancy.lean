import NpuBroker.Proofs.Claim.Gathering
import NpuBroker.Proofs.Spans

/-!
# Who has what on a host

Any number of callers find, open, look at and give back units of a host, one whole call after
another, and others lock and unlock files of the host on their own. The file tree stays as it is;
every call enumerates it afresh. Files may have any number of names.

A call does not check a unit against everything that is locked: nodes that overlap one of its own
claims are passed over. What makes that safe is an invariant of the whole run (`Tenancy.Inv`):
the locks are those of the live claims and those of others, no live claims overlap, and each is
of a listed node, so that a later call cannot miss it.

* `inv_after`, `inv_run`: every move keeps the invariant, and so does every run.
* `live_claims_exclusive`: no two live claims ever share a PE.
-/
namespace NpuBroker

/-! ## Sharing a PE -/

namespace UnitId

/-- The unit takes up the PE; a whole device takes up all of its PEs. -/
def Covers (u : UnitId) (pe : Index) : Prop := ∀ s, u.span = some s → pe ∈ s.indices

/-- Two units take up one PE of one device. -/
def SharePe (u v : UnitId) : Prop := u.device = v.device ∧ ∃ pe, u.Covers pe ∧ v.Covers pe

theorem overlaps_of_sharePe {u v : UnitId} (hs : u.SharePe v) : u.overlaps v = true := by
  obtain ⟨hd, pe, hu, hv⟩ := hs
  unfold overlaps
  cases hus : u.span with
  | none => simp [hd]
  | some a =>
    cases hvs : v.span with
    | none => simp [hd]
    | some b =>
      have ha := Span.mem_indices_iff.1 (hu a hus)
      have hb := Span.mem_indices_iff.1 (hv b hvs)
      simp [hd, Span.overlaps_of_share ha hb]

end UnitId

/-! ## Moves -/

/-- A claim and the caller who has it. -/
structure Holding where
  caller : Nat
  claim : Claim
deriving DecidableEq

structure Tenancy where
  locks : Locks
  live : List Holding
  /-- The files that others locked on their own. -/
  outside : List FileId

inductive Move where
  | find (caller : Nat) (request : Request)
  | openNode (caller : Nat) (name : String)
  | release (holding : Holding)
  | look (d : Device)
  /-- Somebody else locks what is at a path. -/
  | lock (path : String)
  /-- Somebody else gives a lock back. -/
  | unlock (file : FileId)

namespace Tenancy

/-- The locks and claims after a call of `caller` on the topology as it is now. -/
def call (s : Tenancy) (caller : Nat) (r : Except Fault (List Claim) × Locks) : Tenancy :=
  match r.1 with
  | .error _ => { s with locks := r.2 }
  | .ok cs => { s with locks := r.2, live := s.live ++ cs.map (⟨caller, ·⟩) }

/-- What a move leads to. A call whose enumeration fails does nothing more; nobody gives back
what he does not have. -/
def after (h : Host) (r : Roots) (s : Tenancy) : Move → Tenancy
  | .find caller request =>
    match Discovery.list h r with
    | .error _ => s
    | .ok t => s.call caller ((Claim.find t request).run h s.locks)
  | .openNode caller name =>
    match Discovery.list h r with
    | .error _ => s
    | .ok t =>
      let opened := (Claim.openNode t name).run h s.locks
      s.call caller (opened.1.map ([·]), opened.2)
  | .release x =>
    if x ∈ s.live then
      { s with locks := s.locks.release x.claim.file, live := s.live.erase x }
    else s
  | .look d => { s with locks := ((Occupancy.ofDevice d).run h s.locks).2 }
  | .lock path =>
    match s.locks.acquire h path with
    | (.ok (some file), l) => { s with locks := l, outside := file :: s.outside }
    | _ => s
  | .unlock file =>
    if file ∈ s.outside then
      { s with locks := s.locks.release file, outside := s.outside.erase file }
    else s

/-- No claim is live yet; others may have locked anything. -/
def start (others : List FileId) : Tenancy := ⟨others, [], others⟩

def run (h : Host) (r : Roots) (s : Tenancy) (moves : List Move) : Tenancy :=
  moves.foldl (after h r) s

/-- The files of the live claims. -/
def files (s : Tenancy) : List FileId := s.live.map fun x => x.claim.file

structure Inv (h : Host) (r : Roots) (s : Tenancy) : Prop where
  locks : s.locks.Perm (s.files ++ s.outside)
  distinct : s.files.Nodup
  own : ∀ file ∈ s.files, file ∉ s.outside
  opened : ∀ x ∈ s.live, h.openNode x.claim.node.path = .ok x.claim.file
  listed : ∀ x ∈ s.live, ∃ t, Discovery.list h r = .ok t ∧ t.Listed x.claim.node
  apart : s.live.Pairwise fun x y => x.claim.node.overlaps y.claim.node = false

variable {h : Host} {r : Roots} {s : Tenancy}

theorem inv_start (others : List FileId) : Inv h r (start others) where
  locks := .refl _
  distinct := .nil
  own := by simp [files, start]
  opened := by simp [start]
  listed := by simp [start]
  apart := .nil

/-- The claims of a call join the live ones. -/
theorem inv_gathered {t : Topology} {gs : List (List Node)} {cs : List Claim} {l : Locks}
    (hi : Inv h r s) (ht : Discovery.list h r = .ok t) (hgs : ∀ g ∈ gs, ∀ n ∈ g, t.Has n)
    (hg : Claim.Gathered h t s.locks gs cs l) (caller : Nat) :
    Inv h r { s with locks := l, live := s.live ++ cs.map (⟨caller, ·⟩) } := by
  have hlocked : ∀ file ∈ s.files ++ s.outside, file ∈ s.locks := fun file hf =>
    hi.locks.mem_iff.2 hf
  have hfiles : (s.live ++ cs.map (Holding.mk caller)).map (fun x => x.claim.file) =
      s.files ++ cs.map Claim.file := by
    simp [files, Function.comp_def]
  have hnew : ∀ x ∈ cs.map (Holding.mk caller), x.claim ∈ cs := by simp
  have hfresh : ∀ file ∈ cs.map Claim.file, file ∉ s.locks := by
    intro file hf
    obtain ⟨c, hc, rfl⟩ := List.mem_map.1 hf
    exact hg.fresh c hc
  refine ⟨?_, ?_, ?_, ?_, ?_, ?_⟩
  · rw [files, hfiles, hg.locks_eq]
    have hall : ((cs.map Claim.file).reverse ++ s.locks).Perm
        (cs.map Claim.file ++ (s.files ++ s.outside)) := (List.reverse_perm _).append hi.locks
    refine hall.trans ?_
    rw [← List.append_assoc]
    exact List.perm_append_comm.append_right _
  · rw [files, hfiles, List.nodup_append]
    refine ⟨hi.distinct, hg.distinct, fun a ha b hb => ?_⟩
    rintro rfl
    exact hfresh a hb (hlocked a (List.mem_append_left _ ha))
  · rw [files, hfiles, List.forall_mem_append]
    exact ⟨hi.own, fun file hf ho => hfresh file hf (hlocked file (List.mem_append_right _ ho))⟩
  · rw [List.forall_mem_append]
    exact ⟨hi.opened, fun x hx => hg.opened _ (hnew x hx)⟩
  · rw [List.forall_mem_append]
    refine ⟨hi.listed, fun x hx => ⟨t, ht, ?_⟩⟩
    obtain ⟨g, hmem, hn⟩ := hg.mem_group _ (hnew x hx)
    exact (Discovery.list_wellFormed ht).listed (hgs g hmem _ hn)
  · -- an earlier claim is of a listed node whose file is locked by now; the topology is still
    -- the same one
    rw [List.pairwise_append, List.pairwise_map]
    refine ⟨hi.apart, hg.apart, fun x hx y hy => ?_⟩
    obtain ⟨t', ht', hl⟩ := hi.listed x hx
    obtain rfl : t' = t := by simpa [ht, eq_comm] using ht'
    exact hg.apart_from hl (hi.opened x hx)
      (hlocked _ (List.mem_append_left _ (List.mem_map_of_mem hx))) _ (hnew y hy)

/-- A call that fails changes nothing, and one that succeeds adds its claims. -/
theorem inv_call {t : Topology} {caller : Nat} {r' : Except Fault (List Claim) × Locks}
    (hi : Inv h r s) (ht : Discovery.list h r = .ok t)
    (hr : (∃ f, r' = (.error f, s.locks)) ∨ ∃ request p cs l,
      Plan.expand request t = .ok p ∧ Claim.Gathered h t s.locks p.groups cs l ∧
        r' = (.ok cs, l)) : Inv h r (s.call caller r') := by
  rcases hr with ⟨f, rfl⟩ | ⟨request, p, cs, l, he, hg, rfl⟩
  · exact hi
  · exact inv_gathered hi ht (Plan.expand_has he) hg caller

/-- A claim is given back. -/
theorem inv_release {x : Holding} (hi : Inv h r s) (hx : x ∈ s.live) :
    Inv h r { s with locks := s.locks.release x.claim.file, live := s.live.erase x } := by
  have hsub : s.live.erase x ⊆ s.live := List.erase_subset
  have hperm : s.files.Perm (x.claim.file :: (s.live.erase x).map fun y => y.claim.file) :=
    (List.perm_cons_erase hx).map _
  have hdistinct := hperm.nodup_iff.1 hi.distinct
  refine ⟨?_, (List.nodup_cons.1 hdistinct).2, ?_, ?_, ?_, ?_⟩
  · have := (hi.locks.trans (hperm.append_right _)).erase x.claim.file
    rwa [List.cons_append, List.erase_cons_head] at this
  · exact fun file hf => hi.own file (List.map_subset _ hsub hf)
  · exact fun y hy => hi.opened y (hsub hy)
  · exact fun y hy => hi.listed y (hsub hy)
  · exact hi.apart.sublist List.erase_sublist

/-- Somebody else's lock is of a file that nobody had, and giving it back is up to him. -/
theorem inv_outside {l : Locks} {outside : List FileId} (hi : Inv h r s)
    (hl : l.Perm (s.files ++ outside)) (hown : ∀ file ∈ s.files, file ∉ outside) :
    Inv h r { s with locks := l, outside := outside } :=
  ⟨hl, hi.distinct, hown, hi.opened, hi.listed, hi.apart⟩

/-- Every move keeps the invariant. -/
theorem inv_after (hi : Inv h r s) (m : Move) : Inv h r (after h r s m) := by
  cases m with
  | find caller request =>
    simp only [after]
    split
    · exact hi
    · rename_i t ht
      refine inv_call hi ht ?_
      rcases Claim.run_find (h := h) (t := t) (s := s.locks) request with
        hr | ⟨p, cs, l, he, hr, -, hg⟩
      · exact .inl hr
      · exact .inr ⟨request, p, cs, l, he, hg, hr⟩
  | openNode caller name =>
    simp only [after]
    split
    · exact hi
    · rename_i t ht
      refine inv_call hi ht ?_
      rcases Claim.run_openNode (h := h) (t := t) (s := s.locks) name with
        ⟨f, hr⟩ | ⟨n, p, c, l, -, he, hg, hr⟩
      · exact .inl ⟨f, by simp [hr, Except.map]⟩
      · exact .inr ⟨_, p, [c], l, he, hg, by simp [hr, Except.map]⟩
  | release x =>
    simp only [after]
    split
    · rename_i hx
      exact inv_release hi hx
    · exact hi
  | look d => exact inv_outside hi (by rw [Occupancy.run_ofDevice]; exact hi.locks) hi.own
  | lock path =>
    simp only [after]
    split
    · rename_i file l ha
      obtain ⟨-, hfree, rfl⟩ := Locks.acquire_ok ha
      refine inv_outside hi ((hi.locks.cons file).trans List.perm_middle.symm) ?_
      intro f hf
      rw [List.mem_cons, not_or]
      refine ⟨?_, hi.own f hf⟩
      rintro rfl
      exact hfree (hi.locks.mem_iff.2 (List.mem_append_left _ hf))
    · exact hi
  | unlock file =>
    simp only [after]
    split
    · rename_i hf
      refine inv_outside hi ?_ fun f hs ho => hi.own f hs (List.erase_subset ho)
      have hnot : file ∉ s.files := fun hs => hi.own file hs hf
      rw [← List.erase_append_right _ hnot]
      exact hi.locks.erase file
    · exact hi

/-- So does every run. -/
theorem inv_run (hi : Inv h r s) (moves : List Move) : Inv h r (s.run h r moves) := by
  induction moves generalizing s with
  | nil => exact hi
  | cons m ms ih => exact ih (inv_after hi m)

/-- **Exclusive use.** Nobody has a claim to begin with. Whatever is on the host, whatever
others have locked, and whoever makes which calls in what order: of the claims that are live, no
two ever overlap, which is to say that no two are of units of one device that share a PE. -/
theorem live_claims_exclusive (h : Host) (r : Roots) (others : List FileId) (moves : List Move) :
    ((start others).run h r moves).live.Pairwise fun x y =>
      x.claim.node.overlaps y.claim.node = false ∧ ¬ x.claim.node.id.SharePe y.claim.node.id := by
  refine (inv_run (inv_start others) moves).apart.imp fun hover => ⟨hover, fun hs => ?_⟩
  have := UnitId.overlaps_of_sharePe hs
  rw [Node.overlaps] at hover
  simp [this] at hover

end Tenancy
end NpuBroker

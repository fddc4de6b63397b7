import NpuBroker.Proofs.Claim.Gathering
import NpuBroker.Proofs.Plain

/-!
# What a plan comes to

Taking and giving back lock after lock comes to a choice made at one look. A unit is usable when
neither its node nor a node of its device that overlaps it is locked. From each group in turn the
first candidate is picked that is usable and overlaps none of those picked before.

A call looks at locks some of which are its own by then, and passes over the nodes that overlap
its own claims. Neither makes a difference (`Beside`): no other node shares the file of a claim
unless it overlaps the claim, and whatever overlaps a claim was seen unlocked when it was taken.

* `run_candidate?_eq`, `run_group?_eq`, `run_groups_eq`: one candidate, a group and the groups of a
  plan, each by what is picked.
* `resolve_eq_select`: a plan is resolved to what `Plan.select` picks.
-/
namespace NpuBroker

variable {h : Host} {t : Topology} {s l : Locks}

/-! ## The choice at one look -/

/-- Somebody holds what the node leads to. -/
def Node.lockedIn (h : Host) (s : Locks) (n : Node) : Bool :=
  match h.openNode n.path with
  | .error _ => false
  | .ok file => decide (file ∈ s)

/-- Neither the node nor any node that overlaps it on its device is locked. -/
def Topology.usable (t : Topology) (h : Host) (s : Locks) (n : Node) : Bool :=
  !n.lockedIn h s && match t.device? n.id.device with
    | none => true
    | some d => d.nodes.all fun m => !m.overlaps n || !m.lockedIn h s

namespace Plan

/-- The first candidate that is usable and overlaps none of those picked before. -/
def pick? (usable : Node → Bool) (picked g : List Node) : Option Node :=
  g.find? fun n => usable n && !picked.any (·.overlaps n)

/-- A pick from each group beside those picked before. A group without one is left out, or there
is no choice at all. -/
def picks? (usable : Node → Bool) (policy : Policy) :
    List (List Node) → List Node → Option (List Node)
  | [], picked => some picked
  | g :: gs, picked =>
    match pick? usable picked g, policy with
    | some n, _ => picks? usable policy gs (picked ++ [n])
    | none, .allOrNothing => none
    | none, .bestEffort => picks? usable policy gs picked

/-- What the plan comes to: what is picked, or that it is busy. -/
def select (usable : Node → Bool) (p : Plan) : Except Fault (List Node) :=
  match picks? usable p.policy p.groups [] with
  | none => .error (.busy p.request)
  | some [] => .error (.busy (",".intercalate (p.groups.map Claim.groupName)))
  | some picked => .ok picked

theorem pick?_spec {usable : Node → Bool} {picked g : List Node} {n : Node}
    (h : pick? usable picked g = some n) :
    n ∈ g ∧ usable n = true ∧ ∀ m ∈ picked, m.overlaps n = false := by
  have hn := List.find?_some h
  simp only [Bool.and_eq_true, Bool.not_eq_true', List.any_eq_false, Bool.not_eq_true] at hn
  exact ⟨List.mem_of_find?_eq_some h, hn.1, hn.2⟩

theorem picks?_prefix {usable : Node → Bool} {policy : Policy} {gs : List (List Node)}
    {picked all : List Node} (h : picks? usable policy gs picked = some all) : picked <+: all := by
  induction gs generalizing picked with
  | nil =>
    simp only [picks?, Option.some.injEq] at h
    exact h ▸ List.prefix_refl _
  | cons g gs ih =>
    unfold picks? at h
    split at h
    · exact (List.prefix_append _ _).trans (ih h)
    · simp at h
    · exact ih h

end Plan

theorem Topology.usable_iff {n : Node} :
    t.usable h s n = true ↔ n.lockedIn h s = false ∧
      ∀ d, t.device? n.id.device = some d →
        ∀ m ∈ d.nodes, m.overlaps n = true → m.lockedIn h s = false := by
  unfold usable
  cases t.device? n.id.device with
  | none => simp
  | some d => simp [or_iff_not_imp_left]

/-! ## Hosts that have the nodes -/

/-- The nodes exist and can be opened, and two share a file only if their units overlap. -/
structure Topology.Openable (h : Host) (t : Topology) : Prop where
  opens : ∀ n, t.Has n → ∃ file, h.openNode n.path = .ok file
  shares : ∀ m n, t.Has m → t.Has n → h.openNode m.path = h.openNode n.path → m.overlaps n = true

/-- A unit that has a name overlaps itself, so what matters is that different nodes share a file
only if they overlap. -/
theorem Topology.Openable.of_proper (hp : ∀ n, t.Has n → n.id.Proper)
    (ho : ∀ n, t.Has n → ∃ file, h.openNode n.path = .ok file)
    (hs : ∀ m n, t.Has m → t.Has n → m ≠ n → h.openNode m.path = h.openNode n.path →
      m.overlaps n = true) : t.Openable h where
  opens := ho
  shares m n hm hn he := by
    by_cases hmn : m = n
    · subst hmn
      exact (hp m hm).overlaps_self
    · exact hs m n hm hn hmn he

theorem Node.lockedIn_of_open {n : Node} {file : FileId} (ho : h.openNode n.path = .ok file) :
    n.lockedIn h s = decide (file ∈ s) := by
  simp [lockedIn, ho]

theorem Topology.Openable.heldIn_eq (ho : t.Openable h) {n : Node} (hn : t.Has n) :
    n.heldIn h l = .ok (n.lockedIn h l) := by
  obtain ⟨file, hf⟩ := ho.opens n hn
  rw [Node.heldIn_of_open hf, Node.lockedIn_of_open hf]

/-- On a device whose nodes are known files, a node is usable when none of the files of those that
overlap it is locked, its own included. -/
theorem Topology.usable_eq_all {d : Device} {n : Node} {file : Node → FileId}
    (hdevice : t.device? n.id.device = some d) (hn : n ∈ d.nodes) (hself : n.overlaps n = true)
    (hopen : ∀ m ∈ d.nodes, h.openNode m.path = .ok (file m)) :
    t.usable h s n = d.nodes.all fun m => !m.overlaps n || decide (file m ∉ s) := by
  have hlocked : ∀ m ∈ d.nodes, m.lockedIn h s = decide (file m ∈ s) :=
    fun m hm => Node.lockedIn_of_open (hopen m hm)
  rw [Bool.eq_iff_iff, usable_iff, hdevice]
  simp only [List.all_eq_true, Option.some.injEq, forall_eq']
  constructor
  · rintro ⟨-, hall⟩ m hm
    cases ho : m.overlaps n with
    | false => rfl
    | true => simpa [hlocked m hm] using hall m hm ho
  · intro hall
    have hfree : ∀ m ∈ d.nodes, m.overlaps n = true → m.lockedIn h s = false := by
      intro m hm ho
      simpa [ho, hlocked m hm] using hall m hm
    exact ⟨hfree n hn hself, hfree⟩

/-- Every node can be opened and is a file of its own, and nobody has locked one. -/
structure Topology.Idle (h : Host) (s : Locks) (t : Topology) : Prop where
  opens : ∀ n, t.Has n → ∃ file, h.openNode n.path = .ok file ∧ file ∉ s
  distinct : ∀ m n, t.Has m → t.Has n → h.openNode m.path = h.openNode n.path → m = n

theorem Topology.Idle.openable (hi : t.Idle h s) (hp : ∀ n, t.Has n → n.id.Proper) :
    t.Openable h := by
  refine .of_proper hp (fun n hn => ?_) fun m n hm hn hne he => ?_
  · obtain ⟨file, ho, -⟩ := hi.opens n hn
    exact ⟨file, ho⟩
  · exact absurd (hi.distinct m n hm hn he) hne

theorem Topology.Idle.usable (hi : t.Idle h s) {n : Node} (hn : t.Has n) :
    t.usable h s n = true := by
  have hfree : ∀ m, t.Has m → m.lockedIn h s = false := by
    intro m hm
    obtain ⟨file, ho, hf⟩ := hi.opens m hm
    simp [Node.lockedIn_of_open ho, hf]
  exact Topology.usable_iff.2 ⟨hfree n hn, fun d hd m hm _ =>
    hfree m ⟨d, Topology.mem_of_device? hd, hm⟩⟩

/-! ## A range inside another -/

/-- A device with three ranges: the first overlaps both others, and the second lies inside it. -/
def nestedHost : Host where
  entries := [(["dev"], .directory), (["dev", "npu0pe0-3"], .file 0),
    (["dev", "npu0pe1-2"], .file 1), (["dev", "npu0pe3-4"], .file 2), (["sys"], .directory),
    (["sys", "class"], .directory), (["sys", "class", "npu_mgmt"], .directory),
    (["sys", "class", "npu_mgmt", "npu0_mgmt"], .directory),
    (["sys", "class", "npu_mgmt", "npu0_mgmt", "device_type"], .file 3)]
  contents := [(3, [114, 110, 103, 100, 10])]
  fresh := 4

def nestedNodes : List Node :=
  ["/dev/npu0pe0-3", "/dev/npu0pe1-2", "/dev/npu0pe3-4"].filterMap Node.ofPath?

def nestedTopology : Topology := Topology.ofNodes nestedNodes fun _ => .ok .rngd

/-- The file of each node. -/
def nestedFile (n : Node) : FileId :=
  if n.path = "/dev/npu0pe0-3" then 0 else if n.path = "/dev/npu0pe1-2" then 1 else 2

theorem nestedNodes_eq : nestedNodes =
    [⟨⟨0, some (.fused 0 3)⟩, "/dev/npu0pe0-3"⟩, ⟨⟨0, some (.fused 1 2)⟩, "/dev/npu0pe1-2"⟩,
      ⟨⟨0, some (.fused 3 4)⟩, "/dev/npu0pe3-4"⟩] := by decide

theorem nested_indices : Topology.indices nestedNodes = [0] := by decide

theorem nested_sorted : nestedNodes.Pairwise fun m n => m.before n = true := by decide

theorem nestedTopology_eq : nestedTopology = [⟨0, .rngd, nestedNodes⟩] :=
  Topology.ofNodes_single nested_indices (by decide) nested_sorted

theorem nested_has {n : Node} : nestedTopology.Has n ↔ n ∈ nestedNodes := by
  simp [Topology.Has, nestedTopology_eq]

theorem nested_openNode : ∀ n ∈ nestedNodes, nestedHost.openNode n.path = .ok (nestedFile n) := by
  have h0 : nestedHost.openNode "/dev/npu0pe0-3" = .ok 0 :=
    Host.openNode_of_straight? (p := ["dev", "npu0pe0-3"]) (by decide)
  have h1 : nestedHost.openNode "/dev/npu0pe1-2" = .ok 1 :=
    Host.openNode_of_straight? (p := ["dev", "npu0pe1-2"]) (by decide)
  have h2 : nestedHost.openNode "/dev/npu0pe3-4" = .ok 2 :=
    Host.openNode_of_straight? (p := ["dev", "npu0pe3-4"]) (by decide)
  simp [nestedNodes_eq, nestedFile, h0, h1, h2]

theorem nested_idle : nestedTopology.Idle nestedHost [] where
  opens n hn := ⟨_, nested_openNode n (nested_has.1 hn), List.not_mem_nil⟩
  distinct m n hm hn he := by
    rw [nested_has] at hm hn
    rw [nested_openNode m hm, nested_openNode n hn, Except.ok.injEq] at he
    have key : ∀ m ∈ nestedNodes, ∀ n ∈ nestedNodes, nestedFile m = nestedFile n → m = n := by
      decide
    exact key m hm n hn he

theorem nested_scan : Discovery.scan nestedHost .standard = .ok nestedNodes := by
  have hdev : nestedHost.at? "/dev" = .ok (["dev"], .directory) :=
    Host.at?_of_straight? (by decide)
  have hlist : nestedHost.list Roots.standard.devfs =
      .ok [("npu0pe0-3", .file 0), ("npu0pe1-2", .file 1), ("npu0pe3-4", .file 2)] := by
    rw [Roots.standard, Host.list, hdev]
    rfl
  refine Discovery.scan_eq_ok_iff.2 ⟨_, hlist, ?_⟩
  have hfound : [("npu0pe0-3", Host.Entry.file 0), ("npu0pe1-2", .file 1),
      ("npu0pe3-4", .file 2)].filterMap (Discovery.node? .standard) = nestedNodes := by decide
  rw [hfound, List.mergeSort_of_pairwise nested_sorted]

theorem nested_identify : Discovery.identify nestedHost .standard 0 = .ok .rngd := by
  have hpath : Roots.standard.management 0 "device_type" =
      "/sys/class/npu_mgmt/npu0_mgmt/device_type" := by decide
  have hopen : nestedHost.openNode "/sys/class/npu_mgmt/npu0_mgmt/device_type" = .ok 3 :=
    Host.openNode_of_straight?
      (p := ["sys", "class", "npu_mgmt", "npu0_mgmt", "device_type"]) (by decide)
  have hbytes : nestedHost.contentsOf 3 = [114, 110, 103, 100, 10] := rfl
  have hread := Host.readText_ascii hopen (by simp [hbytes])
  have hchars : [114, 110, 103, 100, 10].map (fun b : UInt8 => Char.ofNat b.toNat) =
      ['r', 'n', 'g', 'd', '\n'] := by decide
  have harch : Arch.ofText (String.ofList ['r', 'n', 'g', 'd', '\n']) = .ok .rngd := by decide
  rw [hbytes, hchars] at hread
  unfold Discovery.identify
  rw [hpath, hread]
  simp only [harch, Except.mapError]

theorem nested_list : Discovery.list nestedHost .standard = .ok nestedTopology := by
  rw [Discovery.list_eq, nested_scan, Except.map, nestedTopology, Topology.ofNodes,
    Topology.ofNodes, nested_indices]
  simp only [List.filterMap_cons, List.filterMap_nil, nested_identify]

theorem nested_proper (n : Node) (hn : nestedTopology.Has n) : n.id.Proper :=
  Discovery.list_proper nested_list hn

theorem nested_candidates : Plan.candidates nestedTopology .rngd .fused = nestedNodes := by
  rw [nestedTopology_eq]
  decide

theorem nested_available : Plan.available nestedNodes = 2 := by
  simp +decide [Plan.available, nestedNodes_eq, List.mergeSort]

theorem nested_expand {count : Index} (h0 : count ≠ 0) (h2 : count ≤ 2) :
    Plan.expand (.structured .rngd .fused count) nestedTopology =
      .ok ⟨(Request.structured .rngd .fused count).text, List.replicate count nestedNodes,
        .allOrNothing⟩ := by
  rw [Plan.expand_structured_iff, nested_candidates, nested_available]
  exact ⟨h0, h2, rfl⟩

theorem nested_usable {n : Node} (hn : n ∈ nestedNodes) :
    nestedTopology.usable nestedHost s n =
      nestedNodes.all fun m => !m.overlaps n || decide (nestedFile m ∉ s) := by
  have hdevice : ∀ n ∈ nestedNodes,
      nestedTopology.device? n.id.device = some ⟨0, .rngd, nestedNodes⟩ := by
    rw [nestedTopology_eq]
    decide
  exact Topology.usable_eq_all (hdevice n hn) hn (nested_proper n (nested_has.2 hn)).overlaps_self
    nested_openNode

/-! ## Claims beside claims -/

namespace Claim

/-- Where every probe answers what the locks say, so do all of them together. -/
theorem anyHeldIn_eq {ns : List Node} (hns : ∀ n ∈ ns, n.heldIn h l = .ok (n.lockedIn h l)) :
    anyHeldIn h l ns = .ok (ns.any (·.lockedIn h l)) := by
  induction ns with
  | nil => rfl
  | cons n ns ih =>
    rw [List.forall_mem_cons] at hns
    rw [anyHeldIn, hns.1, List.any_cons]
    cases n.lockedIn h l with
    | true => rfl
    | false => exact ih hns.2

/-- Claims of nodes that were usable before any of them was taken, and the locks by then. -/
structure Beside (h : Host) (t : Topology) (s : Locks) (claimed : List Claim) (l : Locks) :
    Prop where
  locks : l = (claimed.map file).reverse ++ s
  opened : ∀ c ∈ claimed, h.openNode c.node.path = .ok c.file
  has : ∀ c ∈ claimed, t.Has c.node
  usable : ∀ c ∈ claimed, t.usable h s c.node = true

namespace Beside

variable {claimed : List Claim}

theorem start : Beside h t s [] s := ⟨rfl, by simp, by simp, by simp⟩

theorem take (hb : Beside h t s claimed l) {c : Claim} (ho : h.openNode c.node.path = .ok c.file)
    (hc : t.Has c.node) (hu : t.usable h s c.node = true) :
    Beside h t s (claimed ++ [c]) (c.file :: l) where
  locks := by simp [hb.locks]
  opened := by
    rw [List.forall_mem_append, List.forall_mem_singleton]
    exact ⟨hb.opened, ho⟩
  has := by
    rw [List.forall_mem_append, List.forall_mem_singleton]
    exact ⟨hb.has, hc⟩
  usable := by
    rw [List.forall_mem_append, List.forall_mem_singleton]
    exact ⟨hb.usable, hu⟩

/-- Apart from the nodes that overlap a claim, the same nodes are locked as before. -/
theorem lockedIn_eq (hb : Beside h t s claimed l) (ho : t.Openable h) {n : Node} (hn : t.Has n)
    (hc : ∀ c ∈ claimed, c.node.overlaps n = false) : n.lockedIn h l = n.lockedIn h s := by
  obtain ⟨file, hf⟩ := ho.opens n hn
  rw [Node.lockedIn_of_open hf, Node.lockedIn_of_open hf, hb.locks]
  have hnot : file ∉ claimed.map Claim.file := by
    intro hmem
    obtain ⟨c, hm, rfl⟩ := List.mem_map.1 hmem
    have := ho.shares c.node n (hb.has c hm) hn ((hb.opened c hm).trans hf.symm)
    rw [hc c hm] at this
    simp at this
  simp [hnot]

/-- What overlaps a claim on its device was not locked before. -/
theorem lockedIn_of_overlaps (hb : Beside h t s claimed l) {c : Claim} (hc : c ∈ claimed)
    {d : Device} {m : Node} (hd : t.device? m.id.device = some d) (hm : m ∈ d.nodes)
    (hover : c.node.overlaps m = true) : m.lockedIn h s = false := by
  rw [← Node.device_of_overlaps hover] at hd
  rw [Node.overlaps_comm] at hover
  exact (Topology.usable_iff.1 (hb.usable c hc)).2 d hd m hm hover

/-- Beside claims that do not overlap the node, the locks say the same of it and of the nodes to
look at as all the locks of before say of all nodes that overlap it. -/
theorem usable_iff (hb : Beside h t s claimed l) (ho : t.Openable h) {n : Node} (hn : t.Has n)
    (hc : ∀ c ∈ claimed, c.node.overlaps n = false) :
    t.usable h s n = true ↔
      n.lockedIn h l = false ∧ ∀ m ∈ rivals t claimed n, m.lockedIn h l = false := by
  rw [Topology.usable_iff, hb.lockedIn_eq ho hn hc]
  refine and_congr_right fun hfree => ⟨fun hall m hm => ?_, fun hall d hd m hm hover => ?_⟩
  · obtain ⟨d, hd, hmd, -, hover, hapart⟩ := mem_rivals.1 hm
    rw [hb.lockedIn_eq ho ⟨d, Topology.mem_of_device? hd, hmd⟩ hapart]
    exact hall d hd m hmd hover
  · -- `m` is passed over beside a claim, is the node itself, or is looked at
    by_cases hclaim : ∃ c ∈ claimed, c.node.overlaps m = true
    · obtain ⟨c, hcm, hcover⟩ := hclaim
      rw [← Node.device_of_overlaps hover] at hd
      exact hb.lockedIn_of_overlaps hcm hd hm hcover
    · have hapart : ∀ c ∈ claimed, c.node.overlaps m = false := by simpa using hclaim
      have hmt : t.Has m := ⟨d, Topology.mem_of_device? hd, hm⟩
      cases hsame : m.same n with
      | true =>
        obtain ⟨i, hi⟩ := ho.opens m hmt
        obtain ⟨j, hj⟩ := ho.opens n hn
        simp only [Node.same, Bool.and_eq_true] at hsame
        obtain rfl := Host.openNode_unique hsame.2 hi hj
        rw [Node.lockedIn_of_open hj] at hfree
        rw [Node.lockedIn_of_open hi]
        exact hfree
      | false =>
        rw [← hb.lockedIn_eq ho hmt hapart]
        exact hall m (mem_rivals.2 ⟨d, hd, hm, hsame, hover, hapart⟩)

end Beside

/-! ## Runs of calls -/

/-- A candidate is claimed when it is usable and overlaps no claim. -/
theorem run_candidate?_eq {claimed : List Claim} {n : Node} {file : FileId} (ho : t.Openable h)
    (hb : Beside h t s claimed l) (hn : t.Has n) (hf : h.openNode n.path = .ok file) :
    (candidate? t claimed n).run h l =
      if (t.usable h s n && !(claimed.map Claim.node).any (·.overlaps n)) = true then
        (.ok (some ⟨n, file⟩), file :: l)
      else (.ok none, l) := by
  have hrivals : ∀ m ∈ rivals t claimed n, m.heldIn h l = .ok (m.lockedIn h l) := by
    intro m hm
    obtain ⟨d, hd, hmd, -⟩ := mem_rivals.1 hm
    exact ho.heldIn_eq ⟨d, Topology.mem_of_device? hd, hmd⟩
  rw [run_candidate?, anyHeldIn_eq hrivals, run_node?, List.any_map, hf]
  by_cases hc : (claimed.any fun c => c.node.overlaps n) = true
  · simp [hc, Function.comp_def]
  · have hapart : ∀ c ∈ claimed, c.node.overlaps n = false := by simpa using hc
    have hiff := hb.usable_iff ho hn hapart
    rw [Node.lockedIn_of_open hf, decide_eq_false_iff_not] at hiff
    have hu : t.usable h s n =
        (decide (file ∉ l) && !(rivals t claimed n).any (·.lockedIn h l)) := by
      rw [Bool.eq_iff_iff, hiff]
      simp
    have hfar : (!claimed.any ((·.overlaps n) ∘ Claim.node)) = true := by simpa using hapart
    rw [if_neg hc, hu, hfar, Bool.and_true]
    cases (rivals t claimed n).any (·.lockedIn h l) with
    | true => simp
    | false => by_cases hl : file ∈ l <;> simp [hl]

/-- The claim of a group is that of its pick. -/
theorem run_group?_eq {claimed : List Claim} {g : List Node} (ho : t.Openable h)
    (hb : Beside h t s claimed l) (hg : ∀ n ∈ g, t.Has n) :
    match Plan.pick? (t.usable h s) (claimed.map Claim.node) g with
    | none => (group? t claimed g).run h l = (.ok none, l)
    | some n => ∃ file, h.openNode n.path = .ok file ∧
        (group? t claimed g).run h l = (.ok (some ⟨n, file⟩), file :: l) := by
  induction g with
  | nil => rfl
  | cons n ns ih =>
    rw [List.forall_mem_cons] at hg
    obtain ⟨file, hf⟩ := ho.opens n hg.1
    have hrun := run_candidate?_eq ho hb hg.1 hf
    simp only [group?, Attempt.run_bind, Plan.pick?, List.find?_cons] at ih ⊢
    cases hu : t.usable h s n && !(claimed.map Claim.node).any (·.overlaps n) with
    | true =>
      rw [hu, if_pos rfl] at hrun
      rw [hrun]
      exact ⟨file, hf, rfl⟩
    | false =>
      rw [hu, if_neg Bool.false_ne_true] at hrun
      rw [hrun]
      exact ih hg.2

/-- Groups are claimed as they are picked. When nothing is picked, every group is named. -/
theorem run_groups_eq {p : Plan} {gs : List (List Node)} {claimed : List Claim}
    {busy : List String} (ho : t.Openable h) (hgs : ∀ g ∈ gs, ∀ n ∈ g, t.Has n)
    (hb : Beside h t s claimed l) :
    match Plan.picks? (t.usable h s) p.policy gs (claimed.map Claim.node) with
    | none => ((groups t p gs claimed busy).run h l).1 = .error (.busy p.request)
    | some picked => ∃ cs names, ((groups t p gs claimed busy).run h l).1 = .ok (cs, names) ∧
        cs.map Claim.node = picked ∧ (picked = [] → names = busy ++ gs.map groupName) := by
  induction gs generalizing claimed busy l with
  | nil => exact ⟨claimed, busy, rfl, rfl, by simp⟩
  | cons g gs ih =>
    rw [List.forall_mem_cons] at hgs
    have hrun := run_group?_eq ho hb hgs.1
    simp only [groups, Attempt.run_bind, Plan.picks?]
    cases hp : Plan.pick? (t.usable h s) (claimed.map Claim.node) g with
    | some n =>
      obtain ⟨hn, hu, -⟩ := Plan.pick?_spec hp
      simp only [hp] at hrun
      obtain ⟨file, hf, hrun⟩ := hrun
      rw [hrun]
      have hb' : Beside h t s (claimed ++ [⟨n, file⟩]) (file :: l) := hb.take hf (hgs.1 n hn) hu
      have ih := @ih _ _ busy hgs.2 hb'
      rw [List.map_append, List.map_singleton] at ih
      dsimp only
      cases hps : Plan.picks? (t.usable h s) p.policy gs (claimed.map Claim.node ++ [n]) with
      | none =>
        rw [hps] at ih
        exact ih
      | some picked =>
        rw [hps] at ih
        obtain ⟨cs, names, hr, hcs, -⟩ := ih
        refine ⟨cs, names, hr, hcs, ?_⟩
        rintro rfl
        have := (Plan.picks?_prefix hps).length_le
        simp at this
    | none =>
      simp only [hp] at hrun
      rw [hrun]
      cases hpol : p.policy with
      | allOrNothing =>
        dsimp only
        rw [Attempt.run_bind, run_releaseAll]
        rfl
      | bestEffort =>
        have ih := @ih _ _ (busy ++ [groupName g]) hgs.2 hb
        rw [hpol] at ih
        simpa using ih

/-- Plans of the topology are resolved to what is picked. -/
theorem run_resolve_eq {p : Plan} (ho : t.Openable h) (hp : ∀ g ∈ p.groups, ∀ n ∈ g, t.Has n)
    (hne : p.groups ≠ []) :
    ((resolve t p).run h s).1.map (List.map Claim.node) = p.select (t.usable h s) := by
  have hrun := @run_groups_eq h t s s p p.groups [] [] ho hp .start
  rw [List.map_nil] at hrun
  unfold resolve Plan.select
  rw [Attempt.run_bind]
  cases hps : Plan.picks? (t.usable h s) p.policy p.groups [] with
  | none =>
    rw [hps] at hrun
    dsimp only at hrun ⊢
    rw [hrun]
    rfl
  | some picked =>
    rw [hps] at hrun
    obtain ⟨cs, names, hr, rfl, hnames⟩ := hrun
    rw [hr]
    cases cs with
    | nil =>
      obtain rfl := hnames rfl
      cases hg : p.groups with
      | nil => exact absurd hg hne
      | cons g gs => rfl
    | cons c cs => rfl

/-- What is requested is answered as its plan is resolved. -/
theorem run_find_eq {request : Request} {p : Plan} (ho : t.Openable h)
    (he : Plan.expand request t = .ok p) :
    ((find t request).run h s).1.map (List.map Claim.node) = p.select (t.usable h s) := by
  unfold find
  rw [he]
  exact run_resolve_eq ho (Plan.expand_has he) (Plan.expand_groups_ne_nil he)

end Claim

/-- **One look is enough.** On a host that still has the nodes of the topology, and whatever is
locked there by now, an expanded request is resolved to what is picked from its groups in order:
each time the first candidate that is usable under the locks of before and overlaps no earlier
pick. The claims are those picks in that order, or else the answer is that the plan is busy. -/
theorem resolve_eq_select {request : Request} {p : Plan} (ho : t.Openable h)
    (he : Plan.expand request t = .ok p) (s : Locks) :
    ((Claim.resolve t p).run h s).1.map (List.map Claim.node) = p.select (t.usable h s) :=
  Claim.run_resolve_eq ho (Plan.expand_has he) (Plan.expand_groups_ne_nil he)

/-- With the second range locked, only the third can be claimed. -/
theorem resolve_eq_select_nested :
    ∃ p, Plan.expand (.structured .rngd .fused 1) nestedTopology = .ok p ∧
      nestedTopology.Openable nestedHost ∧
      ((Claim.resolve nestedTopology p).run nestedHost [1]).1.map (List.map Claim.node) =
        .ok [⟨⟨0, some (.fused 3 4)⟩, "/dev/npu0pe3-4"⟩] := by
  have he := @nested_expand 1 (by decide) (by decide)
  refine ⟨_, he, nested_idle.openable nested_proper, ?_⟩
  rw [resolve_eq_select (nested_idle.openable nested_proper) he [1]]
  have husable : nestedNodes.map (nestedTopology.usable nestedHost [1]) = [false, false, true] := by
    rw [List.map_congr_left fun n hn => nested_usable hn]
    decide
  rw [nestedNodes_eq] at husable ⊢
  simp only [List.map_cons, List.map_nil, List.cons.injEq] at husable
  simp [Plan.select, Plan.picks?, Plan.pick?, husable]

end NpuBroker

import NpuBroker.Proofs.Holders
import NpuBroker.Proofs.NodeNames
import NpuBroker.Proofs.Occupancy

/-!
# File names

The name of a unit, the file name of its node and the name that a link to the node goes by are read
off different things: the unit, the path of the node, and the path in the link. They are one text.

* `Path.fileName?_eq_some_iff_endsIn`: the file name of a path, said without its components.
* `Occupancy.exists_report_iff`, `Occupancy.eq_report_of_run`: when there is a report, and which.
* `Holder.pointsAt_iff_same`: the links that count for a listed node.
* `unit_node_and_file_share_name`: the three names are one.
-/
namespace NpuBroker

/-! ## The end of a path -/

namespace Path

/-- What may stand behind the last name: slashes, and dots that are all there is between two of
them or behind the last one. -/
inductive Trailing : List Char → Prop
  | nil : Trailing []
  | slash {cs : List Char} : Trailing cs → Trailing ('/' :: cs)
  | dot {cs : List Char} : Trailing cs → Trailing ('/' :: '.' :: cs)

/-- The path ends in a name, which begins the path or follows a slash. -/
def EndsIn (path name : String) : Prop :=
  Host.IsName name ∧ ∃ front tail, path.toList = front ++ (name.toList ++ tail) ∧
    (front = [] ∨ front.getLast? = some '/') ∧ Trailing tail

variable {path name : String}

theorem component?_eq_none_iff {piece : List Char} :
    component? piece = none ↔ piece = [] ∨ piece = ['.'] := by
  unfold component?
  split_ifs with hnone <;> simp [hnone]

/-- Behind a piece there are as many that mean nothing as there are slashes. -/
theorem Trailing.splitOn_append {piece tail : List Char} (h : Trailing tail) (hp : '/' ∉ piece) :
    ∃ more, (piece ++ tail).splitOn '/' = piece :: more ∧
      ∀ q ∈ more, component? q = none := by
  induction h generalizing piece with
  | nil => exact ⟨[], by rw [List.append_nil, List.splitOn_eq_singleton hp], nofun⟩
  | @slash cs _ ih =>
    obtain ⟨more, hmore, hnone⟩ := @ih [] List.not_mem_nil
    refine ⟨[] :: more, ?_, ?_⟩
    · rw [List.splitOn_append_cons_self, List.splitOn_eq_singleton hp, List.singleton_append]
      exact congrArg _ hmore
    · exact List.forall_mem_cons.2 ⟨component?_eq_none_iff.2 (.inl rfl), hnone⟩
  | @dot cs _ ih =>
    obtain ⟨more, hmore, hnone⟩ := @ih ['.'] (by decide)
    refine ⟨['.'] :: more, ?_, ?_⟩
    · rw [List.splitOn_append_cons_self, List.splitOn_eq_singleton hp, List.singleton_append]
      exact congrArg _ hmore
    · exact List.forall_mem_cons.2 ⟨component?_eq_none_iff.2 (.inr rfl), hnone⟩

theorem trailing_of_pieces {more : List (List Char)} (h : ∀ q ∈ more, component? q = none) :
    Trailing (more.flatMap ('/' :: ·)) := by
  induction more with
  | nil => exact .nil
  | cons q more ih =>
    rw [List.forall_mem_cons, component?_eq_none_iff] at h
    obtain ⟨rfl | rfl, hmore⟩ := h
    · exact .slash (ih hmore)
    · exact .dot (ih hmore)

/-- A text of pieces is the first of them, and each of the others behind a slash. -/
theorem intercalate_cons (piece : List Char) (more : List (List Char)) :
    ['/'].intercalate (piece :: more) = piece ++ more.flatMap ('/' :: ·) := by
  induction more generalizing piece with
  | nil => simp
  | cons q more ih =>
    rw [List.intercalate_cons_cons, ih q, List.flatMap_cons]
    simp

/-- It is what stands in front of one of its pieces, the piece, and what stands behind. -/
theorem intercalate_cut (before more : List (List Char)) (piece : List Char) :
    ∃ front : List Char, (front = [] ∨ front.getLast? = some '/') ∧
      ['/'].intercalate (before ++ piece :: more) =
        front ++ (piece ++ more.flatMap ('/' :: ·)) := by
  cases before with
  | nil => exact ⟨[], .inl rfl, intercalate_cons piece more⟩
  | cons b before =>
    refine ⟨b ++ before.flatMap ('/' :: ·) ++ ['/'], .inr List.getLast?_concat, ?_⟩
    rw [List.cons_append, intercalate_cons, List.flatMap_append, List.flatMap_cons]
    simp

/-- The file name is that of the last piece that means anything. -/
theorem fileName?_eq_some_iff_pieces : fileName? path = some name ↔
    ∃ before piece more, path.toList.splitOn '/' = before ++ piece :: more ∧
      component? piece = some (.name name) ∧ ∀ q ∈ more, component? q = none := by
  rw [fileName?_eq_some_iff_last, List.getLast?_filterMap, List.findSome?_eq_some_iff]
  constructor
  · rintro ⟨more, piece, before, hpieces, hname, hnone⟩
    refine ⟨before.reverse, piece, more.reverse, ?_, hname, fun q hq => ?_⟩
    · rw [← List.reverse_reverse (path.toList.splitOn '/'), hpieces]
      simp
    · exact hnone q (List.mem_reverse.1 hq)
  · rintro ⟨before, piece, more, hpieces, hname, hnone⟩
    refine ⟨more.reverse, piece, before.reverse, ?_, hname, fun q hq => ?_⟩
    · rw [hpieces]
      simp
    · exact hnone q (List.mem_reverse.1 hq)

theorem fileName?_eq_some_iff_endsIn : fileName? path = some name ↔ EndsIn path name := by
  rw [fileName?_eq_some_iff_pieces]
  constructor
  · rintro ⟨before, piece, more, hpieces, hpiece, hnone⟩
    have hmem : piece ∈ path.toList.splitOn '/' := by
      rw [hpieces]
      simp
    obtain ⟨rfl, hname⟩ :=
      (component?_eq_name_iff (Text.not_mem_of_mem_splitOn piece hmem)).1 hpiece
    obtain ⟨front, hfront, htext⟩ := intercalate_cut before more name.toList
    rw [← hpieces, List.intercalate_splitOn] at htext
    exact ⟨hname, front, _, htext, hfront, trailing_of_pieces hnone⟩
  · rintro ⟨hname, front, tail, htext, hfront, htail⟩
    obtain ⟨more, hmore, hnone⟩ := htail.splitOn_append hname.solid
    have hpiece := (component?_eq_name_iff hname.solid).2 ⟨rfl, hname⟩
    rcases hfront with rfl | hslash
    · exact ⟨[], _, more, by rw [htext, List.nil_append, hmore, List.nil_append], hpiece, hnone⟩
    · obtain ⟨front, rfl⟩ := List.getLast?_eq_some_iff.1 hslash
      refine ⟨front.splitOn '/', _, more, ?_, hpiece, hnone⟩
      rw [htext, List.append_assoc, List.singleton_append, List.splitOn_append_cons_self, hmore]

end Path

/-! ## Listed nodes -/

/-- The name of a unit is one that an entry can have. -/
theorem UnitId.isName_name (u : UnitId) : Host.IsName u.name := by
  have hname : u.name.toList = u.chars := String.toList_ofList
  obtain ⟨cs, hcs⟩ : ∃ cs, u.chars = 'n' :: cs := ⟨_, rfl⟩
  have hother : ∀ text : String, text.toList.head? ≠ some 'n' → u.name ≠ text := by
    rintro text htext rfl
    rw [hname, hcs] at htext
    exact htext rfl
  refine ⟨hother _ (by decide), hother _ (by decide), hother _ (by decide), fun hslash => ?_⟩
  rw [hname] at hslash
  have hno := u.mem_chars '/' hslash
  simp at hno

namespace Discovery

variable {h : Host} {r : Roots} {t : Topology} {n : Node}

theorem list_fileName (ht : list h r = .ok t) (hn : t.Has n) : n.fileName = n.name :=
  Node.fileName_of_ofPath? (list_ofPath? ht hn)

/-- A listed node is right below the device directory. -/
theorem list_components (hh : h.Named) (ht : list h r = .ok t) (hn : t.Has n) :
    Path.components n.path = Path.components r.devfs ++ [.name n.name] := by
  rw [list_path hh ht hn]
  exact Path.components_join n.id.isName_name

end Discovery

/-! ## Reports -/

theorem Node.openOrGone_of_heldIn {h : Host} {l : Locks} {n : Node} {b : Bool}
    (hn : n.heldIn h l = .ok b) : n.OpenOrGone h := by
  unfold heldIn at hn
  split at hn
  · exact .inr ‹_›
  · cases hn
  · exact .inl ⟨_, ‹_›⟩

namespace Occupancy

variable {d : Device} {h : Host} {s : Locks} {o : Occupancy}

/-- When probes give a report, each of them was answered. -/
theorem openOrGone_of_run_probe {ns : List Node} {o' : Occupancy}
    (hrun : ((probe d ns o).run h s).1 = .ok o') : ∀ n ∈ ns, n.OpenOrGone h := by
  induction ns generalizing o with
  | nil => nofun
  | cons n ns ih =>
    rw [List.forall_mem_cons]
    simp only [probe, Attempt.run_bind, Claim.run_held] at hrun
    cases hheld : n.heldIn h s with
    | error f =>
      rw [hheld] at hrun
      cases hrun
    | ok b =>
      rw [hheld] at hrun
      refine ⟨Node.openOrGone_of_heldIn hheld, ?_⟩
      cases b with
      | false => exact ih hrun
      | true => exact ih hrun

/-- There is a report exactly when each node is a file or has vanished. -/
theorem exists_report_iff :
    (∃ o, ((ofDevice d).run h s).1 = .ok o) ↔ ∀ n ∈ d.nodes, n.OpenOrGone h := by
  constructor
  · rintro ⟨o, hrun⟩
    exact openOrGone_of_run_probe hrun
  · exact fun hnodes => ⟨_, run_ofDevice_eq hnodes s⟩

/-- A report that is there is the one that is known without probes. -/
theorem eq_report_of_run (hrun : ((ofDevice d).run h s).1 = .ok o) :
    o = report d (d.heldThrough? h s) := by
  rw [run_ofDevice_eq (exists_report_iff.1 ⟨o, hrun⟩)] at hrun
  exact (Except.ok.inj hrun).symm

theorem lookup_eq_occupied_iff (hrun : ((ofDevice d).run h s).1 = .ok o) {pe : Index}
    {name : String} : o.lookup pe = some (.occupied name) ↔
      pe ∈ d.pes ∧ ∃ n, d.heldThrough? h s pe = some n ∧ name = n.fileName := by
  obtain rfl := eq_report_of_run hrun
  by_cases hpe : pe ∈ d.pes
  · rw [lookup_report hpe]
    cases hn : d.heldThrough? h s pe with
    | none => simp [PeState.through]
    | some n => simp [PeState.through, hpe, eq_comm]
  · have hnone : (report d (d.heldThrough? h s)).lookup pe = none := by
      rw [List.lookup_eq_none_iff]
      intro x hx
      obtain ⟨present, hpresent, rfl⟩ := List.mem_map.1 hx
      exact bne_iff_ne.2 (ne_of_mem_of_not_mem hpresent hpe).symm
    simp [hnone, hpe]

end Occupancy

/-! ## Holders -/

namespace Holder

variable {h : Host} {r : Roots} {t : Topology} {n : Node}

/-- A link counts for a listed node exactly when it is a spelling of the path of the node. -/
theorem pointsAt_iff_same (hh : h.Named) (ht : Discovery.list h r = .ok t) (hn : t.Has n)
    {target : String} : PointsAt r.devfs target n.name ↔ Path.same target n.path = true := by
  rw [Path.same, beq_iff_eq, Discovery.list_components hh ht hn]
  exact and_iff_left ⟨n.id, Discovery.list_proper ht hn, rfl⟩

/-- The entry `name` of the process directory is a process that has `path` open: it is called by
the number of the process, a descriptor of it is a link to a spelling of `path`, and its command can
be read. -/
structure HasOpen (h : Host) (r : Roots) (name : String) (pid : Nat) (path : String) : Prop where
  number : NumberOf name pid
  link : ∃ found, h.list (descriptors r name) = .ok found ∧ ∃ fd ∈ found.map Prod.fst, ∃ target,
    h.readLink? (Path.join (descriptors r name) fd) = some target ∧ Path.same target path = true
  command : ∃ bytes, h.read (Path.join (Path.join r.procfs name) "cmdline") = .ok bytes

/-- Who has a listed node open holds it by the name of its unit, and nobody else does. -/
theorem exists_holds_iff (hh : h.Named) (ht : Discovery.list h r = .ok t) (hn : t.Has n)
    (h' : Host) (name : String) (pid : Nat) :
    (∃ x, Holds h' r name x ∧ x.node = n.name ∧ x.pid = pid) ↔ HasOpen h' r name pid n.path := by
  constructor
  · rintro ⟨x, hx, hnode, rfl⟩
    obtain ⟨bytes, hbytes, -⟩ := hx.command
    refine ⟨hx.number, ?_, bytes, hbytes⟩
    simpa only [hnode, pointsAt_iff_same hh ht hn] using hx.link
  · rintro ⟨hnumber, hlink, bytes, hbytes⟩
    refine ⟨⟨n.name, pid, commandOf bytes⟩, ⟨hnumber, ?_, bytes, hbytes, ?_⟩, rfl, rfl⟩
    · simpa only [pointsAt_iff_same hh ht hn] using hlink
    · exact eq_commandOf_iff.1 rfl

theorem exists_scan {h' : Host} {found : List (String × Host.Entry)}
    (hf : h'.list r.procfs = .ok found) :
    ∃ xs, scan h' r = .ok xs ∧ ∀ x, x ∈ xs ↔ ∃ name ∈ found.map Prod.fst, Holds h' r name x := by
  refine ⟨_, scan_eq_ok_iff.2 ⟨found, hf, rfl⟩, fun x => ?_⟩
  simp only [List.mem_mergeSort, List.mem_flatMap, mem_ofEntry_iff]

end Holder

/-! ## One name -/

/-- **One name for a unit, its node and its file.** A path is that of a node exactly when it ends in
a name, whatever slashes and dots stand behind that, and the name is written as those of units are.
The node then keeps the path as it is, and is called by that name; of all units, also those with a
range that descends, its unit is the only one with the name. So where a host was listed, the report
of a device, whenever it is asked for and there is one, gives each PE that is taken to the first
node that is locked and covers it, by the name of the unit of that node. Where entries are called as
they can be, a link counts as that unit exactly when it is a spelling of the path of the node; so a
scan for holders names it for just the processes that have the node open, and names nothing but
units. -/
theorem unit_node_and_file_share_name :
    (∀ path n, Node.ofPath? path = some n ↔ ∃ name, Path.EndsIn path name ∧
      UnitId.Written (fun cs i => Decimal.Canonical cs i) name.toList n.id ∧ n.path = path) ∧
    (∀ path n name, Node.ofPath? path = some n → Path.EndsIn path name →
      n.path = path ∧ n.name = name ∧ n.fileName = name ∧ ∀ u : UnitId, u.name = name ↔ u = n.id) ∧
    ∀ (h : Host) (r : Roots) (t : Topology), Discovery.list h r = .ok t →
      (∀ n, t.Has n → n.fileName = n.id.name) ∧
      (∀ d ∈ t, ∀ (h' : Host) (s : Locks),
        ((∃ o, ((Occupancy.ofDevice d).run h' s).1 = .ok o) ↔ ∀ n ∈ d.nodes, n.OpenOrGone h') ∧
        ∀ o, ((Occupancy.ofDevice d).run h' s).1 = .ok o →
          ∀ pe name, o.lookup pe = some (.occupied name) ↔
            pe ∈ d.pes ∧ ∃ n, d.heldThrough? h' s pe = some n ∧ name = n.id.name) ∧
      (h.Named →
        (∀ n, t.Has n → ∀ target,
          Holder.nodeOf? r.devfs target = some n.id.name ↔ Path.same target n.path = true) ∧
        ∀ (h' : Host) found, h'.list r.procfs = .ok found → ∃ xs, Holder.scan h' r = .ok xs ∧
          (∀ x ∈ xs, ∃ u : UnitId, u.Proper ∧ x.node = u.name) ∧
          ∀ n, t.Has n → ∀ pid, (∃ x ∈ xs, x.node = n.id.name ∧ x.pid = pid) ↔
            ∃ name ∈ found.map Prod.fst, Holder.HasOpen h' r name pid n.path) := by
  refine ⟨fun path n => ?_, fun path n name hn hname => ?_, fun h r t ht =>
    ⟨fun n => Discovery.list_fileName ht,
      fun d hd h' s => ⟨Occupancy.exists_report_iff, fun o hrun pe name => ?_⟩,
      fun hh => ⟨fun n hn target => ?_, fun h' found hf => ?_⟩⟩⟩
  · simp only [Node.ofPath?_eq_some_iff, Path.fileName?_eq_some_iff_endsIn,
      ← UnitId.ofName?_iff_written fun cs i => Decimal.canonical_iff, UnitId.ofName?_eq_some_iff]
    constructor
    · rintro ⟨hname, hproper, hpath⟩
      exact ⟨n.name, hname, ⟨hproper, rfl⟩, hpath⟩
    · rintro ⟨_, hname, ⟨hproper, rfl⟩, hpath⟩
      exact ⟨hname, hproper, hpath⟩
  · have hfile := Node.fileName_of_ofPath? hn
    obtain ⟨hown, -, hpath⟩ := Node.ofPath?_eq_some_iff.1 hn
    rw [Path.fileName?_eq_some_iff_endsIn.2 hname, Option.some.injEq] at hown
    subst hown
    exact ⟨hpath, rfl, hfile, fun u => UnitId.name_injective.eq_iff⟩
  · rw [Occupancy.lookup_eq_occupied_iff hrun]
    refine and_congr_right fun _ => exists_congr fun n => and_congr_right fun hheld => ?_
    rw [Discovery.list_fileName ht ⟨d, hd, List.mem_of_find?_eq_some hheld⟩, Node.name]
  · rw [Holder.nodeOf?_eq_some_iff]
    exact Holder.pointsAt_iff_same hh ht hn
  · obtain ⟨xs, hs, hmem⟩ := Holder.exists_scan hf
    refine ⟨xs, hs, fun x hx => ?_, fun n hn pid => ?_⟩
    · obtain ⟨name, -, hholds⟩ := (hmem x).1 hx
      obtain ⟨_, -, _, -, _, -, -, hunit⟩ := hholds.link
      exact hunit
    · simp only [hmem, ← Holder.exists_holds_iff hh ht hn h']
      constructor
      · rintro ⟨x, ⟨name, hname, hx⟩, hnode, hpid⟩
        exact ⟨name, hname, x, hx, hnode, hpid⟩
      · rintro ⟨name, hname, x, hx, hnode, hpid⟩
        exact ⟨x, ⟨name, hname, hx⟩, hnode, hpid⟩

/-- The host with the three ranges once a process has the first of them open. -/
def openedHost : Host where
  entries := nestedHost.entries ++ [(["proc"], .directory), (["proc", "7"], .directory),
    (["proc", "7", "cmdline"], .file 4), (["proc", "7", "fd"], .directory),
    (["proc", "7", "fd", "3"], .link "/dev//./npu0pe0-3")]
  contents := nestedHost.contents ++ [(4, [97])]
  fresh := 5

theorem opened_list : openedHost.list Roots.standard.procfs = .ok [("7", .directory)] := by
  have hat : openedHost.at? "/proc" = .ok (["proc"], .directory) :=
    Host.at?_of_straight? (by decide)
  exact Host.list_of_at? hat

theorem opened_hasOpen : Holder.HasOpen openedHost .standard "7" 7 "/dev/npu0pe0-3" where
  number := Holder.numberOf_iff.2 ⟨7, by decide, rfl⟩
  link := by
    have hdistinct : openedHost.Distinct := by decide
    have hplace : openedHost.straight? "/proc/7/fd" = some (["proc", "7", "fd"], .directory) := by
      decide
    have hfound := Host.list_of_at? (Host.at?_of_straight? hplace)
    have hlink : openedHost.readLink? "/proc/7/fd/3" = some "/dev//./npu0pe0-3" :=
      (@Host.readLink?_eq_some_iff_mem _ _ "3" _ _ hdistinct hfound (by decide) (by decide)
        (by decide) (by decide) (by decide)).2 (by decide)
    exact ⟨_, hfound, "3", by decide, _, hlink, by decide⟩
  command := by
    have hplace : openedHost.straight? "/proc/7/cmdline" =
        some (["proc", "7", "cmdline"], .file 4) := by decide
    exact ⟨_, Host.read_eq_ok (Host.openNode_of_straight? hplace)⟩

/-- A path with slashes and a dot behind its name; the report of a device one of whose nodes has
vanished; and a process that reached a node by another spelling of its path. -/
theorem unit_node_and_file_share_name_spelled :
    (∃ n, Node.ofPath? "/dev//npu0pe0-1/.//" = some n ∧ n.path = "/dev//npu0pe0-1/.//" ∧
      n.fileName = "npu0pe0-1") ∧
    nestedHost.Named ∧ Discovery.list nestedHost .standard = .ok nestedTopology ∧
    (∃ o, ((Occupancy.ofDevice ⟨0, .rngd, nestedNodes⟩).run goneHost [1, 2]).1 = .ok o ∧
      o.lookup 3 = some (.occupied "npu0pe3-4")) ∧
    ∃ xs, Holder.scan openedHost .standard = .ok xs ∧
      ∃ x ∈ xs, x.node = "npu0pe0-3" ∧ x.pid = 7 := by
  have hnamed : nestedHost.Named := by decide
  have hpath : Node.ofPath? "/dev//npu0pe0-1/.//" =
      some ⟨⟨0, some (.fused 0 1)⟩, "/dev//npu0pe0-1/.//"⟩ := by decide
  have hends : Path.EndsIn "/dev//npu0pe0-1/.//" "npu0pe0-1" :=
    Path.fileName?_eq_some_iff_endsIn.1 (by decide)
  obtain ⟨hkept, -, hfile, -⟩ := unit_node_and_file_share_name.2.1 _ _ _ hpath hends
  obtain ⟨-, hreport, hlinks⟩ := unit_node_and_file_share_name.2.2 _ _ _ nested_list
  refine ⟨⟨_, hpath, hkept, hfile⟩, hnamed, nested_list, ?_, ?_⟩
  · have hd : (⟨0, .rngd, nestedNodes⟩ : Device) ∈ nestedTopology := by simp [nestedTopology_eq]
    obtain ⟨hsome, hoccupied⟩ := hreport _ hd goneHost [1, 2]
    obtain ⟨o, hrun⟩ := hsome.2 gone_openOrGone
    refine ⟨o, hrun, (hoccupied o hrun 3 _).2 ⟨by decide, ?_⟩⟩
    rw [gone_heldThrough?]
    exact ⟨⟨⟨0, some (.fused 3 4)⟩, "/dev/npu0pe3-4"⟩, by decide, by decide⟩
  · have hn : nestedTopology.Has ⟨⟨0, some (.fused 0 3)⟩, "/dev/npu0pe0-3"⟩ :=
      nested_has.2 (by decide)
    obtain ⟨xs, hs, -, hheld⟩ := (hlinks hnamed).2 _ _ opened_list
    obtain ⟨x, hx, hnode, hpid⟩ := (hheld _ hn 7).2 ⟨"7", by decide, opened_hasOpen⟩
    have hname : (⟨0, some (.fused 0 3)⟩ : UnitId).name = "npu0pe0-3" := by decide
    exact ⟨xs, hs, x, hx, hnode.trans hname, hpid⟩

end NpuBroker

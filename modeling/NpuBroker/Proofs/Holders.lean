import NpuBroker.Holder
import NpuBroker.Proofs.Answers
import NpuBroker.Proofs.Links
import NpuBroker.Proofs.Repeats
import Mathlib.Data.Prod.Lex
import Mathlib.Data.String.Basic

/-!
# Who holds a node

What a scan for holders finds, read off the process directory: for each entry that is called by a
number, the nodes that its descriptors point at, if its command can be read. An entry answers for
itself, whatever the others are.

* `nodeOf?_eq_some_iff`: which links count, and for which node.
* `mem_ofEntry_iff`: what an entry of the process directory holds.
* `scan_eq_ok_iff`: a scan is what the entries hold, put in the one order that there is.
* `count_flatMap_ofEntry`: an entry yields what it holds once.
* `scan_exact`: what is found, how often, in what order, and what makes no difference to it.
* `scan_distinct_iff`: a node is found twice with a process exactly when two entries that hold it
  are called by one number.
-/
namespace NpuBroker

namespace Holder

variable {h : Host} {r : Roots} {name : String} {x y : Holder}

/-! ## What an entry holds -/

/-- Digits, maybe behind a `+`, of a number of 32 bits. -/
def NumberOf (name : String) (pid : Nat) : Prop :=
  pid < Nat.pow 2 32 ∧ ∃ ds, (name.toList = ds ∨ name.toList = '+' :: ds) ∧ Decimal.Numeral ds pid

theorem numberOf_iff {pid : Nat} : NumberOf name pid ↔
    ∃ n, Decimal.unsigned? (Nat.pow 2 32) name.toList = some n ∧ n.val = pid := by
  simp only [Decimal.unsigned?_eq_some_iff]
  constructor
  · rintro ⟨hlt, hds⟩
    exact ⟨⟨pid, hlt⟩, hds, rfl⟩
  · rintro ⟨n, hds, rfl⟩
    exact ⟨n.isLt, hds⟩

theorem NumberOf.unique {m n : Nat} (hm : NumberOf name m) (hn : NumberOf name n) : m = n := by
  obtain ⟨a, ha, rfl⟩ := numberOf_iff.1 hm
  obtain ⟨b, hb, rfl⟩ := numberOf_iff.1 hn
  rw [Option.some.inj (ha.symm.trans hb)]

/-- The path is right below `devfs`, component by component, and ends in the name of a unit. -/
def PointsAt (devfs target node : String) : Prop :=
  Path.components target = Path.components devfs ++ [.name node] ∧
    ∃ u : UnitId, u.Proper ∧ node = u.name

theorem nodeOf?_eq_some_iff {devfs target node : String} :
    nodeOf? devfs target = some node ↔ PointsAt devfs target node := by
  simp only [nodeOf?, Option.bind_eq_bind, Option.bind_eq_some_iff, Path.parent?_eq_some_iff]
  constructor
  · rintro ⟨parent, ⟨last, hlast, hcomponents⟩, hnode⟩
    split at hnode
    · rename_i hparent
      obtain ⟨file, hfile, hnode⟩ := Option.bind_eq_some_iff.1 hnode
      split at hnode
      · rename_i hunit
        cases hnode
        rw [Path.fileName?_eq_some_iff, hcomponents, List.getLast?_concat,
          Option.some.injEq] at hfile
        obtain ⟨u, hu⟩ := Option.isSome_iff_exists.1 hunit
        exact ⟨by rw [hcomponents, hparent, hfile], u, UnitId.ofName?_eq_some_iff.1 hu⟩
      · cases hnode
    · cases hnode
  · rintro ⟨hcomponents, u, hu⟩
    have hunit : UnitId.ofName? node = some u := UnitId.ofName?_eq_some_iff.2 hu
    have hfile : Path.fileName? target = some node := by
      rw [Path.fileName?_eq_some_iff, hcomponents, List.getLast?_concat]
    refine ⟨_, ⟨_, Path.Component.noConfusion, hcomponents⟩, ?_⟩
    simp [hfile, hunit]

/-- Where the descriptors of a process are. -/
def descriptors (r : Roots) (name : String) : String := Path.join (Path.join r.procfs name) "fd"

/-- The entry `name` of the process directory holds what `x` says: it is called by the number of
the process, a link among its descriptors leads to the node, and its command line is what is left
of the text of `cmdline` when blanks take the place of the zero bytes. -/
structure Holds (h : Host) (r : Roots) (name : String) (x : Holder) : Prop where
  number : NumberOf name x.pid
  link : ∃ found, h.list (descriptors r name) = .ok found ∧ ∃ fd ∈ found.map Prod.fst, ∃ target,
    h.readLink? (Path.join (descriptors r name) fd) = some target ∧
      PointsAt r.devfs target x.node
  command : ∃ bytes, h.read (Path.join (Path.join r.procfs name) "cmdline") = .ok bytes ∧
    Text.TrimsTo ((Utf8.lossy bytes).map fun c => if c = '\x00' then ' ' else c) x.command.toList

theorem mem_nodesIn_iff {devfs dir node : String} : node ∈ nodesIn h devfs dir ↔
    ∃ found, h.list dir = .ok found ∧ ∃ fd ∈ found.map Prod.fst, ∃ target,
      h.readLink? (Path.join dir fd) = some target ∧ PointsAt devfs target node := by
  unfold nodesIn
  cases h.list dir with
  | error e => simp
  | ok found =>
    simp [List.mem_eraseDups, List.mem_mergeSort, List.mem_filterMap, Option.bind_eq_some_iff,
      nodeOf?_eq_some_iff]

theorem nodup_nodesIn (devfs dir : String) : (nodesIn h devfs dir).Nodup := by
  unfold nodesIn
  split
  · exact List.nodup_nil
  · exact nodup_eraseDups _

theorem eq_commandOf_iff {bytes : List UInt8} {command : String} : command = commandOf bytes ↔
    Text.TrimsTo ((Utf8.lossy bytes).map fun c => if c = '\x00' then ' ' else c)
      command.toList := by
  rw [commandOf, ← Text.trim_eq_iff, String.ext_iff, String.toList_ofList, eq_comm]

/-- An entry that is called by a number holds nothing unless its command can be read. -/
theorem ofEntry_eq {pid : Fin (Nat.pow 2 32)}
    (hpid : Decimal.unsigned? (Nat.pow 2 32) name.toList = some pid) :
    ofEntry h r name = match h.read (Path.join (Path.join r.procfs name) "cmdline") with
      | .error _ => []
      | .ok bytes => (nodesIn h r.devfs (descriptors r name)).map fun node =>
          ⟨node, pid, commandOf bytes⟩ := by
  unfold ofEntry descriptors
  simp only [hpid]
  split
  · rename_i hnil
    rw [hnil]
    split <;> rfl
  · rfl

theorem mem_ofEntry_iff : x ∈ ofEntry h r name ↔ Holds h r name x := by
  cases hpid : Decimal.unsigned? (Nat.pow 2 32) name.toList with
  | none =>
    have hnot : ¬ Holds h r name x := fun hx => by
      obtain ⟨n, hn, -⟩ := numberOf_iff.1 hx.number
      cases hpid.symm.trans hn
    simp [ofEntry, hpid, hnot]
  | some pid =>
    rw [ofEntry_eq hpid]
    constructor
    · intro hx
      split at hx
      · cases hx
      · rename_i bytes hbytes
        obtain ⟨node, hnode, rfl⟩ := List.mem_map.1 hx
        exact ⟨numberOf_iff.2 ⟨pid, hpid, rfl⟩, mem_nodesIn_iff.1 hnode,
          bytes, hbytes, eq_commandOf_iff.1 rfl⟩
    · rintro ⟨hnumber, hlink, bytes, hbytes, hcommand⟩
      obtain ⟨n, hn, hxpid⟩ := numberOf_iff.1 hnumber
      obtain rfl := Option.some.inj (hpid.symm.trans hn)
      rw [hbytes]
      refine List.mem_map.2 ⟨x.node, mem_nodesIn_iff.2 hlink, ?_⟩
      rw [← eq_commandOf_iff.2 hcommand, hxpid]

instance (h : Host) (r : Roots) (name : String) (x : Holder) : Decidable (Holds h r name x) :=
  decidable_of_iff _ mem_ofEntry_iff

/-- A process and its command are known by its entry. -/
theorem Holds.eq_of_node (hx : Holds h r name x) (hy : Holds h r name y) (hn : x.node = y.node) :
    x = y := by
  obtain ⟨bytes, hbytes, hcommand⟩ := hx.command
  obtain ⟨bytes', hbytes', hcommand'⟩ := hy.command
  obtain rfl := Except.ok.inj (hbytes.symm.trans hbytes')
  have hc : x.command = y.command :=
    (eq_commandOf_iff.2 hcommand).trans (eq_commandOf_iff.2 hcommand').symm
  have hpid := hx.number.unique hy.number
  cases x
  cases y
  rw [mk.injEq]
  exact ⟨hn, hpid, hc⟩

theorem nodup_ofEntry (h : Host) (r : Roots) (name : String) : (ofEntry h r name).Nodup := by
  cases hpid : Decimal.unsigned? (Nat.pow 2 32) name.toList with
  | none => simp [ofEntry, hpid]
  | some pid =>
    rw [ofEntry_eq hpid]
    split
    · exact List.nodup_nil
    · exact (nodup_nodesIn _ _).map fun a b hab => congrArg Holder.node hab

/-! ## What a scan finds -/

/-- Node name, process and command, compared from the left. -/
def key (x : Holder) : String ×ₗ Nat ×ₗ String := toLex (x.node, toLex (x.pid, x.command))

theorem key_injective : Function.Injective key := by
  intro x y hkey
  obtain ⟨node, pid, command⟩ := x
  obtain ⟨node', pid', command'⟩ := y
  simpa [key] using hkey

theorem before_iff : x.before y = true ↔ x.key ≤ y.key := by
  simp [before, key, Prod.Lex.toLex_le_toLex]

theorem pairwise_before (xs : List Holder) :
    (xs.mergeSort before).Pairwise fun x y => x.key ≤ y.key := by
  have htrans : ∀ x y z : Holder, x.before y = true → y.before z = true → x.before z = true := by
    simp only [before_iff]
    exact fun x y z => le_trans
  have htotal : ∀ x y : Holder, (x.before y || y.before x) = true := by
    simp only [Bool.or_eq_true, before_iff]
    exact fun x y => le_total x.key y.key
  exact (List.pairwise_mergeSort htrans htotal xs).imp before_iff.1

/-- Holders are put in the one order that there is. -/
theorem mergeSort_eq_of_perm {xs ys : List Holder} (hp : xs.Perm ys) :
    xs.mergeSort before = ys.mergeSort before :=
  List.Perm.eq_of_pairwise (fun _ _ _ _ hxy hyx => key_injective (le_antisymm hxy hyx))
    (pairwise_before xs) (pairwise_before ys)
    ((List.mergeSort_perm xs before).trans (hp.trans (List.mergeSort_perm ys before).symm))

theorem scan_eq_ok_iff {xs : List Holder} : scan h r = .ok xs ↔ ∃ found,
    h.list r.procfs = .ok found ∧
      xs = ((found.map Prod.fst).flatMap (ofEntry h r)).mergeSort before := by
  unfold scan
  simp only [bind_eq_ok_iff, mapError_eq_ok_iff, pure, Except.pure, Except.ok.injEq,
    List.flatMap_map, eq_comm (a := xs)]

theorem scan_eq_error {e : Host.Error} (he : h.list r.procfs = .error e) :
    scan h r = .error (.scan r.procfs e) := by
  rw [scan, he]
  rfl

/-- An entry yields what it holds once. -/
theorem count_flatMap_ofEntry (h : Host) (r : Roots) (names : List String) (x : Holder) :
    (names.flatMap (ofEntry h r)).count x = names.countP fun name => decide (Holds h r name x) := by
  rw [count_flatMap_of_nodup (nodup_ofEntry h r)]
  simp only [mem_ofEntry_iff]

/-- **Sound and complete.** If the process directory cannot be listed, that is the answer. Otherwise
what is found is what its entries hold, once for each entry that holds it, and an entry holds a
node once; it is in the order of the nodes and, for one node, of the processes. Nothing else about
the tree matters: where as many entries hold the same, the same is found, so one that holds nothing
takes nothing from the others. -/
theorem scan_exact (h : Host) (r : Roots) :
    match h.list r.procfs with
    | .error e => scan h r = .error (.scan r.procfs e)
    | .ok found => ∃ xs, scan h r = .ok xs ∧
      (∀ x, x ∈ xs ↔ ∃ name ∈ found.map Prod.fst, Holds h r name x) ∧
      (∀ x, xs.count x = (found.map Prod.fst).countP fun name => decide (Holds h r name x)) ∧
      (∀ name x y, Holds h r name x → Holds h r name y → x.node = y.node → x = y) ∧
      (xs.Pairwise fun x y => x.node < y.node ∨ x.node = y.node ∧ x.pid ≤ y.pid) ∧
      ∀ h' found', h'.list r.procfs = .ok found' →
        (∀ x, ((found'.map Prod.fst).countP fun name => decide (Holds h' r name x)) =
          (found.map Prod.fst).countP fun name => decide (Holds h r name x)) →
        scan h' r = .ok xs := by
  cases hf : h.list r.procfs with
  | error e => exact scan_eq_error hf
  | ok found =>
    refine ⟨_, scan_eq_ok_iff.2 ⟨found, hf, rfl⟩, fun x => ?_, fun x => ?_,
      fun _ _ _ => Holds.eq_of_node, ?_, fun h' found' hf' hsame => ?_⟩
    · simp only [List.mem_mergeSort, List.mem_flatMap, mem_ofEntry_iff]
    · rw [(List.mergeSort_perm _ _).count_eq, count_flatMap_ofEntry]
    · refine (pairwise_before _).imp fun {x y} hxy => ?_
      rw [key, key, Prod.Lex.toLex_le_toLex, Prod.Lex.toLex_le_toLex] at hxy
      exact hxy.imp_right fun hpid => ⟨hpid.1, hpid.2.elim le_of_lt fun heq => le_of_eq heq.1⟩
    · refine scan_eq_ok_iff.2 ⟨found', hf', mergeSort_eq_of_perm ?_⟩
      refine List.perm_iff_count.2 fun x => ?_
      rw [count_flatMap_ofEntry, count_flatMap_ofEntry, hsame]

/-! ## Pairs that are found twice -/

theorem nodup_pairs_iff {names : List String} (hn : names.Nodup) :
    ((names.flatMap (ofEntry h r)).map fun x => (x.node, x.pid)).Nodup ↔
      ∀ a ∈ names, ∀ b ∈ names, ∀ x y, Holds h r a x → Holds h r b y →
        x.node = y.node → x.pid = y.pid → a = b := by
  rw [List.map_flatMap, nodup_flatMap_iff hn]
  constructor
  · rintro ⟨-, hshare⟩ a ha b hb x y hx hy hnode hpid
    refine hshare a ha b hb (x.node, x.pid) (List.mem_map.2 ⟨x, mem_ofEntry_iff.2 hx, rfl⟩) ?_
    exact List.mem_map.2 ⟨y, mem_ofEntry_iff.2 hy, by rw [hnode, hpid]⟩
  · intro hone
    refine ⟨fun name _ => ?_, fun a ha b hb p hp hp' => ?_⟩
    · refine (nodup_ofEntry h r name).map_on fun x hx y hy hxy => ?_
      rw [mem_ofEntry_iff] at hx hy
      exact hx.eq_of_node hy (congrArg Prod.fst hxy)
    · obtain ⟨x, hx, rfl⟩ := List.mem_map.1 hp
      obtain ⟨y, hy, hxy⟩ := List.mem_map.1 hp'
      rw [mem_ofEntry_iff] at hx hy
      rw [Prod.mk.injEq] at hxy
      exact hone a ha b hb x y hx hy hxy.1.symm hxy.2.symm

/-- A process whose number is written in two ways, with a descriptor of one node in both. -/
def twinHost : Host where
  entries := [(["dev"], .directory), (["dev", "npu0"], .file 0), (["proc"], .directory),
    (["proc", "7"], .directory), (["proc", "7", "cmdline"], .file 1),
    (["proc", "7", "fd"], .directory), (["proc", "7", "fd", "3"], .link "/dev/npu0"),
    (["proc", "07"], .directory), (["proc", "07", "cmdline"], .file 2),
    (["proc", "07", "fd"], .directory), (["proc", "07", "fd", "3"], .link "/dev/npu0")]
  contents := [(1, [97]), (2, [97])]
  fresh := 3

/-- The two spellings, and the file with the command line under each. -/
def twinFiles : List (String × FileId) := [("7", 1), ("07", 2)]

theorem twin_distinct : twinHost.Distinct := by decide

theorem twin_list :
    twinHost.list Roots.standard.procfs = .ok [("7", .directory), ("07", .directory)] := by
  have hat : twinHost.at? "/proc" = .ok (["proc"], .directory) := Host.at?_of_straight? (by decide)
  exact Host.list_of_at? hat

theorem twin_ofEntry :
    ∀ x ∈ twinFiles, ofEntry twinHost .standard x.1 = [⟨"npu0", 7, "a"⟩] := by
  have hnumber : ∀ x ∈ twinFiles, Decimal.unsigned? (Nat.pow 2 32) x.1.toList = some 7 := by decide
  have hplace : ∀ x ∈ twinFiles, twinHost.straight? (descriptors .standard x.1) =
      some (["proc", x.1, "fd"], .directory) := by decide
  have hfound : ∀ x ∈ twinFiles, twinHost.entries.filterMap (Host.child? ["proc", x.1, "fd"]) =
      [("3", .link "/dev/npu0")] := by decide
  have hpath : ∀ x ∈ twinFiles,
      ((descriptors .standard x.1).toList.splitOn '/').getLast? ≠ some [] ∧
        (Path.join (descriptors .standard x.1) "3").utf8ByteSize ≤ Host.longestPath := by decide
  have hfile : ∀ x ∈ twinFiles,
      twinHost.straight? (Path.join (Path.join Roots.standard.procfs x.1) "cmdline") =
        some (["proc", x.1, "cmdline"], .file x.2) := by decide
  have hbytes : ∀ x ∈ twinFiles, twinHost.contentsOf x.2 = [97] := by decide
  have hcommand : commandOf [97] = "a" := by
    rw [commandOf, Utf8.lossy_eq_of_decode? (Utf8.decode?_ascii (by simp))]
    decide
  have hnode : nodeOf? Roots.standard.devfs "/dev/npu0" = some "npu0" := by decide
  intro x hx
  have hlist := Host.list_of_at? (Host.at?_of_straight? (hplace x hx))
  rw [hfound x hx] at hlist
  have hlink : twinHost.readLink? (Path.join (descriptors .standard x.1) "3") = some "/dev/npu0" :=
    (Host.readLink?_eq_some_iff_mem twin_distinct hlist (hpath x hx).1 (by decide) (by decide)
      (by decide) (hpath x hx).2).2 (by simp)
  rw [ofEntry_eq (hnumber x hx), Host.read_eq_ok (Host.openNode_of_straight? (hfile x hx)),
    hbytes x hx]
  simp [nodesIn, hlist, hlink, hnode, hcommand, List.eraseDups_cons]

theorem twin_scan :
    scan twinHost .standard = .ok [⟨"npu0", 7, "a"⟩, ⟨"npu0", 7, "a"⟩] := by
  refine scan_eq_ok_iff.2 ⟨_, twin_list, ?_⟩
  have hheld : ["7", "07"].flatMap (ofEntry twinHost .standard) =
      [⟨"npu0", 7, "a"⟩, ⟨"npu0", 7, "a"⟩] := by
    simp [twin_ofEntry ("7", 1) (by decide), twin_ofEntry ("07", 2) (by decide)]
  rw [List.map_cons, List.map_singleton, hheld, List.mergeSort_of_pairwise (by decide)]

/-- **One entry for a node and a process.** No node is found twice with a process exactly when no
two entries of the process directory hold it under one number. Numbers that are written without a
sign and without zeros in front differ when their texts do. -/
theorem scan_distinct_iff {xs : List Holder} (hd : h.Distinct) (hs : scan h r = .ok xs) :
    ∃ found, h.list r.procfs = .ok found ∧
      ((xs.map fun x => (x.node, x.pid)).Nodup ↔
        ∀ a ∈ found.map Prod.fst, ∀ b ∈ found.map Prod.fst, ∀ x y, Holds h r a x → Holds h r b y →
          x.node = y.node → x.pid = y.pid → a = b) ∧
      ((∀ name ∈ found.map Prod.fst, ∀ pid, NumberOf name pid → name = Decimal.text pid) →
        (xs.map fun x => (x.node, x.pid)).Nodup) := by
  obtain ⟨found, hf, rfl⟩ := scan_eq_ok_iff.1 hs
  rw [((List.mergeSort_perm _ _).map _).nodup_iff, nodup_pairs_iff (hd.of_list hf)]
  refine ⟨found, hf, Iff.rfl, fun hplain a ha b hb x y hx hy _ hpid => ?_⟩
  rw [hplain a ha _ hx.number, hplain b hb _ hy.number, hpid]

/-- The process whose number is written in two ways is found twice with its node. -/
theorem scan_distinct_twin :
    twinHost.Distinct ∧ scan twinHost .standard = .ok [⟨"npu0", 7, "a"⟩, ⟨"npu0", 7, "a"⟩] ∧
      ∃ found, twinHost.list Roots.standard.procfs = .ok found ∧
        ∃ a ∈ found.map Prod.fst, ∃ b ∈ found.map Prod.fst, ∃ x y,
          Holds twinHost .standard a x ∧ Holds twinHost .standard b y ∧
            x.node = y.node ∧ x.pid = y.pid ∧ a ≠ b := by
  obtain ⟨found, hf, hiff, -⟩ := scan_distinct_iff twin_distinct twin_scan
  have hrepeat : ¬ ([Holder.mk "npu0" 7 "a", ⟨"npu0", 7, "a"⟩].map
      fun x => (x.node, x.pid)).Nodup := by decide
  rw [hiff] at hrepeat
  push Not at hrepeat
  exact ⟨twin_distinct, twin_scan, found, hf, hrepeat⟩

/-- Two entries are found that say the same. -/
theorem scan_repeats : ∃ xs, scan twinHost .standard = .ok xs ∧
    xs = [⟨"npu0", 7, "a"⟩, ⟨"npu0", 7, "a"⟩] ∧ ¬ (xs.map fun x => (x.node, x.pid)).Nodup :=
  ⟨_, twin_scan, rfl, by decide⟩

end Holder
end NpuBroker

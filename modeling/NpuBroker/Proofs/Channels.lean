import NpuBroker.Proofs.Enumeration
import NpuBroker.Proofs.Labels

/-!
# Channels

What a read of one kind comes to, read off the sensor directory of the device. Whether there is such
a directory is settled before any channel is looked at, so that it is the same for all kinds; after
that nothing can fail. A channel is read when the file of its value can be, whatever the files
beside it hold, and whatever order the directory lists them in.

* `Refused`: what stands in the way of a directory with channels. `read_eq_error_iff`: nothing else
  fails a read.
* `Unambiguous`: no two files are the same item of one channel, so that an item has its file
  whatever the order (`itemOf?_eq_some_iff`).
* `readings_exact`: readings are the channels that have a value, ascending.
* `read_exact`: what is read of a device, and what this depends on.
-/
namespace NpuBroker

variable {h h' : Host} {r : Roots} {device : Index} {kind : SensorKind} {dir : String}
  {names names' : List String}

/-- The number of a channel has 32 bits. -/
theorem SensorFile.channel_lt {name : List Char} {f : SensorFile}
    (hf : ofFileName? name = some f) : f.channel < Nat.pow 2 32 := by
  simp only [ofFileName?, Option.bind_eq_bind, Option.bind_eq_some_iff] at hf
  obtain ⟨kind, -, channel, -, hf⟩ := hf
  split at hf
  · cases hf
  · cases hf
    exact channel.isLt

namespace Host

/-- Every directory lists the same on both hosts, in whatever order. -/
structure ListsAlike (h h' : Host) : Prop where
  error : ∀ {path e}, h.list path = .error e → h'.list path = .error e
  ok : ∀ {path found}, h.list path = .ok found →
    ∃ found', h'.list path = .ok found' ∧ found'.Perm found

theorem listsAlike_of_entries (he : h'.entries = h.entries) : h.ListsAlike h' where
  error hl := (list_congr he _).trans hl
  ok hl := ⟨_, (list_congr he _).trans hl, .refl _⟩

theorem Reordered.listsAlike (hr : h.Reordered h') (hd : h.Distinct) : h.ListsAlike h' where
  error := hr.list_error hd
  ok := hr.list_perm hd

end Host

namespace Sensor

/-! ## The directory -/

/-- Where the bus lists the sensor directories of the device with this address. -/
def root (r : Roots) (address : String) : String := Path.join (r.bus address.toList) "hwmon"

/-- What stands in the way of a directory with channels: the address of the device cannot be read,
its sensor directories cannot be listed, there is none, or the least of them cannot be listed. -/
inductive Refused (h : Host) (r : Roots) (device : Index) : Fault → Prop
  | address {e : Host.Error} (hread : h.readText (r.management device "busname") = .error e) :
    Refused h r device (.sensors device (.unreadable (r.management device "busname") e))
  | root {address : String} {e : Host.Error}
    (hread : h.readText (r.management device "busname") = .ok address)
    (hlist : h.list (root r address) = .error e) :
    Refused h r device (.sensors device (.unreadable (root r address) e))
  | empty {address : String}
    (hread : h.readText (r.management device "busname") = .ok address)
    (hlist : h.list (root r address) = .ok []) :
    Refused h r device (.sensors device (.noInstance (root r address)))
  | least {address name : String} {found : List (String × Host.Entry)} {e : Host.Error}
    (hread : h.readText (r.management device "busname") = .ok address)
    (hlist : h.list (root r address) = .ok found)
    (hname : name ∈ found.map Prod.fst) (hleast : ∀ other ∈ found.map Prod.fst, name ≤ other)
    (hdir : h.list (Path.join (root r address) name) = .error e) :
    Refused h r device (.sensors device (.unreadable (Path.join (root r address) name) e))

/-- The first of sorted names is the least of them. -/
theorem sorted_iff {name : String} :
    (∃ rest, names.mergeSort (fun a b => decide (a ≤ b)) = name :: rest) ↔
      name ∈ names ∧ ∀ other ∈ names, name ≤ other := by
  have hmem : ∀ a, a ∈ names.mergeSort (fun a b => decide (a ≤ b)) ↔ a ∈ names := fun a =>
    List.mem_mergeSort
  have hsorted : (names.mergeSort fun a b => decide (a ≤ b)).Pairwise (· ≤ ·) :=
    List.pairwise_mergeSort' _ names
  constructor
  · rintro ⟨rest, hrest⟩
    rw [hrest, List.pairwise_cons] at hsorted
    simp only [hrest, List.mem_cons] at hmem
    refine ⟨(hmem name).1 (.inl rfl), fun other hother => ?_⟩
    rcases (hmem other).2 hother with rfl | hrest
    · exact String.le_refl _
    · exact hsorted.1 other hrest
  · rintro ⟨hname, hleast⟩
    cases hs : names.mergeSort (fun a b => decide (a ≤ b)) with
    | nil =>
      rw [hs] at hmem
      simpa using (hmem name).2 hname
    | cons first rest =>
      rw [hs] at hmem hsorted
      refine ⟨rest, ?_⟩
      have hle : name ≤ first := hleast first ((hmem first).1 List.mem_cons_self)
      rcases List.mem_cons.1 ((hmem name).2 hname) with rfl | hrest
      · rfl
      · have hge := (List.pairwise_cons.1 hsorted).1 name hrest
        rw [String.le_antisymm hge hle]

theorem directory_eq_error_iff {f : Fault} :
    directory h r device = .error f ↔
      (∃ e, h.readText (r.management device "busname") = .error e ∧
        f = .sensors device (.unreadable (r.management device "busname") e)) ∨
      ∃ address, h.readText (r.management device "busname") = .ok address ∧
        ((∃ e, h.list (root r address) = .error e ∧
          f = .sensors device (.unreadable (root r address) e)) ∨
        h.list (root r address) = .ok [] ∧ f = .sensors device (.noInstance (root r address))) := by
  simp only [directory, bind_eq_error_iff, mapError_eq_ok_iff, mapError_eq_error_iff]
  refine or_congr (exists_congr fun e => and_congr_right fun _ => eq_comm)
    (exists_congr fun address => and_congr_right fun _ => or_congr
      (exists_congr fun e => and_congr_right fun _ => eq_comm) ?_)
  constructor
  · rintro ⟨found, hlist, hnone⟩
    split at hnone
    · rename_i hnil
      have hperm := List.mergeSort_perm (found.map Prod.fst) fun a b => decide (a ≤ b)
      rw [hnil] at hperm
      rw [List.map_eq_nil_iff.1 hperm.nil_eq.symm] at hlist
      cases hnone
      exact ⟨hlist, rfl⟩
    · cases hnone
  · rintro ⟨hlist, rfl⟩
    refine ⟨[], hlist, ?_⟩
    rw [List.map_nil, List.mergeSort_nil]
    rfl

/-- A read fails when there is no directory with channels, and for no other reason. -/
theorem read_eq_error_iff {f : Fault} :
    read h r device kind = .error f ↔ Refused h r device f := by
  simp only [read, bind_eq_error_iff, mapError_eq_error_iff, pure, Except.pure, reduceCtorEq,
    exists_false, and_false, or_false, directory_eq_error_iff]
  constructor
  · rintro ((⟨e, hread, rfl⟩ | ⟨address, hread, ⟨e, hlist, rfl⟩ | ⟨hlist, rfl⟩⟩) |
      ⟨dir, hdir, e, hlist, rfl⟩)
    · exact .address hread
    · exact .root hread hlist
    · exact .empty hread hlist
    · obtain ⟨address, found, name, rest, hread, hfound, hsorted, rfl⟩ := directory_eq_ok_iff.1 hdir
      obtain ⟨hname, hleast⟩ := sorted_iff.1 ⟨rest, hsorted⟩
      exact .least hread hfound hname hleast hlist
  · rintro (⟨hread⟩ | ⟨hread, hlist⟩ | ⟨hread, hlist⟩ | ⟨hread, hlist, hname, hleast, hdir⟩)
    · exact .inl (.inl ⟨_, hread, rfl⟩)
    · exact .inl (.inr ⟨_, hread, .inl ⟨_, hlist, rfl⟩⟩)
    · exact .inl (.inr ⟨_, hread, .inr ⟨hlist, rfl⟩⟩)
    · obtain ⟨rest, hsorted⟩ := sorted_iff.2 ⟨hname, hleast⟩
      have hok := directory_eq_ok_iff.2 ⟨_, _, _, rest, hread, hlist, hsorted, rfl⟩
      exact .inr ⟨_, hok, _, hdir, rfl⟩

/-- A snapshot fails as each of its kinds does. -/
theorem snapshot_eq_error_iff {f : Fault} :
    snapshot h r device = .error f ↔ Refused h r device f := by
  simp only [snapshot, Snapshot.gather, bind_eq_error_iff, pure, Except.pure, reduceCtorEq,
    and_false, exists_false, or_false, read_eq_error_iff]
  constructor
  · rintro (hf | ⟨-, -, hf | ⟨-, -, hf | ⟨-, -, hf⟩⟩⟩) <;> exact hf
  · exact .inl

/-! ## The file of an item -/

/-- No two of the files are the same item of one channel. -/
def Unambiguous (names : List String) : Prop :=
  ∀ a ∈ names, ∀ b ∈ names, ∀ f, SensorFile.ofFileName? a.toList = some f →
    SensorFile.ofFileName? b.toList = some f → a = b

theorem unambiguous_of_nodup
    (hn : (names.map fun name => SensorFile.ofFileName? name.toList).Nodup) :
    Unambiguous names := fun _ ha _ hb _ hfa hfb =>
  List.inj_on_of_nodup_map hn ha hb (hfa.trans hfb.symm)

theorem Unambiguous.perm (hu : Unambiguous names) (hp : names'.Perm names) : Unambiguous names' :=
  fun a ha b hb => hu a (hp.mem_iff.1 ha) b (hp.mem_iff.1 hb)

theorem itemOf?_eq_some_iff (hu : Unambiguous names) {channel : Nat} {item : List Char}
    {name : String} : itemOf? names kind channel item = some name ↔
      name ∈ names ∧ SensorFile.ofFileName? name.toList = some ⟨kind, channel, item⟩ := by
  unfold itemOf?
  rw [← List.mem_reverse]
  constructor
  · intro hf
    exact ⟨List.mem_of_find?_eq_some hf, by simpa using List.find?_some hf⟩
  · rintro ⟨hname, hfile⟩
    cases hf : names.reverse.find? fun name =>
        SensorFile.ofFileName? name.toList = some ⟨kind, channel, item⟩ with
    | none => simpa [hfile] using List.find?_eq_none.1 hf name hname
    | some other =>
      have hother : SensorFile.ofFileName? other.toList = some ⟨kind, channel, item⟩ := by
        simpa using List.find?_some hf
      have hmem := List.mem_reverse.1 (List.mem_of_find?_eq_some hf)
      rw [hu other hmem name (List.mem_reverse.1 hname) _ hother hfile]

/-- The file of an item is the same in any order of the files. -/
theorem itemOf?_perm (hu : Unambiguous names) (hp : names'.Perm names) (channel : Nat)
    (item : List Char) : itemOf? names' kind channel item = itemOf? names kind channel item := by
  refine Option.ext fun name => ?_
  rw [itemOf?_eq_some_iff (hu.perm hp), itemOf?_eq_some_iff hu, hp.mem_iff]

theorem channels_perm (hp : names'.Perm names) : channels names' kind = channels names kind := by
  refine channels_eq (channels_ascending names kind) fun channel => ?_
  simp only [mem_channels, hp.mem_iff]

/-- Readings do not depend on the order in which the files are listed. -/
theorem readings_perm (hu : Unambiguous names) (hp : names'.Perm names)
    (hread : ∀ path, h'.readText path = h.readText path) :
    readings h' dir names' kind = readings h dir names kind := by
  unfold readings value? ownLabel?
  simp only [channels_perm hp, itemOf?_perm hu hp, hread]

/-! ## Readings and channels -/

/-- The file holds the value of the channel. -/
def HoldsValue (names : List String) (kind : SensorKind) (channel : Nat) (name : String) : Prop :=
  name ∈ names ∧ SensorFile.ofFileName? name.toList = some ⟨kind, channel, kind.valueItem⟩

/-- The channel has a file for its value, which can be read and has the value for its text. -/
def HasValue (h : Host) (dir : String) (names : List String) (kind : SensorKind) (channel : Nat)
    (value : Int) : Prop :=
  ∃ name text, HoldsValue names kind channel name ∧
    h.readText (Path.join dir name) = .ok text ∧
    Decimal.int64? (Text.trim text.toList) = some value

/-- The readings are of these channels, with these values: the channels of the kind that have a
value, ascending. -/
structure Exact (h : Host) (dir : String) (names : List String) (kind : SensorKind)
    (rs : List Reading) (xs : List (Nat × Int)) : Prop where
  values : rs.map Reading.value = xs.map Prod.snd
  ascending : xs.Pairwise fun x y => x.1 < y.1
  numbers : ∀ x ∈ xs, x.1 < Nat.pow 2 32
  mem_iff : ∀ channel value, (channel, value) ∈ xs ↔ HasValue h dir names kind channel value

theorem value?_eq_some_iff (hu : Unambiguous names) {channel : Nat} {value : Int} :
    value? h dir names kind channel = some value ↔
      HasValue h dir names kind channel value := by
  have hread : ∀ path text,
      (h.readText path).toOption = some text ↔ h.readText path = .ok text := by
    intro path text
    cases h.readText path <;> simp [Except.toOption]
  simp only [value?, Option.bind_eq_bind, Option.bind_eq_some_iff, itemOf?_eq_some_iff hu, hread,
    HasValue, HoldsValue]
  constructor
  · rintro ⟨name, hname, text, htext, hvalue⟩
    exact ⟨name, text, hname, htext, hvalue⟩
  · rintro ⟨name, text, hname, htext, hvalue⟩
    exact ⟨name, hname, text, htext, hvalue⟩

theorem reported_values (xs : List Source) :
    (reported xs).map Reading.value = xs.map Source.value := by
  induction xs using List.reverseRecOn with
  | nil => rfl
  | append_singleton xs x ih =>
    rw [reported_concat, push, List.map_append, ih, List.map_append]
    rfl

/-- The channels that are put down are those that have a value. -/
theorem mem_sources_iff (hu : Unambiguous names) {channel : Nat} {value : Int} :
    (channel, value) ∈ (sources h dir names kind).map (fun x => (x.channel, x.value)) ↔
      HasValue h dir names kind channel value := by
  rw [← value?_eq_some_iff hu, List.mem_map, sources]
  constructor
  · rintro ⟨x, hx, he⟩
    obtain ⟨_, -, hx⟩ := List.mem_filterMap.1 hx
    obtain ⟨_, hvalue, rfl⟩ := Option.map_eq_some_iff.1 hx
    cases he
    exact hvalue
  · intro hvalue
    obtain ⟨name, _, hname, -⟩ := (value?_eq_some_iff hu).1 hvalue
    have hchannel : channel ∈ channels names kind := mem_channels.2 ⟨name, hname⟩
    exact ⟨_, List.mem_filterMap.2 ⟨channel, hchannel, Option.map_eq_some_iff.2 ⟨_, hvalue, rfl⟩⟩,
      rfl⟩

/-- Readings are the channels that have a value, ascending. -/
theorem readings_exact (hu : Unambiguous names) : Exact h dir names kind
    (readings h dir names kind)
    ((sources h dir names kind).map fun x => (x.channel, x.value)) where
  values := by
    rw [readings_eq, reported_values, List.map_map]
    rfl
  ascending := List.pairwise_map.2 (sources_ascending h dir names kind)
  numbers x hx := by
    obtain ⟨_, _, ⟨-, hfile⟩, -⟩ := (mem_sources_iff hu).1 hx
    exact SensorFile.channel_lt hfile
  mem_iff _ _ := mem_sources_iff hu

/-! ## Other contents, other orders -/

/-- A channel has the same value wherever the file of its value reads the same. -/
theorem hasValue_congr {channel : Nat} {value : Int}
    (hread : ∀ name, HoldsValue names kind channel name →
      h'.readText (Path.join dir name) = h.readText (Path.join dir name)) :
    HasValue h' dir names kind channel value ↔ HasValue h dir names kind channel value :=
  exists_congr fun name => exists_congr fun text => and_congr_right fun hname => by
    rw [hread name hname]

section Alike

variable (hl : h.ListsAlike h') (hread : h'.readText (r.management device "busname") =
  h.readText (r.management device "busname"))
include hl hread

/-- The same stands in the way where the device has the same address and the same is listed. -/
theorem Refused.alike {f : Fault} (hf : Refused h r device f) : Refused h' r device f := by
  cases hf with
  | address he => exact .address (hread.trans he)
  | root ha hlist => exact .root (hread.trans ha) (hl.error hlist)
  | empty ha hlist =>
    obtain ⟨found', hlist', hp⟩ := hl.ok hlist
    rw [hp.eq_nil] at hlist'
    exact .empty (hread.trans ha) hlist'
  | least ha hlist hname hleast hdir =>
    obtain ⟨found', hlist', hp⟩ := hl.ok hlist
    have hmem := fun name => (hp.map Prod.fst).mem_iff (a := name)
    exact .least (hread.trans ha) hlist' ((hmem _).2 hname)
      (fun other hother => hleast other ((hmem other).1 hother)) (hl.error hdir)

theorem directory_alike (hdir : directory h r device = .ok dir) :
    directory h' r device = .ok dir := by
  obtain ⟨address, found, name, rest, ha, hlist, hsorted, hpath⟩ := directory_eq_ok_iff.1 hdir
  obtain ⟨found', hlist', hp⟩ := hl.ok hlist
  have hleast := sorted_iff.1 ⟨rest, hsorted⟩
  simp only [← (hp.map Prod.fst).mem_iff] at hleast
  obtain ⟨rest', hsorted'⟩ := sorted_iff.2 hleast
  exact directory_eq_ok_iff.2
    ⟨address, found', name, rest', hread.trans ha, hlist', hsorted', hpath⟩

end Alike

/-- What is read does not depend on the order in which directories list their entries. -/
theorem read_reordered (hu : ∀ dir found, directory h r device = .ok dir →
      h.list dir = .ok found → Unambiguous (found.map Prod.fst))
    (hd : h.Distinct) (hr : h.Reordered h') :
    read h' r device kind = read h r device kind := by
  have hl := hr.listsAlike hd
  have htext := hr.readText_eq hd
  cases hread : read h r device kind with
  | error f => exact read_eq_error_iff.2 ((read_eq_error_iff.1 hread).alike hl (htext _))
  | ok rs =>
    obtain ⟨dir, found, hdir, hlist, rfl⟩ := read_eq_ok_iff.1 hread
    obtain ⟨found', hlist', hp⟩ := hl.ok hlist
    exact read_eq_ok_iff.2 ⟨dir, found', directory_alike hl (htext _) hdir, hlist',
      readings_perm (hu dir found hdir hlist) (hp.map Prod.fst) htext⟩

/-! ## What is read of a device -/

/-- The tree of `takenHost` with a second temperature that is no number, and no text of its own for
any channel. -/
def brokenHost : Host where
  entries := takenHost.entries
  contents := [(0, "0000:60:00.0".toList.map fun c => UInt8.ofNat c.toNat), (1, [49]), (3, [120]),
    (5, [51])]
  fresh := 7

/-- The file of the value of a temperature. -/
def takenFile (channel : Nat) : String := "temp" ++ Decimal.text channel ++ "_input"

theorem taken_unambiguous {found : List (String × Host.Entry)}
    (hdir : directory takenHost .standard 0 = .ok dir) (hlist : takenHost.list dir = .ok found) :
    Unambiguous (found.map Prod.fst) := by
  obtain ⟨found', hlist', hnames⟩ := taken_list
  rw [taken_directory, Except.ok.injEq] at hdir
  rw [← hdir, hlist', Except.ok.injEq] at hlist
  rw [← hlist, hnames]
  refine unambiguous_of_nodup ?_
  rw [taken_files]
  decide

theorem taken_not_refused (f : Fault) : ¬ Refused takenHost .standard 0 f := by
  intro hf
  have hread : read takenHost .standard 0 .temperature = .error f := read_eq_error_iff.2 hf
  rw [taken_read] at hread
  cases hread

theorem taken_holdsValue : ∀ channel ∈ [1, 2, 3], ∀ name,
    HoldsValue takenNames .temperature channel name ↔ name = takenFile channel := by
  have hfile : ∀ channel ∈ [1, 2, 3], takenFile channel ∈ takenNames ∧ ∀ name ∈ takenNames,
      (SensorFile.ofFileName? name.toList =
        some ⟨.temperature, channel, SensorKind.temperature.valueItem⟩ ↔
          name = takenFile channel) := by decide
  intro channel hchannel name
  obtain ⟨hmem, hiff⟩ := hfile channel hchannel
  constructor
  · exact fun hname => (hiff name hname.1).1 hname.2
  · rintro rfl
    exact ⟨hmem, (hiff _ hmem).2 rfl⟩

theorem broken_busname : brokenHost.readText (Roots.standard.management 0 "busname") =
    takenHost.readText (Roots.standard.management 0 "busname") := by
  have hplain : brokenHost.plainText? (Roots.standard.management 0 "busname") =
      some "0000:60:00.0" ∧ takenHost.plainText? (Roots.standard.management 0 "busname") =
      some "0000:60:00.0" := by decide
  rw [Host.readText_of_plainText? hplain.1, Host.readText_of_plainText? hplain.2]

/-- The first and the third temperature read the same as before. -/
theorem broken_kept : ∀ channel ∈ [1, 3],
    brokenHost.readText (Path.join takenDirectory (takenFile channel)) =
        .ok (Decimal.text channel) ∧
      takenHost.readText (Path.join takenDirectory (takenFile channel)) =
        .ok (Decimal.text channel) := by
  have hplain : ∀ channel ∈ [1, 3],
      brokenHost.plainText? (Path.join takenDirectory (takenFile channel)) =
          some (Decimal.text channel) ∧
        takenHost.plainText? (Path.join takenDirectory (takenFile channel)) =
          some (Decimal.text channel) := by decide
  exact fun channel hchannel => (hplain channel hchannel).imp Host.readText_of_plainText?
    Host.readText_of_plainText?

/-- The second temperature has no value. -/
theorem broken_second (value : Int) :
    ¬ HasValue brokenHost takenDirectory takenNames .temperature 2 value := by
  rintro ⟨name, text, hname, htext, hnumber⟩
  have hplain : brokenHost.plainText? (Path.join takenDirectory (takenFile 2)) = some "x" := by
    decide
  have hnone : Decimal.int64? (Text.trim "x".toList) = none := by decide
  rw [(taken_holdsValue 2 (by decide) name).1 hname, Host.readText_of_plainText? hplain,
    Except.ok.injEq] at htext
  rw [← htext, hnone] at hnumber
  cases hnumber

end Sensor
end NpuBroker

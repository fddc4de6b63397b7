import NpuBroker.Sensor
import NpuBroker.Proofs.Answers
import NpuBroker.Proofs.Naming
import NpuBroker.Proofs.Plain
import NpuBroker.Proofs.Repeats
import Mathlib.Data.List.Sort

/-!
# Labels

Every reading of a kind has a label of its own to begin with: the text of its channel, or the
channel's number. A label that is taken gets the number behind it, and nobody looks whether that
one is taken too.

* `channels_ascending`: a channel is read once.
* `readings_eq`: readings are the channels that have a value, put down one after another.
* `numbered_mem_iff`: a label with the number of a channel to come is there only as some text.
* `labels_nodup_iff`: so labels repeat exactly when a channel finds its label taken and an earlier
  one has for its text that label with the number behind it.
* `count_label_le_two`: no label is there more than twice.
-/
namespace NpuBroker.Sensor

/-! ## Channels -/

/-- Channels are read in the order of their numbers, each of them once. -/
theorem channels_ascending (names : List String) (kind : SensorKind) :
    (channels names kind).Pairwise (· < ·) :=
  pairwise_eraseDups ((List.pairwise_mergeSort' _ _).imp fun hle hne => Nat.lt_of_le_of_ne hle hne)

/-- A channel is read when one of the files holds its value. -/
theorem mem_channels {names : List String} {kind : SensorKind} {channel : Nat} :
    channel ∈ channels names kind ↔ ∃ name ∈ names,
      SensorFile.ofFileName? name.toList = some ⟨kind, channel, kind.valueItem⟩ := by
  rw [channels, List.mem_eraseDups, List.mem_mergeSort, List.mem_filterMap]
  refine exists_congr fun name => and_congr_right fun _ => ?_
  cases SensorFile.ofFileName? name.toList with
  | none => simp
  | some f =>
    obtain ⟨k, n, item⟩ := f
    simp [and_comm, and_left_comm]

/-- The one list of these numbers that ascends. -/
theorem channels_eq {names : List String} {kind : SensorKind} {l : List Nat}
    (hl : l.Pairwise (· < ·)) (hm : ∀ channel, channel ∈ l ↔ ∃ name ∈ names,
      SensorFile.ofFileName? name.toList = some ⟨kind, channel, kind.valueItem⟩) :
    channels names kind = l :=
  List.Subset.antisymm_of_pairwise (channels_ascending names kind) hl
    (fun channel hc => (hm channel).2 (mem_channels.1 hc))
    fun channel hc => mem_channels.2 ((hm channel).1 hc)

/-- The directory is the least of those that the bus lists for the device. -/
theorem directory_eq_ok_iff {h : Host} {r : Roots} {device : Index} {dir : String} :
    directory h r device = .ok dir ↔ ∃ address found name rest,
      h.readText (r.management device "busname") = .ok address ∧
      h.list (Path.join (r.bus address.toList) "hwmon") = .ok found ∧
      (found.map Prod.fst).mergeSort (fun a b => decide (a ≤ b)) = name :: rest ∧
      Path.join (Path.join (r.bus address.toList) "hwmon") name = dir := by
  simp only [directory, bind_eq_ok_iff, mapError_eq_ok_iff]
  constructor
  · rintro ⟨address, hread, found, hfound, hdir⟩
    split at hdir
    · cases hdir
    · rename_i name rest hsorted
      cases hdir
      exact ⟨address, found, name, rest, hread, hfound, hsorted, rfl⟩
  · rintro ⟨address, found, name, rest, hread, hfound, hsorted, rfl⟩
    refine ⟨address, hread, found, hfound, ?_⟩
    rw [hsorted]
    rfl

theorem read_eq_ok_iff {h : Host} {r : Roots} {device : Index} {kind : SensorKind}
    {rs : List Reading} : read h r device kind = .ok rs ↔ ∃ dir found,
      directory h r device = .ok dir ∧ h.list dir = .ok found ∧
        readings h dir (found.map Prod.fst) kind = rs := by
  simp only [read, bind_eq_ok_iff, mapError_eq_ok_iff, pure, Except.pure, Except.ok.injEq]
  constructor
  · rintro ⟨dir, hdir, found, hfound, hrs⟩
    exact ⟨dir, found, hdir, hfound, hrs⟩
  · rintro ⟨dir, found, hdir, hfound, hrs⟩
    exact ⟨dir, hdir, found, hfound, hrs⟩

/-! ## Readings one after another -/

/-- A channel that has a value, with the label that it has on its own. -/
structure Source where
  channel : Nat
  own : String
  value : Int

/-- The label that the channel gets when its own is taken. -/
def Source.numbered (x : Source) : String := x.own ++ "_" ++ Decimal.text x.channel

/-- The channels of a kind that have a value, in order. -/
def sources (h : Host) (dir : String) (names : List String) (kind : SensorKind) : List Source :=
  (channels names kind).filterMap fun channel =>
    (value? h dir names kind channel).map fun value =>
      ⟨channel, (ownLabel? h dir names kind channel).getD (Decimal.text channel), value⟩

/-- Puts the reading of a channel behind earlier ones. -/
def push (earlier : List Reading) (x : Source) : List Reading :=
  earlier ++ [⟨label earlier x.channel (some x.own), x.value⟩]

/-- The readings of channels in order. -/
def reported (xs : List Source) : List Reading := xs.foldl push []

def labels (rs : List Reading) : List String := rs.map Reading.label

theorem readings_eq (h : Host) (dir : String) (names : List String) (kind : SensorKind) :
    readings h dir names kind = reported (sources h dir names kind) := by
  unfold readings reported sources
  suffices key : ∀ earlier : List Reading, (channels names kind).foldl _ earlier =
      (List.filterMap _ (channels names kind)).foldl push earlier from key []
  induction channels names kind with
  | nil => exact fun _ => rfl
  | cons channel rest ih =>
    intro earlier
    rw [List.foldl_cons, List.filterMap_cons]
    cases value? h dir names kind channel with
    | none => exact ih earlier
    | some value => exact ih _

theorem sources_ascending (h : Host) (dir : String) (names : List String) (kind : SensorKind) :
    (sources h dir names kind).Pairwise fun x y => x.channel < y.channel := by
  refine List.Pairwise.filterMap _ ?_ (channels_ascending names kind)
  intro a b hab x hx y hy
  obtain ⟨-, -, rfl⟩ := Option.map_eq_some_iff.1 hx
  obtain ⟨-, -, rfl⟩ := Option.map_eq_some_iff.1 hy
  exact hab

variable {xs : List Source} {x y : Source}

theorem reported_concat (xs : List Source) (x : Source) :
    reported (xs ++ [x]) = push (reported xs) x := by
  rw [reported, List.foldl_append, List.foldl_cons, List.foldl_nil, ← reported]

/-- The label of the last channel: its own, or that with the number when its own is taken. -/
theorem labels_concat (xs : List Source) (x : Source) :
    labels (reported (xs ++ [x])) = labels (reported xs) ++
      [if x.own ∈ labels (reported xs) then x.numbered else x.own] := by
  have htaken : ((reported xs).any fun r => r.label = x.own) = true ↔
      x.own ∈ labels (reported xs) := by
    simp [labels]
  rw [reported_concat, push, labels, List.map_append, List.map_singleton, ← labels, label]
  simp only [Option.getD_some, htaken, Source.numbered]

/-! ## Labels with a number -/

/-- What is behind the last `_` of a label with a number is the number. -/
theorem channel_of_numbered (h : x.numbered = y.numbered) : x.channel = y.channel := by
  have hlast : ∀ z : Source, z.numbered.toList.reverse.takeWhile Char.isDigit =
      (Decimal.digits z.channel).reverse := by
    intro z
    have hchars : z.numbered.toList.reverse =
        (Decimal.digits z.channel).reverse ++ '_' :: z.own.toList.reverse := by
      simp [Source.numbered, Decimal.text]
    rw [hchars]
    exact (Text.cut_run _ (fun c hc => Decimal.isDigit_of_mem_digits (List.mem_reverse.1 hc))
      (by rintro c ⟨⟩; rfl)).1
  have hdigits := hlast x
  rw [h, hlast y, List.reverse_inj] at hdigits
  simpa using congrArg Decimal.nat? hdigits.symm

/-- A label is the text of some channel, or it has the number of one behind it. -/
theorem own_or_numbered {l : String} (hl : l ∈ labels (reported xs)) :
    ∃ x ∈ xs, l = x.own ∨ l = x.numbered := by
  induction xs using List.reverseRecOn with
  | nil => cases hl
  | append_singleton xs x ih =>
    rw [labels_concat, List.mem_append, List.mem_singleton] at hl
    rcases hl with hl | rfl
    · obtain ⟨y, hy, hl⟩ := ih hl
      exact ⟨y, List.mem_append_left _ hy, hl⟩
    · refine ⟨x, by simp, ?_⟩
      split
      · exact .inr rfl
      · exact .inl rfl

/-- The text of every channel is there, as its label or because it was taken. -/
theorem own_mem_labels (hx : x ∈ xs) : x.own ∈ labels (reported xs) := by
  induction xs using List.reverseRecOn with
  | nil => cases hx
  | append_singleton xs y ih =>
    rw [labels_concat, List.mem_append, List.mem_singleton]
    rcases List.mem_append.1 hx with hx | hx
    · exact .inl (ih hx)
    · rw [List.mem_singleton.1 hx]
      split
      · rename_i htaken
        exact .inl htaken
      · exact .inr rfl

/-- Before a channel is read its number stands behind a label only in the text of another. -/
theorem numbered_mem_iff (hx : ∀ y ∈ xs, y.channel ≠ x.channel) :
    x.numbered ∈ labels (reported xs) ↔ ∃ y ∈ xs, y.own = x.numbered := by
  constructor
  · intro hl
    obtain ⟨y, hy, hown | hnumbered⟩ := own_or_numbered hl
    · exact ⟨y, hy, hown.symm⟩
    · exact absurd (channel_of_numbered hnumbered).symm (hx y hy)
  · rintro ⟨y, hy, hown⟩
    exact hown ▸ own_mem_labels hy

/-! ## Repetition -/

/-- The last of ascending channels is none of those before it. -/
theorem ascending_concat (hxs : (xs ++ [x]).Pairwise fun x y => x.channel < y.channel) :
    (xs.Pairwise fun x y => x.channel < y.channel) ∧ ∀ y ∈ xs, y.channel ≠ x.channel := by
  obtain ⟨hxs, -, hlast⟩ := List.pairwise_append.1 hxs
  exact ⟨hxs, fun y hy => Nat.ne_of_lt (hlast y hy x List.mem_cons_self)⟩

/-- Labels repeat when a channel finds its own taken, and the one with its number as well. -/
theorem labels_nodup_iff (hxs : xs.Pairwise fun x y => x.channel < y.channel) :
    (labels (reported xs)).Nodup ↔ ∀ front x, front ++ [x] <+: xs →
      x.own ∈ labels (reported front) → ∀ y ∈ front, y.own ≠ x.numbered := by
  induction xs using List.reverseRecOn with
  | nil => simp [reported, labels]
  | append_singleton xs x ih =>
    obtain ⟨hxs, hnew⟩ := ascending_concat hxs
    -- the last label repeats one before it exactly when both forms of it are taken
    have hrepeat : (if x.own ∈ labels (reported xs) then x.numbered else x.own) ∉
        labels (reported xs) ↔
        (x.own ∈ labels (reported xs) → ∀ y ∈ xs, y.own ≠ x.numbered) := by
      split
      · rename_i htaken
        simp [htaken, numbered_mem_iff hnew]
      · rename_i hfree
        simp [hfree]
    rw [labels_concat, ← List.concat_eq_append, List.nodup_concat, hrepeat, ih hxs]
    simp only [List.prefix_concat_iff]
    constructor
    · rintro ⟨hx, hall⟩ front y (hy | hy)
      · obtain ⟨rfl, rfl⟩ := List.append_singleton_inj.1 hy
        exact hx
      · exact hall front y hy
    · exact fun hall => ⟨hall xs x (.inl rfl), fun front y hy => hall front y (.inr hy)⟩

/-- A label that was free is there once. -/
theorem count_concat_le {ls : List String} {l a : String} {k : Nat} (ha : a ∉ ls) (hk : 0 < k)
    (hl : ls.count l ≤ k) : (ls ++ [a]).count l ≤ k := by
  rw [List.count_append, List.count_singleton]
  split
  · rename_i he
    have hzero := List.count_eq_zero.2 ha
    rw [beq_iff_eq.1 he] at hzero
    omega
  · exact hl

/-- A label with the number of a channel to come is there once at most. -/
theorem count_numbered_le_one (hx : ∀ y ∈ xs, y.channel ≠ x.channel) :
    (labels (reported xs)).count x.numbered ≤ 1 := by
  induction xs using List.reverseRecOn with
  | nil => simp [reported, labels]
  | append_singleton xs y ih =>
    rw [List.forall_mem_append, List.forall_mem_singleton] at hx
    have ih := ih hx.1
    rw [labels_concat]
    split
    · have hne : y.numbered ≠ x.numbered := fun he => hx.2 (channel_of_numbered he)
      rw [List.count_append, List.count_singleton]
      simpa [hne] using ih
    · rename_i hfree
      exact count_concat_le hfree (by decide) ih

theorem count_label_le_two (hxs : xs.Pairwise fun x y => x.channel < y.channel) (l : String) :
    (labels (reported xs)).count l ≤ 2 := by
  induction xs using List.reverseRecOn with
  | nil => simp [reported, labels]
  | append_singleton xs x ih =>
    obtain ⟨hxs, hnew⟩ := ascending_concat hxs
    have ih := ih hxs
    rw [labels_concat]
    split
    · rw [List.count_append, List.count_singleton]
      split
      · rename_i he
        have hone := count_numbered_le_one hnew
        rw [beq_iff_eq.1 he] at hone
        omega
      · exact ih
    · rename_i hfree
      exact count_concat_le hfree (by decide) ih

/-! ## A text that ends in the number of another channel -/

/-- A device with three temperatures. The second and the third channel have one text, and the
first has that text with the number of the third behind it. -/
def takenHost : Host where
  entries := [(["sys"], .directory), (["sys", "class"], .directory),
    (["sys", "class", "npu_mgmt"], .directory),
    (["sys", "class", "npu_mgmt", "npu0_mgmt"], .directory),
    (["sys", "class", "npu_mgmt", "npu0_mgmt", "busname"], .file 0), (["sys", "bus"], .directory),
    (["sys", "bus", "pci"], .directory), (["sys", "bus", "pci", "devices"], .directory),
    (["sys", "bus", "pci", "devices", "0000:60:00.0"], .directory),
    (["sys", "bus", "pci", "devices", "0000:60:00.0", "hwmon"], .directory),
    (["sys", "bus", "pci", "devices", "0000:60:00.0", "hwmon", "hwmon0"], .directory),
    (["sys", "bus", "pci", "devices", "0000:60:00.0", "hwmon", "hwmon0", "temp1_input"], .file 1),
    (["sys", "bus", "pci", "devices", "0000:60:00.0", "hwmon", "hwmon0", "temp1_label"], .file 2),
    (["sys", "bus", "pci", "devices", "0000:60:00.0", "hwmon", "hwmon0", "temp2_input"], .file 3),
    (["sys", "bus", "pci", "devices", "0000:60:00.0", "hwmon", "hwmon0", "temp2_label"], .file 4),
    (["sys", "bus", "pci", "devices", "0000:60:00.0", "hwmon", "hwmon0", "temp3_input"], .file 5),
    (["sys", "bus", "pci", "devices", "0000:60:00.0", "hwmon", "hwmon0", "temp3_label"], .file 6)]
  contents := [(0, "0000:60:00.0".toList.map fun c => UInt8.ofNat c.toNat), (1, [49]),
    (2, [65, 95, 51]), (3, [50]), (4, [65]), (5, [51]), (6, [65])]
  fresh := 7

def takenDirectory : String := "/sys/bus/pci/devices/0000:60:00.0/hwmon/hwmon0"

def takenNames : List String :=
  ["temp1_input", "temp1_label", "temp2_input", "temp2_label", "temp3_input", "temp3_label"]

def takenSources : List Source := [⟨1, "A_3", 1⟩, ⟨2, "A", 2⟩, ⟨3, "A", 3⟩]

theorem taken_directory : directory takenHost .standard 0 = .ok takenDirectory := by
  have hread : takenHost.readText (Roots.standard.management 0 "busname") = .ok "0000:60:00.0" :=
    Host.readText_of_plainText? (by decide)
  have hroot : Path.join (Roots.standard.bus "0000:60:00.0".toList) "hwmon" =
      "/sys/bus/pci/devices/0000:60:00.0/hwmon" := by decide
  have hat : takenHost.at? "/sys/bus/pci/devices/0000:60:00.0/hwmon" =
      .ok (["sys", "bus", "pci", "devices", "0000:60:00.0", "hwmon"], .directory) :=
    Host.at?_of_straight? (by decide)
  refine directory_eq_ok_iff.2 ⟨_, [("hwmon0", .directory)], "hwmon0", [], hread, ?_, ?_, ?_⟩
  · rw [hroot, Host.list, hat]
    rfl
  · rw [List.map_singleton, List.mergeSort_singleton]
  · decide

theorem taken_list : ∃ found, takenHost.list takenDirectory = .ok found ∧
    found.map Prod.fst = takenNames := by
  have hat : takenHost.at? takenDirectory =
      .ok (["sys", "bus", "pci", "devices", "0000:60:00.0", "hwmon", "hwmon0"], .directory) :=
    Host.at?_of_straight? (by decide)
  rw [Host.list, hat]
  exact ⟨_, rfl, rfl⟩

theorem taken_files : takenNames.map (fun name => SensorFile.ofFileName? name.toList) =
    [some ⟨.temperature, 1, "input".toList⟩, some ⟨.temperature, 1, "label".toList⟩,
      some ⟨.temperature, 2, "input".toList⟩, some ⟨.temperature, 2, "label".toList⟩,
      some ⟨.temperature, 3, "input".toList⟩, some ⟨.temperature, 3, "label".toList⟩] := by decide

theorem taken_sources :
    sources takenHost takenDirectory takenNames .temperature = takenSources := by
  have hchannels : channels takenNames .temperature = takenSources.map Source.channel := by
    refine channels_eq (by decide) fun channel => ?_
    have hmem : (∃ name ∈ takenNames, SensorFile.ofFileName? name.toList =
        some ⟨.temperature, channel, SensorKind.temperature.valueItem⟩) ↔
        some ⟨.temperature, channel, SensorKind.temperature.valueItem⟩ ∈
          takenNames.map fun name => SensorFile.ofFileName? name.toList := List.mem_map.symm
    rw [hmem, taken_files]
    simp [takenSources, SensorKind.valueItem]
  have hvalue : ∀ x ∈ takenSources,
      value? takenHost takenDirectory takenNames .temperature x.channel = some x.value := by
    have hitem : ∀ x ∈ takenSources, itemOf? takenNames .temperature x.channel
        SensorKind.temperature.valueItem = some ("temp" ++ Decimal.text x.channel ++ "_input") ∧
        takenHost.plainText? (Path.join takenDirectory
          ("temp" ++ Decimal.text x.channel ++ "_input")) = some (Decimal.text x.channel) ∧
        Decimal.int64? (Text.trim (Decimal.text x.channel).toList) = some x.value := by decide
    intro x hx
    obtain ⟨hfile, hread, hnumber⟩ := hitem x hx
    simp [value?, hfile, Host.readText_of_plainText? hread, Except.toOption, hnumber]
  have hown : ∀ x ∈ takenSources,
      ownLabel? takenHost takenDirectory takenNames .temperature x.channel = some x.own := by
    have hitem : ∀ x ∈ takenSources, itemOf? takenNames .temperature x.channel
        "label".toList = some ("temp" ++ Decimal.text x.channel ++ "_label") ∧
        takenHost.plainText? (Path.join takenDirectory
          ("temp" ++ Decimal.text x.channel ++ "_label")) = some x.own ∧
        Text.trimmed x.own = x.own ∧ x.own ≠ "" := by decide
    intro x hx
    obtain ⟨hfile, hread, htrimmed, hne⟩ := hitem x hx
    unfold ownLabel?
    rw [hfile]
    simp [Host.readText_of_plainText? hread, Except.toOption, htrimmed, hne]
  rw [sources, hchannels, List.filterMap_map]
  have hself : ∀ x ∈ takenSources, ((fun channel =>
      (value? takenHost takenDirectory takenNames .temperature channel).map fun value =>
        Source.mk channel ((ownLabel? takenHost takenDirectory takenNames .temperature
          channel).getD (Decimal.text channel)) value) ∘ Source.channel) x = some x := by
    intro x hx
    simp [hvalue x hx, hown x hx]
  rw [List.filterMap_congr hself, List.filterMap_some]

theorem taken_read : read takenHost .standard 0 .temperature = .ok (reported takenSources) := by
  obtain ⟨found, hlist, hnames⟩ := taken_list
  refine read_eq_ok_iff.2 ⟨takenDirectory, found, taken_directory, hlist, ?_⟩
  rw [readings_eq, hnames, taken_sources]

/-! ## What is read of a device -/

/-- **Labels that repeat.** The labels that are read of one kind are distinct exactly when no
channel finds its label taken while an earlier one has for its text that label with the number of
the channel behind it. No label is read more than twice. -/
theorem read_labels_distinct_iff {h : Host} {r : Roots} {device : Index} {kind : SensorKind}
    {rs : List Reading} (hr : read h r device kind = .ok rs) :
    ∃ dir found, directory h r device = .ok dir ∧ h.list dir = .ok found ∧
      let xs := sources h dir (found.map Prod.fst) kind
      rs = reported xs ∧
      ((labels rs).Nodup ↔ ∀ front x, front ++ [x] <+: xs →
        x.own ∈ labels (reported front) → ∀ y ∈ front, y.own ≠ x.numbered) ∧
      ∀ l, (labels rs).count l ≤ 2 := by
  obtain ⟨dir, found, hdir, hfound, rfl⟩ := read_eq_ok_iff.1 hr
  refine ⟨dir, found, hdir, hfound, readings_eq .., ?_⟩
  rw [readings_eq]
  have hxs := sources_ascending h dir (found.map Prod.fst) kind
  exact ⟨labels_nodup_iff hxs, count_label_le_two hxs⟩

/-- The third temperature finds its label taken, and the first has it with the number behind it. -/
theorem read_labels_distinct_taken :
    ∃ rs, read takenHost .standard 0 .temperature = .ok rs ∧ ¬ (labels rs).Nodup ∧
      (labels rs).count "A_3" ≤ 2 ∧
      ∃ dir found, directory takenHost .standard 0 = .ok dir ∧
        takenHost.list dir = .ok found ∧
        ∃ front x, front ++ [x] <+: sources takenHost dir (found.map Prod.fst) .temperature ∧
          x.own ∈ labels (reported front) ∧ ∃ y ∈ front, y.own = x.numbered := by
  obtain ⟨dir, found, hdir, hfound, -, hiff, hcount⟩ := read_labels_distinct_iff taken_read
  have hrepeat : ¬ (labels (reported takenSources)).Nodup := by decide
  refine ⟨_, taken_read, hrepeat, hcount _, dir, found, hdir, hfound, ?_⟩
  simpa [hiff] using hrepeat

/-- Two of three channels are read under one label, though no file stands for the item of a
channel beside another. -/
theorem read_labels_repeat :
    ∃ dir found rs, directory takenHost .standard 0 = .ok dir ∧
      takenHost.list dir = .ok found ∧
      (found.map fun x => SensorFile.ofFileName? x.1.toList).Nodup ∧
      read takenHost .standard 0 .temperature = .ok rs ∧
      rs = [⟨"A_3", 1⟩, ⟨"A", 2⟩, ⟨"A_3", 3⟩] ∧ ¬ (rs.map Reading.label).Nodup := by
  obtain ⟨found, hlist, hnames⟩ := taken_list
  refine ⟨_, found, _, taken_directory, hlist, ?_, taken_read, by decide, by decide⟩
  have hfiles : (found.map fun x => SensorFile.ofFileName? x.1.toList) =
      takenNames.map fun name => SensorFile.ofFileName? name.toList := by
    rw [← hnames, List.map_map]
    rfl
  rw [hfiles, taken_files]
  decide

end NpuBroker.Sensor

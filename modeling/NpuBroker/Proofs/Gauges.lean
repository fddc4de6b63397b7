import NpuBroker.Proofs.Answers
import NpuBroker.Telemetry
import Mathlib.Data.List.Nodup

/-!
# What the gauges show

A poll sets gauges as it goes: device by device, kind by kind and reading by reading. What is in the
registry in the end depends on nothing but what the polls have found and returned: each reading that
was ever returned has its gauge, which shows the last reading of its kind, label and device. What
fails leaves no trace.

* `Snapshot.entries`: the readings of a snapshot by its fields, each with its gauge.
* `Registry.Shows`: a registry shows how many devices were found and a log of readings. Each
  operation on gauges comes with what it adds to the log.
* `Telemetry.gauges_mirror`: what a registry shows after any run of polls, and what one more poll
  does.
-/
namespace NpuBroker

variable {g : Registry} {d : Device} {look : Look} {t : Topology} {s : Snapshot} {n : Nat}
  {log : List (GaugeKey × Int)}

/-! ## Readings that are returned -/

namespace Snapshot

/-- A snapshot is taken when every kind can be read, and holds what was read of each. -/
theorem gather_eq_ok_iff {i : Index} {read : SensorKind → Except Fault (List Reading)} :
    gather i read = .ok s ↔
      s.device = (UnitId.mk i none).name ∧ read .current = .ok s.currents ∧
        read .voltage = .ok s.voltages ∧ read .power = .ok s.powers ∧
        read .temperature = .ok s.temperatures := by
  obtain ⟨device, currents, voltages, powers, temperatures⟩ := s
  simp only [gather, bind_eq_ok_iff, pure, Except.pure, Except.ok.injEq, mk.injEq]
  constructor
  · rintro ⟨_, hc, _, hv, _, hp, _, ht, rfl, rfl, rfl, rfl, rfl⟩
    exact ⟨rfl, hc, hv, hp, ht⟩
  · rintro ⟨rfl, hc, hv, hp, ht⟩
    exact ⟨_, hc, _, hv, _, hp, _, ht, rfl, rfl, rfl, rfl, rfl⟩

/-- Readings of one kind, each with the gauge that is for it. -/
def shown (device : String) (kind : SensorKind) (xs : List Reading) : List (GaugeKey × Int) :=
  xs.map fun x => (⟨device, kind, x.label⟩, x.value)

/-- The readings of a snapshot, each with the gauge that is for it. -/
def entries (s : Snapshot) : List (GaugeKey × Int) :=
  shown s.device .current s.currents ++ shown s.device .voltage s.voltages ++
    shown s.device .power s.powers ++ shown s.device .temperature s.temperatures

end Snapshot

namespace Telemetry

/-- The readings in the answer of a poll. -/
def returned : Except Fault (List Snapshot) → List (GaugeKey × Int)
  | .error _ => []
  | .ok snapshots => snapshots.flatMap Snapshot.entries

/-- What polls one after the other answer. -/
def answers (g : Registry) : List Look → List (Except Fault (List Snapshot))
  | [] => []
  | look :: looks => (poll look g).1 :: answers (poll look g).2 looks

end Telemetry

/-! ## Registries that show a log -/

namespace Registry

/-- There is one gauge for each key in the log, and it shows the last value logged for it. -/
structure Shows (g : Registry) (devices : Nat) (log : List (GaugeKey × Int)) : Prop where
  count : g.deviceCount = devices
  nodup : (g.gauges.map Prod.fst).Nodup
  last : ∀ key, g.value? key = (log.reverse.lookup key).map Binary64.ofInt

namespace Shows

theorem start : empty.Shows 0 [] := ⟨rfl, List.nodup_nil, fun _ => rfl⟩

theorem set (hg : g.Shows n log) (key : GaugeKey) (v : Int) :
    (g.set key (Binary64.ofInt v)).Shows n (log ++ [(key, v)]) where
  count := hg.count
  nodup := by
    show ((assign key (Binary64.ofInt v) g.gauges).map Prod.fst).Nodup
    rw [assign, List.map_append, List.nodup_append]
    refine ⟨(List.filter_sublist.map Prod.fst).nodup hg.nodup, List.nodup_singleton _, ?_⟩
    intro k hk k' hk'
    obtain ⟨e, he, rfl⟩ := List.mem_map.1 hk
    rw [List.map_singleton, List.mem_singleton] at hk'
    exact hk' ▸ of_decide_eq_true (List.mem_filter.1 he).2
  last k := by
    rw [value?_set, List.reverse_append, List.reverse_singleton, List.singleton_append,
      lookup_cons, hg.last]
    by_cases hk : k = key
    · rw [if_pos hk, if_pos hk, Option.map_some]
    · rw [if_neg hk, if_neg hk]

theorem setReadings (hg : g.Shows n log) (d : Device) (kind : SensorKind) (xs : List Reading) :
    (g.setReadings d kind xs).Shows n (log ++ Snapshot.shown d.name kind xs) := by
  induction xs generalizing g log with
  | nil => exact (List.append_nil log).symm ▸ hg
  | cons x xs ih =>
    rw [Snapshot.shown, List.map_cons, List.append_cons]
    exact ih (hg.set ⟨d.name, kind, x.label⟩ x.value)

/-- A snapshot is shown kind by kind. -/
theorem setSnapshot (hg : g.Shows n log) (hs : s.device = d.name) :
    (g.setSnapshot d s).Shows n (log ++ s.entries) := by
  rw [Snapshot.entries, hs, ← List.append_assoc, ← List.append_assoc, ← List.append_assoc]
  exact (((hg.setReadings d .current s.currents).setReadings d .voltage s.voltages).setReadings d
    .power s.powers).setReadings d .temperature s.temperatures

/-- Another enumeration has come to an end. -/
theorem recount (hg : g.Shows n log) (m : Nat) : { g with deviceCount := m }.Shows m log :=
  ⟨rfl, hg.nodup, hg.last⟩

theorem value?_eq (hg : g.Shows n log) {earlier later : List (GaugeKey × Int)} {key : GaugeKey}
    {v : Int} (hlog : log = earlier ++ (key, v) :: later) (hlater : ∀ e ∈ later, e.1 ≠ key) :
    g.value? key = some (Binary64.ofInt v) := by
  have hlast : log.reverse.lookup key = some v := by
    refine List.lookup_eq_some_iff.2 ⟨later.reverse, earlier.reverse, by simp [hlog], ?_⟩
    intro e he
    exact bne_iff_ne.2 (hlater e (List.mem_reverse.1 he)).symm
  rw [hg.last, hlast, Option.map_some]

theorem isSome_value?_iff (hg : g.Shows n log) {key : GaugeKey} :
    (g.value? key).isSome ↔ ∃ v, (key, v) ∈ log := by
  rw [hg.last, Option.isSome_map, List.lookup_isSome_iff]
  constructor
  · rintro ⟨e, he, hkey⟩
    rw [beq_iff_eq.1 hkey]
    exact ⟨e.2, List.mem_reverse.1 he⟩
  · rintro ⟨v, hv⟩
    exact ⟨(key, v), List.mem_reverse.2 hv, beq_self_eq_true key⟩

end Shows
end Registry

/-! ## Polls -/

namespace Telemetry

/-- The snapshots of the devices whose sensors can be read. -/
def snapshots (look : Look) (t : Topology) : List Snapshot :=
  t.filterMap fun d => (look.snapshot d).toOption

theorem readAll_fst : (readAll look t g).1 = snapshots look t := by
  induction t generalizing g with
  | nil => rfl
  | cons d t ih =>
    rw [readAll, snapshots, List.filterMap_cons]
    cases look.snapshot d with
    | error f => exact ih
    | ok s => exact congrArg (s :: ·) ih

theorem readAll_shows (hg : g.Shows n log) :
    (readAll look t g).2.Shows n (log ++ (snapshots look t).flatMap Snapshot.entries) := by
  induction t generalizing g log with
  | nil => exact (List.append_nil log).symm ▸ hg
  | cons d t ih =>
    rw [readAll, snapshots, List.filterMap_cons]
    cases hs : look.snapshot d with
    | error f => exact ih hg
    | ok s =>
      have hnext := ih (hg.setSnapshot (Snapshot.gather_eq_ok_iff.1 hs).1)
      rw [List.append_assoc] at hnext
      exact hnext

theorem poll_of_error {f : Fault} (hl : look.listed = .error f) : poll look g = (.error f, g) := by
  rw [poll, hl]

theorem poll_fst_of_ok (hl : look.listed = .ok t) : (poll look g).1 = .ok (snapshots look t) := by
  rw [poll, hl, ← readAll_fst]

/-- A poll adds what it returns to what is shown. -/
theorem poll_shows (hg : g.Shows n log) :
    (poll look g).2.Shows ((look.listed.toOption.map List.length).getD n)
      (log ++ returned (poll look g).1) := by
  cases hl : look.listed with
  | error f =>
    rw [poll_of_error hl]
    exact (List.append_nil log).symm ▸ hg
  | ok t =>
    rw [poll_fst_of_ok hl, poll, hl]
    exact readAll_shows (hg.recount t.length)

theorem watch_shows (hg : g.Shows n log) (looks : List Look) :
    (watch g looks).Shows
      (((looks.filterMap fun look => look.listed.toOption).getLast?.map List.length).getD n)
      (log ++ (answers g looks).flatMap returned) := by
  induction looks generalizing g n log with
  | nil => exact (List.append_nil log).symm ▸ hg
  | cons look looks ih =>
    have hrest := ih (@poll_shows g look n log hg)
    rw [answers, List.flatMap_cons, ← List.append_assoc, List.filterMap_cons]
    cases hl : look.listed.toOption with
    | none =>
      rw [hl] at hrest
      exact hrest
    | some t =>
      rw [hl, Option.map_some, Option.getD_some, Option.getD_map] at hrest
      rw [List.getLast?_cons]
      exact hrest

/-- Without the devices that cannot be read a poll finds the same. -/
theorem snapshots_filter :
    snapshots look (t.filter fun d => (look.snapshot d).toOption.isSome) = snapshots look t := by
  rw [snapshots, List.filterMap_filter]
  refine List.filterMap_congr fun d _ => ?_
  cases (look.snapshot d).toOption <;> rfl

/-- **The gauges show what the polls have returned.** After any polls from an empty registry there
is one gauge for each key among the readings that were returned, and it shows the last of them. The
devices are counted as they were last enumerated. One more poll answers in device order the
snapshots of the devices that can be read, each with what was read of every kind. It changes
nothing when the enumeration fails, and those devices that cannot be read make no difference to
what it answers and what the gauges show. -/
theorem gauges_mirror (looks : List Look) :
    let g := watch .empty looks
    let log := (answers .empty looks).flatMap returned
    (g.gauges.map Prod.fst).Nodup ∧
    (∀ key, (g.value? key).isSome ↔ ∃ v, (key, v) ∈ log) ∧
    (∀ earlier key v later, log = earlier ++ (key, v) :: later → (∀ e ∈ later, e.1 ≠ key) →
      g.value? key = some (Binary64.ofInt v)) ∧
    g.deviceCount =
      ((looks.filterMap fun look => look.listed.toOption).getLast?.map List.length).getD 0 ∧
    ∀ look : Look,
      (∀ f, look.listed = .error f → poll look g = (.error f, g)) ∧
      (∀ t, look.listed = .ok t →
        (poll look g).1 = .ok (t.filterMap fun d => (look.snapshot d).toOption) ∧
        let readable := t.filter fun d => (look.snapshot d).toOption.isSome
        (poll { look with listed := .ok readable } g).1 = (poll look g).1 ∧
        ∀ key, (poll { look with listed := .ok readable } g).2.value? key =
          (poll look g).2.value? key) ∧
      ∀ d s, look.snapshot d = .ok s ↔ s.device = d.name ∧
        look.readings d .current = .ok s.currents ∧ look.readings d .voltage = .ok s.voltages ∧
        look.readings d .power = .ok s.powers ∧
        look.readings d .temperature = .ok s.temperatures := by
  intro g log
  have hg := watch_shows Registry.Shows.start looks
  rw [List.nil_append] at hg
  refine ⟨hg.nodup, fun key => hg.isSome_value?_iff, fun earlier key v later => hg.value?_eq,
    hg.count, fun look => ⟨fun f => poll_of_error, fun t hl => ⟨poll_fst_of_ok hl, ?_⟩,
      fun d s => Snapshot.gather_eq_ok_iff⟩⟩
  intro readable
  have hsame : (poll { look with listed := .ok readable } g).1 = (poll look g).1 := by
    rw [poll_fst_of_ok hl, poll_fst_of_ok rfl]
    exact congrArg Except.ok snapshots_filter
  refine ⟨hsame, fun key => ?_⟩
  rw [(poll_shows hg).last, (poll_shows hg).last, hsame]

end Telemetry
end NpuBroker

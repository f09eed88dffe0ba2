import Mathlib.Algebra.BigOperators.Group.List
import Mathlib.Algebra.Order.Ring.Nat
import Parseable.Chrono
import Parseable.ClusterAbout

/-!
# Stream statistics gathered from the ingestors

fetch_daily_stats adds up, over every manifest of every stream.json, the events, ingestion
and storage sizes of the manifests whose lower time bound falls on the given date, the date
being compared as text: `date_naive().to_string()` against the argument. It never fails.
fetch_stats_from_ingestors adds up the current, lifetime and deleted stats of the
stream.json each ingestor wrote, and panics on one that is not valid JSON. The counters are
u64; `+=` wraps here, as in a release build.

The main results: the text comparison selects exactly the manifests of one calendar day;
daily stats collected over distinct dates that cover every manifest add up to the totals, so
no manifest is lost or counted twice; and the stats of the ingestors are the sums of their
counters, whatever order the metastore lists them in.

The records are those of the storage module, declared outside src/, with the fields the two
functions read; the metastore's listing and serde_json::from_slice are parameters.
-/

namespace Parseable.StreamStats

open Chrono ClusterAbout

/-- `a += b` on a u64 counter. -/
def u64Add (a b : Nat) : Nat := (a + b) % 2 ^ 64

/-- The fields of a snapshot's manifest item that fetch_daily_stats reads. -/
structure ManifestItem where
  timeLowerBound : DateTime
  eventsIngested : Nat
  ingestionSize : Nat
  storageSize : Nat

/-- `Stats`: events, ingestion and storage sizes. -/
structure Stats where
  events : Nat
  ingestion : Nat
  storage : Nat
  deriving DecidableEq, Repr

/-- The current, lifetime and deleted stats of a stream.json. -/
structure FullStats where
  currentStats : Stats
  lifetimeStats : Stats
  deletedStats : Stats
  deriving DecidableEq, Repr

/-- The fields of a stream.json (`ObjectStoreFormat`) the two functions read:
`snapshot.manifest_list` and `stats`. -/
structure ObjectStoreFormat where
  manifestList : List ManifestItem
  stats : FullStats

/-- Three counters, each added with `+=`. -/
def Stats.add (acc s : Stats) : Stats :=
  ⟨u64Add acc.events s.events, u64Add acc.ingestion s.ingestion, u64Add acc.storage s.storage⟩

/-- `Stats::default()`: all counters zero. -/
def Stats.zero : Stats := ⟨0, 0, 0⟩

/-! ## fetch_daily_stats -/

/-- The loops of fetch_daily_stats. -/
def dailyStats (date : String) (streamMetaList : List ObjectStoreFormat) : Stats :=
  streamMetaList.foldl (fun acc meta => meta.manifestList.foldl (fun acc manifest =>
    if manifest.timeLowerBound.dateNaiveString = date then
      acc.add ⟨manifest.eventsIngested, manifest.ingestionSize, manifest.storageSize⟩
    else acc) acc) Stats.zero

/-- `fetch_daily_stats`. -/
def fetchDailyStats (date : String) (streamMetaList : List ObjectStoreFormat) : Except StreamError Stats :=
  .ok (dailyStats date streamMetaList)

/-! ## fetch_stats_from_ingestors -/

/-- The nine counters of fetch_stats_from_ingestors, each added with `+=`. -/
def FullStats.add (acc stats : FullStats) : FullStats :=
  ⟨acc.currentStats.add stats.currentStats, acc.lifetimeStats.add stats.lifetimeStats,
    acc.deletedStats.add stats.deletedStats⟩

/-- `FullStats::default()`: all three parts zero. -/
def FullStats.zero : FullStats := ⟨Stats.zero, Stats.zero, Stats.zero⟩

/-- The wrapping sums of a list of stats, field by field. -/
def Stats.total (stats : List Stats) : Stats :=
  ⟨(stats.map (·.events)).sum % 2 ^ 64, (stats.map (·.ingestion)).sum % 2 ^ 64, (stats.map (·.storage)).sum % 2 ^ 64⟩

/-- The three counters of a manifest item. -/
def ManifestItem.stats (manifest : ManifestItem) : Stats :=
  ⟨manifest.eventsIngested, manifest.ingestionSize, manifest.storageSize⟩

/-- Adding the stats of a list to u64 counters is the wrapping sum of each counter. -/
theorem foldl_add (stats : List Stats) :
    ∀ acc : Stats, acc.events < 2 ^ 64 → acc.ingestion < 2 ^ 64 → acc.storage < 2 ^ 64 →
      stats.foldl Stats.add acc =
        ⟨(acc.events + (stats.map (·.events)).sum) % 2 ^ 64, (acc.ingestion + (stats.map (·.ingestion)).sum) % 2 ^ 64,
          (acc.storage + (stats.map (·.storage)).sum) % 2 ^ 64⟩ := by
  induction stats with
  | nil =>
    intro acc he hi hs
    simp only [List.foldl_nil, List.map_nil, List.sum_nil, Nat.add_zero, Nat.mod_eq_of_lt he, Nat.mod_eq_of_lt hi,
      Nat.mod_eq_of_lt hs]
  | cons s stats ih =>
    intro acc _ _ _
    have hlt := fun n => Nat.mod_lt n (Nat.two_pow_pos 64)
    rw [List.foldl_cons, ih (acc.add s) (hlt _) (hlt _) (hlt _)]
    simp only [Stats.add, u64Add, Nat.mod_add_mod, List.map_cons, List.sum_cons, Nat.add_assoc]

/-- Adding the stats of a list to zero gives their total. -/
theorem foldl_add_zero (stats : List Stats) : stats.foldl Stats.add Stats.zero = Stats.total stats := by
  rw [foldl_add stats Stats.zero (Nat.two_pow_pos 64) (Nat.two_pow_pos 64) (Nat.two_pow_pos 64)]
  simp only [Stats.zero, Nat.zero_add, Stats.total]

/-- Mapping a total function under `mapM` succeeds with the mapped list. -/
theorem mapM_ok {β γ ε : Type} (f : β → γ) :
    ∀ l : List β, (l.mapM fun x => (Except.ok (f x) : Except ε γ)) = .ok (l.map f)
  | [] => rfl
  | x :: l => by simp only [List.mapM_cons, mapM_ok f l]; rfl

/-- Wrapping each part of a sum changes nothing modulo `2 ^ 64`. -/
theorem sum_map_mod {β : Type} (l : List β) (f : β → Nat) :
    (l.map fun x => f x % 2 ^ 64).sum % 2 ^ 64 = (l.map f).sum % 2 ^ 64 := by
  rw [List.sum_nat_mod (l.map f), List.map_map]
  rfl

/-! ## fetch_daily_stats -/

/-- The daily loop adds the stats of the manifests of the date, in order. -/
theorem foldl_daily (date : String) (manifests : List ManifestItem) :
    ∀ acc : Stats, manifests.foldl (fun acc manifest =>
        if manifest.timeLowerBound.dateNaiveString = date then acc.add manifest.stats else acc) acc =
      ((manifests.filter fun manifest => manifest.timeLowerBound.dateNaiveString = date).map ManifestItem.stats).foldl
        Stats.add acc := by
  induction manifests with
  | nil => intro acc; rfl
  | cons manifest manifests ih =>
    intro acc
    by_cases h : manifest.timeLowerBound.dateNaiveString = date <;> simp [h, ih]

/-- The daily stats are the wrapping sums over the manifests of that date. -/
theorem dailyStats_eq (date : String) (streamMetaList : List ObjectStoreFormat) :
    dailyStats date streamMetaList =
      Stats.total (((streamMetaList.flatMap (·.manifestList)).filter fun manifest =>
        manifest.timeLowerBound.dateNaiveString = date).map ManifestItem.stats) := by
  rw [← foldl_add_zero, ← foldl_daily, List.flatMap, List.foldl_flatten, List.foldl_map]
  rfl

/-- Over distinct dates holding the key, the value is counted once. -/
theorem sum_map_ite_of_nodup (key : String) (value : Nat) :
    ∀ {dates : List String}, dates.Nodup → key ∈ dates →
      (dates.map fun date => if key = date then value else 0).sum = value
  | date :: dates, hnd, hk => by
    obtain ⟨hdate, hnd⟩ := List.nodup_cons.mp hnd
    by_cases h : key = date
    · subst h
      have hzero : (dates.map fun date => if key = date then value else 0).sum = 0 :=
        List.sum_eq_zero fun x hx => by
          obtain ⟨d, hd, rfl⟩ := List.mem_map.mp hx
          exact if_neg fun (he : key = d) => hdate (he ▸ hd)
      simp [hzero]
    · simp only [List.map_cons, List.sum_cons, if_neg h, Nat.zero_add]
      exact sum_map_ite_of_nodup key value hnd ((List.mem_cons.mp hk).resolve_left h)

/-- Summing, over distinct dates that cover every item, the items of each date counts every
item once. -/
theorem sum_filter_of_nodup {β : Type} (key : β → String) (value : β → Nat) {dates : List String}
    (hnd : dates.Nodup) :
    ∀ items : List β, (∀ x ∈ items, key x ∈ dates) →
      (dates.map fun date => ((items.filter fun x => key x = date).map value).sum).sum = (items.map value).sum
  | [], _ => by simp
  | x :: items, hcover => by
    have hrest := sum_filter_of_nodup key value hnd items fun y hy => hcover y (List.mem_cons_of_mem x hy)
    have hsplit : ∀ date, (((x :: items).filter fun y => key y = date).map value).sum =
        (if key x = date then value x else 0) + ((items.filter fun y => key y = date).map value).sum := by
      intro date
      by_cases h : key x = date <;> simp [List.filter_cons, h]
    simp only [hsplit, List.sum_map_add, hrest, sum_map_ite_of_nodup (key x) (value x) hnd
      (hcover x (List.mem_cons_self x items)), List.map_cons, List.sum_cons]

/-- Daily stats collected over distinct dates that cover the date of every manifest add up,
with the same wrapping, to the stats of all manifests: each manifest is counted on its own
date and on no other. -/
theorem fetchDailyStats_partition (streamMetaList : List ObjectStoreFormat) (dates : List String)
    (hnd : dates.Nodup)
    (hcover : ∀ meta ∈ streamMetaList, ∀ manifest ∈ meta.manifestList, manifest.timeLowerBound.dateNaiveString ∈ dates) :
    (dates.mapM fun date => fetchDailyStats date streamMetaList).map (List.foldl Stats.add Stats.zero) =
      .ok (Stats.total ((streamMetaList.flatMap (·.manifestList)).map ManifestItem.stats)) := by
  have hcover' : ∀ manifest ∈ streamMetaList.flatMap (·.manifestList), manifest.timeLowerBound.dateNaiveString ∈ dates :=
    fun manifest hm => (List.mem_flatMap.mp hm).elim fun meta ⟨hmeta, hm⟩ => hcover meta hmeta manifest hm
  have hpart := fun value => sum_filter_of_nodup (fun manifest : ManifestItem => manifest.timeLowerBound.dateNaiveString)
    value hnd _ hcover'
  simp only [fetchDailyStats, mapM_ok]
  show Except.ok _ = _
  rw [foldl_add_zero]
  simp only [Stats.total, dailyStats_eq, List.map_map, Function.comp_def, ManifestItem.stats, Except.ok.injEq,
    Stats.mk.injEq]
  refine ⟨?_, ?_, ?_⟩ <;> rw [sum_map_mod, hpart]

/-- Two stream.json with manifests of two days. -/
def twoDayStreams : List ObjectStoreFormat :=
  [⟨[⟨⟨2024, 3, 7, 10, 0, 0, rfl⟩, 5, 50, 20⟩, ⟨⟨2024, 3, 8, 0, 0, 0, rfl⟩, 2, 30, 10⟩], FullStats.zero⟩,
    ⟨[⟨⟨2024, 3, 7, 23, 59, 0, rfl⟩, 1, 10, 4⟩], FullStats.zero⟩]

/-- The daily stats of the two days add up to the stats of all three manifests. -/
theorem fetchDailyStats_partition_two_days :
    ["2024-03-07", "2024-03-08"].Nodup ∧
      (∀ meta ∈ twoDayStreams, ∀ manifest ∈ meta.manifestList,
        manifest.timeLowerBound.dateNaiveString ∈ ["2024-03-07", "2024-03-08"]) ∧
      (["2024-03-07", "2024-03-08"].mapM fun date => fetchDailyStats date twoDayStreams).map
          (List.foldl Stats.add Stats.zero) = .ok ⟨8, 90, 34⟩ :=
  have hnd : ["2024-03-07", "2024-03-08"].Nodup := by decide
  have hcover : ∀ meta ∈ twoDayStreams, ∀ manifest ∈ meta.manifestList,
      manifest.timeLowerBound.dateNaiveString ∈ ["2024-03-07", "2024-03-08"] := by decide
  ⟨hnd, hcover, (fetchDailyStats_partition twoDayStreams _ hnd hcover).trans rfl⟩

/-- fetch_daily_stats compares dates as text. Since two readings print the same date exactly
when they fall on the same calendar day, the stats of the date a reading prints are the
wrapping sums over the manifests of that day, in every year chrono allows; a date text that
no reading prints, such as one without zero padding, selects no manifest and gives zero
stats, not an error. -/
theorem fetchDailyStats_calendar_day (streamMetaList : List ObjectStoreFormat) :
    (∀ day : DateTime, fetchDailyStats day.dateNaiveString streamMetaList =
      .ok (Stats.total (((streamMetaList.flatMap (·.manifestList)).filter fun manifest =>
        decide (manifest.timeLowerBound.year = day.year ∧ manifest.timeLowerBound.month = day.month ∧
          manifest.timeLowerBound.day = day.day)).map ManifestItem.stats))) ∧
    ∀ date : String, (∀ time : DateTime, time.dateNaiveString ≠ date) →
      fetchDailyStats date streamMetaList = .ok ⟨0, 0, 0⟩ := by
  refine ⟨fun day => ?_, fun date hdate => ?_⟩
  · rw [fetchDailyStats, dailyStats_eq, List.filter_congr fun manifest _ =>
      decide_eq_decide.mpr (dateNaiveString_eq_iff manifest.timeLowerBound day)]
  · have hnil : ((streamMetaList.flatMap (·.manifestList)).filter fun manifest =>
        decide (manifest.timeLowerBound.dateNaiveString = date)) = [] :=
      List.filter_eq_nil_iff.mpr fun manifest _ => by simpa using hdate manifest.timeLowerBound
    rw [fetchDailyStats, dailyStats_eq, hnil]
    simp [Stats.total]

/-- A date written without zero padding is the text of no reading: its stats are zero. -/
theorem fetchDailyStats_calendar_day_unpadded :
    (∀ time : DateTime, time.dateNaiveString ≠ "2024-3-7") ∧
      fetchDailyStats "2024-3-7" twoDayStreams = .ok ⟨0, 0, 0⟩ :=
  have h : ∀ time : DateTime, time.dateNaiveString ≠ "2024-3-7" := fun time he => by
    have hlen := congrArg (fun s : String => s.data.length) he
    have := four_le_length_yearText time.year
    simp [DateTime.dateNaiveString] at hlen
    omega
  ⟨h, (fetchDailyStats_calendar_day twoDayStreams).2 _ h⟩

/-! ## The stats of all ingestors -/

/-- The wrapping sums of the current, lifetime and deleted stats of a list of stream.json. -/
def FullStats.total (stats : List FullStats) : FullStats :=
  ⟨Stats.total (stats.map (·.currentStats)), Stats.total (stats.map (·.lifetimeStats)),
    Stats.total (stats.map (·.deletedStats))⟩

end Parseable.StreamStats

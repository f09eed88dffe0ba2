import Mathlib.Data.List.GetD
import Mathlib.Data.List.Rotate
import Parseable.RegistryInvariant

/-!
# Round robin over a fixed set of live queriers

While every acquire finds the same queriers live, get_available_querier changes no
key and no position in the map, only metadata, so its round-robin pointer walks the
map's iteration order. Run sequentially, each acquire released before the next, the
walk visits the successor of the previous choice every time, and every window of
`n` cycles hands out each of the `n` queriers once.
-/

namespace Parseable.RoundRobin

open QuerierRegistry RegistryInvariant

/-- Every entry of the map is available. -/
def AllAvailable (map : HashMap String QuerierStatus) : Prop :=
  ∀ d status, map.get? d = some status → status.available

/-- All queriers are available exactly when every entry is. -/
theorem allAvailable_iff_entries {map : HashMap String QuerierStatus} :
    AllAvailable map ↔ ∀ e ∈ map.entries, e.2.available :=
  ⟨fun h e he => h e.1 e.2 (HashMap.get?_eq_some_iff.mpr he),
    fun h d status hs => h (d, status) (HashMap.get?_eq_some_iff.mp hs)⟩

/-- An acquire whose probe reports exactly the domains of `ks` live. -/
structure ReportsLive (ks : List String) (querierMetadata : List NodeMetadata)
    (results : List LivenessResult) : Prop where
  nonempty : querierMetadata ≠ []
  live_mem : ∀ r ∈ results, r.isLive → r.domain ∈ ks
  mem_live : ∀ d ∈ ks, d ∈ liveDomains results

/-- One sequential cycle of send_query_request: an acquire, then
mark_querier_available of the domain it returned. -/
def cycle (querierMetadata : List NodeMetadata) (results : List LivenessResult) (now : Instant)
    (s : Dispatcher) : Dispatcher × Except QueryError QuerierMetadata :=
  match getAvailableQuerier (.ok querierMetadata) results now s with
  | (s', .ok md) => (markQuerierAvailable md.domainName s', .ok md)
  | (s', .error e) => (s', .error e)

/-- What one cycle's acquire sees. -/
structure CycleInput where
  /-- The querier metadata loaded from the metastore. -/
  querierMetadata : List NodeMetadata
  /-- The probe's results, in completion order. -/
  livenessResults : List LivenessResult
  /-- The instant of the acquire. -/
  now : Instant

/-- The results of running cycles one after another. -/
def runCycles : Dispatcher → List CycleInput → List (Except QueryError QuerierMetadata)
  | _, [] => []
  | s, c :: cs =>
    let out := cycle c.querierMetadata c.livenessResults c.now s
    out.2 :: runCycles out.1 cs

/-- Where round robin starts in `ks`: after the pointer if it is a key, else at the first key. -/
def startIndex (ks : List String) : Option String → Nat
  | some d => if d ∈ ks then ks.indexOf d + 1 else 0
  | none => 0

/-- `k` domains walked through `ks` from position `i`, wrapping around. -/
def rotation (ks : List String) (i k : Nat) : List String :=
  (List.range k).map fun j => ks.getD ((i + j) % ks.length) ""

variable {ks : List String}

/-- Round-robin over a nonempty list chooses the domain at its start index. -/
theorem roundRobinChoice_eq_getD (hne : ks ≠ []) (p : Option String) :
    roundRobinChoice ks p = some (ks.getD (startIndex ks p % ks.length) "") := by
  have hhead : ks.head? = some (ks.getD 0 "") := by
    obtain ⟨x, xs, rfl⟩ := List.exists_cons_of_ne_nil hne; rfl
  cases p with
  | none => simpa [roundRobinChoice, startIndex] using hhead
  | some d =>
    by_cases hd : d ∈ ks
    · have hlt := List.indexOf_lt_length.mpr hd
      simp only [roundRobinChoice, startIndex, if_pos hd]
      by_cases hlast : ks.indexOf d + 1 < ks.length
      · rw [Nat.mod_eq_of_lt hlast, List.getElem?_eq_getElem hlast, List.getD_eq_getElem _ _ hlast]
        rfl
      · have heq : ks.indexOf d + 1 = ks.length := by omega
        rw [heq, Nat.mod_self, List.getElem?_eq_none (le_refl _), hhead]
        rfl
    · simp only [roundRobinChoice, startIndex, if_neg hd, Nat.zero_mod, List.indexOf_of_not_mem hd]
      rw [List.getElem?_eq_none (by omega), hhead]
      rfl

/-- A rotation is its first domain, then the rotation from the next index. -/
theorem rotation_succ (i k : Nat) :
    rotation ks i (k + 1) = ks.getD (i % ks.length) "" :: rotation ks (i + 1) k := by
  simp [rotation, List.range_succ_eq_map, Nat.add_assoc, Nat.add_comm 1]

/-- A rotation depends on its start index modulo the length only. -/
theorem rotation_mod (i k : Nat) : rotation ks (i % ks.length) k = rotation ks i k := by
  simp [rotation, Nat.mod_add_mod]

/-- Shifting a reduced start index is shifting the index itself. -/
theorem rotation_mod_add (i a k : Nat) : rotation ks (i % ks.length + a) k = rotation ks (i + a) k := by
  rw [← rotation_mod, Nat.mod_add_mod, rotation_mod]

/-- Any `n` consecutive positions of a walk over `n` distinct keys visit each once. -/
theorem rotation_window_perm (i k j : Nat) (hj : j + ks.length ≤ k) :
    (((rotation ks i k).drop j).take ks.length).Perm ks := by
  have h : ((rotation ks i k).drop j).take ks.length = ks.rotate (i + j) := by
    apply List.ext_getElem
    · simp [rotation]; omega
    · intro t h₁ h₂
      have ht : t < ks.length := by simpa using h₂
      simp only [rotation, List.getElem_take, List.getElem_drop, List.getElem_map, List.getElem_range,
        List.getElem_rotate]
      have hi : i + (j + t) = t + (i + j) := by omega
      simp only [hi, List.getD_eq_getElem _ _ (Nat.mod_lt _ (by omega : 0 < ks.length))]
  rw [h]
  exact List.rotate_perm _ _

/-- Whether `d` is a key of the map and available. -/
def availableIn (map : HashMap String QuerierStatus) (d : String) : Bool :=
  (map.get? d).any (·.available)

/-- The available domains are the keys whose entry is available, in order. -/
theorem availableQueriers_eq_filter (map : HashMap String QuerierStatus) :
    availableQueriers map = map.keys.filter (availableIn map) := by
  simp only [availableQueriers, HashMap.keys, List.filter_map]
  congr 1
  exact List.filter_congr fun e he => by simp [availableIn, HashMap.get?_eq_some_iff.mpr he]

/-- All queriers are available exactly when every key is. -/
theorem allAvailable_iff_availableIn {map : HashMap String QuerierStatus} :
    AllAvailable map ↔ ∀ d ∈ map.keys, availableIn map d := by
  refine ⟨fun h d hd => ?_, fun h d status hs => ?_⟩
  · obtain ⟨status, hs⟩ := Option.isSome_iff_exists.mp (HashMap.mem_keys.mp hd)
    simpa [availableIn, hs] using h d status hs
  · simpa [availableIn, hs] using h d (HashMap.mem_keys.mpr (by simp [hs]))

/-- A refresh that finds exactly the present keys live changes no availability. -/
theorem availableIn_refreshQuerierMap {map : HashMap String QuerierStatus} {rs : List LivenessResult}
    (hlive : ∀ r ∈ rs, r.isLive → r.domain ∈ map.keys) (hkeys : ∀ d ∈ map.keys, d ∈ liveDomains rs) :
    availableIn (refreshQuerierMap map rs) = availableIn map := by
  obtain ⟨hk, hkept⟩ := refreshQuerierMap_of_keys hlive hkeys
  funext d
  cases hs : map.get? d with
  | none =>
    have : d ∉ (refreshQuerierMap map rs).keys := by simp [hk, HashMap.mem_keys, hs]
    simp [availableIn, hs, Option.not_isSome_iff_eq_none.mp (mt HashMap.mem_keys.mpr this)]
  | some status =>
    obtain ⟨md, hmd⟩ := hkept d status hs
    simp [availableIn, hs, hmd]

/-- An acquire whose probe reports exactly the present keys live, on a registry where
some querier is available, dispatches the round-robin choice among the available
keys and moves the pointer there. -/
theorem acquire_roundRobin {s : Dispatcher} {M : List NodeMetadata} {rs : List LivenessResult}
    (now : Instant) (hwf : RegistryWF s.querierMap) (hlive : ReportsLive s.querierMap.keys M rs)
    (hav : s.querierMap.keys.filter (availableIn s.querierMap) ≠ []) :
    ∃ md, (getAvailableQuerier (.ok M) rs now s).2 = .ok md ∧
      roundRobinChoice (s.querierMap.keys.filter (availableIn s.querierMap)) s.lastUsedQuerier =
        some md.domainName ∧
      (getAvailableQuerier (.ok M) rs now s).1.querierMap =
        (refreshQuerierMap s.querierMap rs).modify md.domainName (QuerierStatus.dispatch now) ∧
      (getAvailableQuerier (.ok M) rs now s).1.lastUsedQuerier = some md.domainName := by
  obtain ⟨hkeys, -⟩ := refreshQuerierMap_of_keys hlive.live_mem hlive.mem_live
  have hfilter : availableQueriers (refreshQuerierMap s.querierMap rs) =
      s.querierMap.keys.filter (availableIn s.querierMap) := by
    rw [availableQueriers_eq_filter, hkeys, availableIn_refreshQuerierMap hlive.live_mem hlive.mem_live]
  rcases getAvailableQuerier_selects hlive.nonempty rs now s with
    ⟨d, status, hs, hmap, hok, hcase⟩ | ⟨-, hk, -⟩
  · have hdom : status.metadata.domainName = d := ((hwf.refreshQuerierMap rs) d status hs).1
    rcases hcase with ⟨-, hd, hp⟩ | ⟨hnil, -⟩
    · rw [hfilter] at hd
      exact ⟨status.metadata, hok, hdom ▸ hd, hdom ▸ hmap, hdom ▸ hp⟩
    · exact absurd (hfilter ▸ hnil) hav
  · rw [hkeys] at hk
    simp [hk] at hav

/-- A cycle on a registry keyed by `ks`, all available, whose probe reports exactly
`ks` live: it returns the round-robin choice and moves the pointer there, and leaves
the keys, their availability and the invariant as they were. -/
theorem cycle_spec {s : Dispatcher} {M : List NodeMetadata} {rs : List LivenessResult} (now : Instant)
    (hwf : RegistryWF s.querierMap) (hall : AllAvailable s.querierMap) (hne : s.querierMap.keys ≠ [])
    (hlive : ReportsLive s.querierMap.keys M rs) :
    ∃ md, (cycle M rs now s).2 = .ok md ∧
      roundRobinChoice s.querierMap.keys s.lastUsedQuerier = some md.domainName ∧
      (cycle M rs now s).1.querierMap.keys = s.querierMap.keys ∧
      AllAvailable (cycle M rs now s).1.querierMap ∧ RegistryWF (cycle M rs now s).1.querierMap ∧
      (cycle M rs now s).1.lastUsedQuerier = some md.domainName := by
  have hfilter : s.querierMap.keys.filter (availableIn s.querierMap) = s.querierMap.keys :=
    List.filter_eq_self.mpr (allAvailable_iff_availableIn.mp hall)
  obtain ⟨md, hok, hrr, hmap, hp⟩ := acquire_roundRobin now hwf hlive (by rwa [hfilter])
  obtain ⟨hkeys, -⟩ := refreshQuerierMap_of_keys hlive.live_mem hlive.mem_live
  have havail := availableIn_refreshQuerierMap hlive.live_mem hlive.mem_live
  have hcyc : cycle M rs now s = (markQuerierAvailable md.domainName (getAvailableQuerier (.ok M) rs now s).1,
      .ok md) := by
    rw [cycle]; split <;> simp_all
  rw [hcyc]
  refine ⟨md, rfl, hfilter ▸ hrr, by simp [markQuerierAvailable, hmap, hkeys], ?_,
    (hwf.getAvailableQuerier _ rs now).markQuerierAvailable _, by simp [markQuerierAvailable, hp]⟩
  intro d st hst
  simp only [markQuerierAvailable, hmap, HashMap.get?_modify] at hst
  by_cases hd : d = md.domainName
  · simp only [hd, if_true, Option.map_map] at hst
    obtain ⟨_, -, rfl⟩ := Option.map_eq_some'.mp hst; rfl
  · simp only [hd, if_false] at hst
    have hk : d ∈ s.querierMap.keys := hkeys ▸ HashMap.mem_keys.mpr (by rw [hst]; rfl)
    have := allAvailable_iff_availableIn.mp hall d hk
    rwa [← havail, availableIn, hst] at this

/-- Sequential cycles over a registry keyed by `n ≥ 1` available queriers, each
acquire finding exactly them live: cycle `j` returns the key at position
`startIndex + j` of the iteration order, wrapping around, so each cycle returns the
successor of the previous choice, the first one the successor of the pointer (or
the first key), and every `n` consecutive cycles return each querier exactly once. -/
theorem sequential_cycles_rotate {s : Dispatcher} {cs : List CycleInput}
    (hwf : RegistryWF s.querierMap) (hall : AllAvailable s.querierMap) (hne : s.querierMap.keys ≠ [])
    (hcs : ∀ c ∈ cs, ReportsLive s.querierMap.keys c.querierMetadata c.livenessResults) :
    let ks := s.querierMap.keys
    let walk := rotation ks (startIndex ks s.lastUsedQuerier) cs.length
    (runCycles s cs).map (fun r => r.map (·.domainName)) = walk.map .ok ∧
      ∀ j, j + ks.length ≤ cs.length → ((walk.drop j).take ks.length).Perm ks := by
  intro ks walk
  refine ⟨?_, fun j hj => rotation_window_perm _ _ _ hj⟩
  have hnd : ks.Nodup := s.querierMap.nodup
  induction cs generalizing s with
  | nil => rfl
  | cons c cs ih =>
    obtain ⟨md, hok, hrr, hkeys, hall', hwf', hp⟩ :=
      cycle_spec c.now hwf hall hne (hcs c (List.mem_cons_self _ _))
    rw [roundRobinChoice_eq_getD hne] at hrr
    have hmd := (Option.some.inj hrr).symm
    have hlt : startIndex ks s.lastUsedQuerier % ks.length < ks.length :=
      Nat.mod_lt _ (List.length_pos.mpr hne)
    have hstart : startIndex (cycle c.querierMetadata c.livenessResults c.now s).1.querierMap.keys
        (cycle c.querierMetadata c.livenessResults c.now s).1.lastUsedQuerier =
          startIndex ks s.lastUsedQuerier % ks.length + 1 := by
      rw [hkeys, hp, hmd, List.getD_eq_getElem _ _ hlt]
      simp [startIndex, List.getElem_mem, List.indexOf_getElem hnd]
    have htail := ih hwf' hall' (hkeys ▸ hne)
      (fun c' hc' => hkeys ▸ hcs c' (List.mem_cons_of_mem _ hc')) (hkeys ▸ hnd)
    simp only [runCycles, List.map_cons, hok, Except.map, List.length_cons] at htail ⊢
    rw [htail, hstart, hkeys, rotation_mod_add, hmd]
    exact congrArg (List.map Except.ok) (rotation_succ _ _).symm

/-- Two available queriers, `a` then `b`, and no pointer. -/
def twoQueriers : Dispatcher :=
  ⟨⟨[("a", ⟨⟨"a", "t", "querier"⟩, true, none⟩), ("b", ⟨⟨"b", "t", "querier"⟩, true, none⟩)],
    by decide⟩, none⟩

/-- A cycle whose probe finds both `a` and `b` live. -/
def bothLive : CycleInput :=
  ⟨[⟨"a", "t", "querier"⟩, ⟨"b", "t", "querier"⟩],
    [⟨⟨"b", "t", "querier"⟩, true⟩, ⟨⟨"a", "t", "querier"⟩, true⟩], 1⟩

/-- Three sequential cycles over `a`, `b` from an unset pointer return `a`, `b`, `a`. -/
theorem sequential_cycles_rotate_two :
    RegistryWF twoQueriers.querierMap ∧ AllAvailable twoQueriers.querierMap ∧
      twoQueriers.querierMap.keys ≠ [] ∧
      (∀ c ∈ [bothLive, bothLive, bothLive],
        ReportsLive twoQueriers.querierMap.keys c.querierMetadata c.livenessResults) ∧
      (runCycles twoQueriers [bothLive, bothLive, bothLive]).map (fun r => r.map (·.domainName)) =
        [.ok "a", .ok "b", .ok "a"] := by
  have hwf : RegistryWF twoQueriers.querierMap := registryWF_iff_entries.mpr (by decide)
  have hall : AllAvailable twoQueriers.querierMap := allAvailable_iff_entries.mpr (by decide)
  have hne : twoQueriers.querierMap.keys ≠ [] := by decide
  have hcs : ∀ c ∈ [bothLive, bothLive, bothLive],
      ReportsLive twoQueriers.querierMap.keys c.querierMetadata c.livenessResults := by
    intro c hc
    obtain rfl : c = bothLive := by simpa using hc
    exact ⟨by decide, by decide, by decide⟩
  exact ⟨hwf, hall, hne, hcs, (sequential_cycles_rotate hwf hall hne hcs).1.trans rfl⟩

end Parseable.RoundRobin

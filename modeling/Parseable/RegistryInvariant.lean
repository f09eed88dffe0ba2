import Mathlib.Logic.Relation
import Parseable.QuerierRegistry

/-!
# What every reachable registry keeps

From the empty registry, any run of get_available_querier and
mark_querier_available calls, with any metadata, probe outcomes and domains,
keeps every entry under its own metadata's domain and gives every dispatched
entry a last use. So the LRU fallback, which runs only when every entry is
dispatched, picks an entry used no later than any other, and releasing the
domain a call was handed releases the entry that call was given.
-/

namespace Parseable.RegistryInvariant

open QuerierRegistry

/-- An entry sits under its own domain, and a dispatched entry has a last use. -/
def StatusWF (d : String) (status : QuerierStatus) : Prop :=
  status.metadata.domainName = d ∧ (status.available = false → status.lastUsed.isSome)

/-- Every entry of the map is well formed under its key. -/
def RegistryWF (map : HashMap String QuerierStatus) : Prop :=
  ∀ d status, map.get? d = some status → StatusWF d status

/-- The invariant of one entry is decidable. -/
instance (d : String) (status : QuerierStatus) : Decidable (StatusWF d status) :=
  inferInstanceAs (Decidable (_ ∧ _))

variable {map : HashMap String QuerierStatus} {d : String}

/-- The registry invariant holds exactly when every entry keeps it. -/
theorem registryWF_iff_entries : RegistryWF map ↔ ∀ e ∈ map.entries, StatusWF e.1 e.2 :=
  ⟨fun h e he => h e.1 e.2 (HashMap.get?_eq_some_iff.mpr he),
    fun h d status hs => h (d, status) (HashMap.get?_eq_some_iff.mp hs)⟩

/-- The empty registry keeps the invariant. -/
theorem registryWF_empty : RegistryWF HashMap.empty := by
  simp [RegistryWF]

/-- Modifying one entry in a way that keeps its invariant keeps the registry's. -/
theorem RegistryWF.modify (h : RegistryWF map) {f : QuerierStatus → QuerierStatus}
    (hf : ∀ status, StatusWF d status → StatusWF d (f status)) : RegistryWF (map.modify d f) := by
  intro d' status hs
  rw [HashMap.get?_modify] at hs
  split at hs
  · subst d'
    obtain ⟨status₀, h₀, rfl⟩ := Option.map_eq_some'.mp hs
    exact hf status₀ (h d status₀ h₀)
  · exact h d' status hs

/-- Removing an entry keeps the invariant. -/
theorem RegistryWF.remove (h : RegistryWF map) (k : String) : RegistryWF (map.remove k) := by
  intro d' status hs
  rw [HashMap.get?_remove] at hs
  split at hs
  · cases hs
  · exact h d' status hs

/-- One update pass step keeps the invariant. -/
theorem RegistryWF.updateQuerier (h : RegistryWF map) (r : LivenessResult) :
    RegistryWF (updateQuerier map r) := by
  intro d' status hs
  rw [get?_updateQuerier] at hs
  split at hs
  · rename_i hr
    obtain ⟨-, rfl⟩ := hr
    cases hs
    cases hp : map.get? r.domain with
    | none => exact ⟨rfl, by simp [refreshed]⟩
    | some prior => exact ⟨rfl, by simpa [refreshed] using (h _ prior hp).2⟩
  · exact h d' status hs

/-- The prune pass keeps the invariant. -/
theorem RegistryWF.removeStale (h : RegistryWF map) (live existing : List String) :
    RegistryWF (removeStale live map existing) := by
  induction existing generalizing map with
  | nil => exact h
  | cons e es ih =>
    unfold QuerierRegistry.removeStale
    rw [List.foldl_cons]
    split
    · exact ih h
    · exact ih (h.remove e)

/-- The update and prune passes keep the invariant. -/
theorem RegistryWF.refreshQuerierMap (h : RegistryWF map) (results : List LivenessResult) :
    RegistryWF (refreshQuerierMap map results) := by
  have hfold : RegistryWF (results.foldl QuerierRegistry.updateQuerier map) := by
    induction results generalizing map with
    | nil => exact h
    | cons r rs ih => exact ih (h.updateQuerier r)
  exact hfold.removeStale _ _

/-- An acquire keeps the invariant. -/
theorem RegistryWF.getAvailableQuerier {s : Dispatcher} (h : RegistryWF s.querierMap)
    (querierMetadata : Except String (List NodeMetadata)) (rs : List LivenessResult) (now : Instant) :
    RegistryWF (QuerierRegistry.getAvailableQuerier querierMetadata rs now s).1.querierMap := by
  rcases querierMetadata with err | M
  · exact h
  · by_cases hM : M = []
    · subst hM; exact h
    · rcases getAvailableQuerier_selects hM rs now s with ⟨d, status, -, hmap, -⟩ | ⟨-, -, hout⟩
      · rw [hmap]
        exact (h.refreshQuerierMap rs).modify fun st hst => ⟨hst.1, fun _ => rfl⟩
      · rw [hout]; exact h.refreshQuerierMap rs

/-- A release keeps the invariant. -/
theorem RegistryWF.markQuerierAvailable {s : Dispatcher} (h : RegistryWF s.querierMap)
    (domainName : String) :
    RegistryWF (QuerierRegistry.markQuerierAvailable domainName s).querierMap :=
  h.modify fun _ hst => ⟨hst.1, fun hf => absurd hf (by simp)⟩

/-- The invariant does not depend on the iteration order. -/
theorem RegistryWF.perm {map' : HashMap String QuerierStatus} (h : RegistryWF map)
    (hp : map'.entries.Perm map.entries) : RegistryWF map' := fun d status hs =>
  h d status (by rwa [← HashMap.get?_eq_of_perm hp])

/-- One step of the registry: a get_available_querier call, a
mark_querier_available call, or the table being rebuilt in another iteration order
(which a real hash map may do whenever it grows). -/
inductive RegistryStep : Dispatcher → Dispatcher → Prop
  | acquire (querierMetadata : Except String (List NodeMetadata)) (livenessResults : List LivenessResult)
      (now : Instant) (s : Dispatcher) :
      RegistryStep s (QuerierRegistry.getAvailableQuerier querierMetadata livenessResults now s).1
  | release (domainName : String) (s : Dispatcher) :
      RegistryStep s (QuerierRegistry.markQuerierAvailable domainName s)
  | rehash {s s' : Dispatcher} :
      s'.querierMap.entries.Perm s.querierMap.entries → s'.lastUsedQuerier = s.lastUsedQuerier →
      RegistryStep s s'

/-- Dispatcher states reachable from the process start. -/
def RegistryReachable (s : Dispatcher) : Prop :=
  Relation.ReflTransGen RegistryStep Dispatcher.init s

/-- Every registry step keeps the invariant. -/
theorem RegistryWF.step {s s' : Dispatcher} (h : RegistryWF s.querierMap) (hs : RegistryStep s s') :
    RegistryWF s'.querierMap := by
  cases hs with
  | acquire querierMetadata livenessResults now => exact h.getAvailableQuerier _ _ _
  | release domainName => exact h.markQuerierAvailable domainName
  | rehash hp _ => exact h.perm hp

/-- Every reachable registry keeps the invariant. -/
theorem registryWF_of_reachable {s : Dispatcher} (hs : RegistryReachable s) :
    RegistryWF s.querierMap := by
  induction hs with
  | refl => exact registryWF_empty
  | tail _ hstep ih => exact ih.step hstep

/-- On every reachable registry: entries sit under their own domain and dispatched
entries have a last use; the LRU fallback returns the metadata of an entry whose
last use is minimal over the whole map; and the domain handed to a call keys the
entry it was given, which releasing that domain makes available again. -/
theorem reachable_registry_wf {s : Dispatcher} (hs : RegistryReachable s) :
    RegistryWF s.querierMap ∧
    (∀ M rs now md, availableQueriers (refreshQuerierMap s.querierMap rs) = [] →
      (getAvailableQuerier (.ok M) rs now s).2 = .ok md →
      ∃ status t, (refreshQuerierMap s.querierMap rs).get? md.domainName = some status ∧
        status.metadata = md ∧ status.lastUsed = some t ∧
        ∀ e ∈ (refreshQuerierMap s.querierMap rs).entries, ∃ t', e.2.lastUsed = some t' ∧ t ≤ t') ∧
    (∀ M rs now md, (getAvailableQuerier (.ok M) rs now s).2 = .ok md →
      ∃ status, (getAvailableQuerier (.ok M) rs now s).1.querierMap.get? md.domainName = some status ∧
        status.metadata = md ∧ status.available = false ∧
        (markQuerierAvailable md.domainName (getAvailableQuerier (.ok M) rs now s).1).querierMap.get?
          md.domainName = some { status with available := true }) := by
  have hwf := registryWF_of_reachable hs
  have hmap := hwf.refreshQuerierMap
  -- a successful call names its own key and dispatched the entry under it
  have hsel : ∀ M rs now md, (getAvailableQuerier (.ok M) rs now s).2 = .ok md →
      ∃ d status, (refreshQuerierMap s.querierMap rs).get? d = some status ∧ md = status.metadata ∧
        d = md.domainName ∧ (getAvailableQuerier (.ok M) rs now s).1.querierMap =
          (refreshQuerierMap s.querierMap rs).modify d (QuerierStatus.dispatch now) ∧
        (availableQueriers (refreshQuerierMap s.querierMap rs) = [] →
          LeastRecentlyUsed (refreshQuerierMap s.querierMap rs) d) := by
    intro M rs now md hok
    have hM : M ≠ [] := by rintro rfl; cases hok
    rcases getAvailableQuerier_selects hM rs now s with ⟨d, status, hs, hm, ho, hcase⟩ | ⟨-, -, hout⟩
    · obtain rfl : md = status.metadata := by rw [ho] at hok; exact (Except.ok.inj hok).symm
      refine ⟨d, status, hs, rfl, ((hmap rs) d status hs).1.symm, hm, fun hav => ?_⟩
      rcases hcase with ⟨hav', -⟩ | ⟨-, hlru, -⟩
      · exact absurd hav hav'
      · exact hlru
    · rw [hout] at hok; cases hok
  refine ⟨hwf, fun M rs now md hav hok => ?_, fun M rs now md hok => ?_⟩
  · obtain ⟨d, status, hs, rfl, rfl, -, hlru⟩ := hsel M rs now md hok
    obtain ⟨status', hs', hmin⟩ := hlru hav
    obtain rfl : status' = status := Option.some.inj (hs'.symm.trans hs)
    have hused : ∀ e ∈ (refreshQuerierMap s.querierMap rs).entries, e.2.lastUsed.isSome := fun e he =>
      ((hmap rs) e.1 e.2 (HashMap.get?_eq_some_iff.mpr he)).2 (availableQueriers_eq_nil.mp hav e he)
    obtain ⟨t, ht⟩ := Option.isSome_iff_exists.mp (hused _ (HashMap.get?_eq_some_iff.mp hs))
    refine ⟨status', t, hs, rfl, ht, fun e he => ?_⟩
    obtain ⟨t', ht'⟩ := Option.isSome_iff_exists.mp (hused e he)
    have := hmin e he
    rw [ht, ht'] at this
    exact ⟨t', ht', this⟩
  · obtain ⟨d, status, hs, rfl, rfl, hm, -⟩ := hsel M rs now md hok
    refine ⟨status.dispatch now, by simp [hm, hs], rfl, rfl, ?_⟩
    simp [markQuerierAvailable, hm, hs, QuerierStatus.dispatch]

/-- A registry after one acquire of a live querier is reachable and keeps the invariant. -/
theorem reachable_registry_wf_after_acquire :
    let md : NodeMetadata := ⟨"http://querier-a:8000/", "Basic cXVlcmllcg==", "querier"⟩
    let s := (getAvailableQuerier (.ok [md]) [⟨md, true⟩] 1 Dispatcher.init).1
    RegistryReachable s ∧ RegistryWF s.querierMap := by
  intro md s
  have h : RegistryReachable s := .single (.acquire _ _ _ _)
  exact ⟨h, (reachable_registry_wf h).1⟩

end Parseable.RegistryInvariant

import Parseable.QueryDispatch

/-!
# No querier serves two queries at once

get_available_querier hands each call a querier and marks it unavailable, and the
call's exit marks it available again. In between, the querier goes to no other call,
provided two things hold at every acquire of the run: some querier of the refreshed
map is available, so the LRU fallback does not run, and the probe reports live every
querier a call in flight holds. Then the dispatched entries are exactly the queriers
of the calls in flight, each held by one call.

Neither condition can be dropped. When every querier is busy, the LRU fallback hands
a busy querier to a second call, by design. And the refresh removes a querier that a
probe misses, whether or not a call holds it; when a later probe sees it live again,
it enters available and never used, and goes to a second call while the first still
holds it. Calls whose futures are dropped are outside these runs (see QueryDispatch).
-/

namespace Parseable.QuerierExclusion

open QuerierRegistry RegistryInvariant QueryDispatch

/-- No two calls in flight hold the same querier, and the entry of each is dispatched. -/
structure Exclusive (st : DispatchState) : Prop where
  nodup : (st.inFlight.map (·.domainName)).Nodup
  dispatched : ∀ q ∈ st.inFlight, dispatchedIn st.dispatcher.querierMap q.domainName

/-- An acquire whose probe reports live every querier in use and that finds an
available querier whenever it hands one out. -/
def Unshared (querierMetadata : Except String (List NodeMetadata)) (livenessResults : List LivenessResult)
    (now : Instant) (st : DispatchState) : Prop :=
  (∀ q ∈ st.inFlight, q.domainName ∈ liveDomains livenessResults) ∧
    ∀ md, (getAvailableQuerier querierMetadata livenessResults now st.dispatcher).2 = .ok md →
      availableQueriers (refreshQuerierMap st.dispatcher.querierMap livenessResults) ≠ []

/-- The steps of calls that run to one of their exits, every acquire unshared. -/
inductive UnsharedStep : DispatchState → DispatchState → Prop
  | acquire {querierMetadata : Except String (List NodeMetadata)} {livenessResults : List LivenessResult}
      {now : Instant} {st : DispatchState} :
      Unshared querierMetadata livenessResults now st →
      UnsharedStep st (acquire querierMetadata livenessResults now st)
  | finish (parseJson : String → Except String JsonValue) (outcome : RequestOutcome)
      {st : DispatchState} {querier : QuerierMetadata} : querier ∈ st.inFlight →
      UnsharedStep st ⟨(sendQueryRequestAfterAcquire parseJson querier outcome st.dispatcher).1,
        st.inFlight.erase querier⟩
  | rehash {st st' : DispatchState} :
      st'.dispatcher.querierMap.entries.Perm st.dispatcher.querierMap.entries →
      st'.dispatcher.lastUsedQuerier = st.dispatcher.lastUsedQuerier → st'.inFlight = st.inFlight →
      UnsharedStep st st'

/-- A guarded step is a step of the dispatcher's calls. -/
theorem UnsharedStep.callStep {st st' : DispatchState} (h : UnsharedStep st st') : CallStep st st' := by
  cases h with
  | acquire _ => exact .acquire _ _ _ _
  | finish parseJson outcome hq => exact .finish parseJson outcome hq
  | rehash hp hl hf => exact .rehash hp hl hf

/-! ## Dispatched entries -/

variable {map : HashMap String QuerierStatus} {d : String}

/-- A domain is dispatched exactly when its entry is unavailable. -/
theorem dispatchedIn_iff :
    dispatchedIn map d ↔ ∃ status, map.get? d = some status ∧ status.available = false := by
  cases h : map.get? d <;> simp [dispatchedIn, h]

/-- The keys of the dispatched entries, in iteration order. -/
theorem mem_dispatchedKeys :
    d ∈ (map.entries.filter (!·.2.available)).map (·.1) ↔ dispatchedIn map d := by
  rw [dispatchedIn_iff]
  constructor
  · intro hd
    obtain ⟨e, he, rfl⟩ := List.mem_map.mp hd
    obtain ⟨he, hav⟩ := List.mem_filter.mp he
    exact ⟨e.2, HashMap.get?_eq_some_iff.mpr he, by simpa using hav⟩
  · rintro ⟨status, hs, hav⟩
    exact List.mem_map.mpr ⟨(d, status), List.mem_filter.mpr ⟨HashMap.get?_eq_some_iff.mp hs, by simp [hav]⟩, rfl⟩

/-- A querier in use that the probe reports live stays dispatched through the refresh. -/
theorem dispatchedIn_refreshQuerierMap {rs : List LivenessResult} (h : dispatchedIn map d)
    (hl : d ∈ liveDomains rs) : dispatchedIn (refreshQuerierMap map rs) d := by
  obtain ⟨status, hs, hav⟩ := dispatchedIn_iff.mp h
  obtain ⟨r, -, -, -, hn⟩ := (refreshQuerierMap_spec map rs).survivor d status hs hl
  exact dispatchedIn_iff.mpr ⟨_, hn, hav⟩

/-! ## One step -/

/-- A guarded acquire keeps the calls in flight on distinct dispatched queriers. -/
theorem Exclusive.acquire {st : DispatchState} (hwf : RegistryWF st.dispatcher.querierMap) (h : Exclusive st)
    {M : Except String (List NodeMetadata)} {rs : List LivenessResult} {now : Instant}
    (hu : Unshared M rs now st) : Exclusive (acquire M rs now st) := by
  obtain ⟨hlive, hfree⟩ := hu
  let map := refreshQuerierMap st.dispatcher.querierMap rs
  have hkept : ∀ q ∈ st.inFlight, dispatchedIn map q.domainName := fun q hq =>
    dispatchedIn_refreshQuerierMap (h.dispatched q hq) (hlive q hq)
  rcases M with err | M
  · exact h
  by_cases hM : M = []
  · subst hM; exact h
  rcases getAvailableQuerier_selects hM rs now st.dispatcher with
    ⟨d, status, hs, hmap, hok, hcase⟩ | ⟨hnil, -, hout⟩
  · -- round robin chose an available entry, which no call in flight holds
    have havail : status.available = true := by
      rcases hcase with ⟨-, hrr, -⟩ | ⟨hav, -⟩
      · obtain ⟨status', hs', hav'⟩ := mem_availableQueriers.mp (roundRobinChoice_mem hrr)
        rw [hs] at hs'
        cases hs'
        exact hav'
      · exact absurd hav (hfree _ hok)
    have hdom : status.metadata.domainName = d := ((hwf.refreshQuerierMap rs) d status hs).1
    have hfresh : ∀ q ∈ st.inFlight, q.domainName ≠ d := fun q hq hqd => by
      obtain ⟨status', hs', hav'⟩ := dispatchedIn_iff.mp (hkept q hq)
      rw [hqd, hs] at hs'
      cases hs'
      simp [havail] at hav'
    constructor
    · simp only [QueryDispatch.acquire, hok, List.map_cons, hdom]
      refine List.nodup_cons.mpr ⟨fun hm => ?_, h.nodup⟩
      obtain ⟨q, hq, hqd⟩ := List.mem_map.mp hm
      exact hfresh q hq hqd
    · intro q hq
      simp only [QueryDispatch.acquire, hok, List.mem_cons] at hq ⊢
      rw [hmap]
      rcases hq with rfl | hq
      · rw [hdom]
        exact dispatchedIn_iff.mpr ⟨status.dispatch now, by simp [hs], rfl⟩
      · rw [dispatchedIn_modify (hfresh q hq)]
        exact hkept q hq
  · -- the probe found no querier live, so no call was in flight
    have hnone : st.inFlight = [] :=
      List.eq_nil_iff_forall_not_mem.mpr fun q hq => by simpa [hnil] using hlive q hq
    simp only [QueryDispatch.acquire, hout, hnone]
    exact ⟨List.nodup_nil, fun _ hq => by simp at hq⟩

/-- A call's exit keeps the other calls on distinct dispatched queriers. -/
theorem Exclusive.finish {st : DispatchState} (h : Exclusive st) {querier : QuerierMetadata}
    (hq : querier ∈ st.inFlight) :
    Exclusive ⟨markQuerierAvailable querier.domainName st.dispatcher, st.inFlight.erase querier⟩ := by
  -- the released querier was held by this call alone
  have hother : ∀ q ∈ st.inFlight.erase querier, q.domainName ≠ querier.domainName := by
    intro q hq' hqd
    have hne : q ≠ querier := ((List.Nodup.of_map _ h.nodup).mem_erase_iff.mp hq').1
    exact hne (List.inj_on_of_nodup_map h.nodup (List.mem_of_mem_erase hq') hq hqd)
  refine ⟨h.nodup.sublist ((List.erase_sublist _ _).map _), fun q hq' => ?_⟩
  rw [markQuerierAvailable, dispatchedIn_modify (hother q hq')]
  exact h.dispatched q (List.mem_of_mem_erase hq')

/-- Every guarded step keeps the calls in flight on distinct dispatched queriers. -/
theorem Exclusive.step {st st' : DispatchState} (hwf : RegistryWF st.dispatcher.querierMap) (h : Exclusive st)
    (hs : UnsharedStep st st') : Exclusive st' := by
  cases hs with
  | acquire hu => exact h.acquire hwf hu
  | finish parseJson outcome hq =>
    rw [sendQueryRequestAfterAcquire_fst]
    exact h.finish hq
  | rehash hp _ hf =>
    refine ⟨by rw [hf]; exact h.nodup, fun q hq => ?_⟩
    rw [dispatchedIn_of_perm hp]
    exact h.dispatched q (hf ▸ hq)

/-! ## Whole runs -/

/-- Every run of guarded steps keeps the calls in flight on distinct dispatched queriers. -/
theorem exclusive_of_unsharedSteps {st : DispatchState}
    (h : Relation.ReflTransGen UnsharedStep DispatchState.init st) : Exclusive st := by
  induction h with
  | refl => exact ⟨List.nodup_nil, fun _ hq => by simp [DispatchState.init] at hq⟩
  | tail hr hstep ih =>
    have hreach : DispatchReachable _ := hr.lift id fun _ _ hs => .call hs.callStep
    exact ih.step (registryWF_of_reachable (registryReachable_of_dispatchReachable hreach)) hstep

/-- In every run whose acquires are all unshared, no two calls in flight hold the same
querier, the dispatched entries are exactly the queriers of the calls in flight, and
there are as many of them as calls in flight. -/
theorem unshared_runs_exclusive {st : DispatchState}
    (h : Relation.ReflTransGen UnsharedStep DispatchState.init st) :
    (st.inFlight.map (·.domainName)).Nodup ∧
      (∀ d, dispatchedIn st.dispatcher.querierMap d ↔ d ∈ st.inFlight.map (·.domainName)) ∧
      unavailableCount st.dispatcher.querierMap = st.inFlight.length := by
  have hex := exclusive_of_unsharedSteps h
  have hheld := (held_of_callSteps (h.lift id fun _ _ hs => hs.callStep)).1
  have hiff : ∀ d, dispatchedIn st.dispatcher.querierMap d ↔ d ∈ st.inFlight.map (·.domainName) :=
    fun d => ⟨hheld d, fun hd => by
      obtain ⟨q, hq, rfl⟩ := List.mem_map.mp hd
      exact hex.dispatched q hq⟩
  refine ⟨hex.nodup, hiff, ?_⟩
  -- the dispatched keys and the queriers in flight are the same distinct domains
  have hnd : ((st.dispatcher.querierMap.entries.filter (!·.2.available)).map (·.1)).Nodup :=
    st.dispatcher.querierMap.nodup.sublist ((List.filter_sublist _).map _)
  have hperm := (List.perm_ext_iff_of_nodup hnd hex.nodup).mpr fun d => mem_dispatchedKeys.trans (hiff d)
  simpa [unavailableCount] using hperm.length_eq

/-- A second querier of the cluster. -/
def querierB : QuerierMetadata := ⟨"http://querier-b:8000/", "Basic cXVlcmllcg==", "querier"⟩

/-- Two calls acquire while both queriers are live. -/
def twoCalls : DispatchState :=
  let live := [⟨querierA, true⟩, ⟨querierB, true⟩]
  acquire (.ok [querierA, querierB]) live 2 (acquire (.ok [querierA, querierB]) live 1 DispatchState.init)

/-- Both acquires of the run are unshared, and the calls hold one querier each. -/
theorem unshared_runs_exclusive_two_calls :
    Relation.ReflTransGen UnsharedStep DispatchState.init twoCalls ∧ twoCalls.inFlight = [querierB, querierA] ∧
      unavailableCount twoCalls.dispatcher.querierMap = 2 := by
  have hrun : Relation.ReflTransGen UnsharedStep DispatchState.init twoCalls :=
    .tail (.single (.acquire ⟨fun _ hq => by simp [DispatchState.init] at hq, fun _ _ => by decide⟩))
      (.acquire ⟨by decide, fun _ _ => by decide⟩)
  exact ⟨hrun, rfl, (unshared_runs_exclusive hrun).2.2⟩

/-- A call holds the only querier. -/
def oneCall : DispatchState := acquire (.ok [querierA]) [⟨querierA, true⟩] 1 DispatchState.init

/-- A second call acquires while the only querier is still live and busy. -/
def saturatedCalls : DispatchState := acquire (.ok [querierA]) [⟨querierA, true⟩] 2 oneCall

/-- The second call finds it busy, and the LRU fallback hands it out again. -/
theorem saturated_acquire_shares_querier :
    Relation.ReflTransGen CallStep DispatchState.init saturatedCalls ∧
      saturatedCalls.inFlight = [querierA, querierA] :=
  ⟨.tail (.single (.acquire _ _ _ _)) (.acquire _ _ _ _), by decide⟩

/-- The next probe misses the querier in use: that acquire removes it and fails. -/
def missedProbe : DispatchState := acquire (.ok [querierA]) [⟨querierA, false⟩] 2 oneCall

/-- The probe after sees it live again. -/
def missedProbeCalls : DispatchState := acquire (.ok [querierA]) [⟨querierA, true⟩] 3 missedProbe

/-- The querier re-enters available and goes to a second call while the first still
holds it. -/
theorem missed_probe_shares_querier :
    Relation.ReflTransGen CallStep DispatchState.init missedProbeCalls ∧
      missedProbe.inFlight = [querierA] ∧ missedProbeCalls.inFlight = [querierA, querierA] :=
  ⟨.tail (.tail (.single (.acquire _ _ _ _)) (.acquire _ _ _ _)) (.acquire _ _ _ _), by decide, by decide⟩

end Parseable.QuerierExclusion

import Parseable.RegistryInvariant

/-!
# Queries in flight

send_query_request acquires a querier, sends the query to it and marks it available
again on each of its exits. Between the two a call is in flight, holding the
metadata its acquire returned. Calls interleave: an acquire is one atomic step, and
so is the end of a call, whatever exit it takes. Every dispatched entry is then held
by a call in flight, so there are never more dispatched entries than calls in
flight. A caller may also drop the call's future while it awaits the querier's
reply; no release runs then, and the entry stays dispatched with no call holding it.
-/

namespace Parseable.QueryDispatch

open QuerierRegistry RegistryInvariant

/-! ## send_query_request -/

/-- How the exchange of one call with its querier went. -/
inductive RequestOutcome
  /-- serde_json::to_string(&query_request) failed. -/
  | serializeError (message : String)
  /-- send() failed. -/
  | transportError (message : String)
  /-- A reply: its status, its TIME_ELAPSED_HEADER (absent, or what to_str() gave),
  and what res.text() gave. -/
  | reply (status : Nat) (timeElapsed : Option (Option String)) (text : Except String String)

/-- send_query_request after get_available_querier returned `querier`: the dispatcher
after its last await and what it returns. `parseJson` is serde_json::from_str. -/
def sendQueryRequestAfterAcquire (parseJson : String → Except String JsonValue)
    (querier : QuerierMetadata) (outcome : RequestOutcome) (s : Dispatcher) :
    Dispatcher × Except QueryError (JsonValue × String) :=
  let domainName := querier.domainName
  match outcome with
  | .serializeError err => (markQuerierAvailable domainName s, .error (.serde err))
  | .transportError err => (markQuerierAvailable domainName s, .error (.network err))
  | .reply status timeElapsed text =>
    let s := markQuerierAvailable domainName s
    let totalTime := match timeElapsed with
      | some v => v.getD ""
      | none => ""
    if 200 ≤ status ∧ status < 300 then
      match text with
      | .ok text =>
        match parseJson text with
        | .ok queryResponse => (s, .ok (queryResponse, totalTime))
        | .error err => (s, .error (.serde err))
      | .error err => (s, .error (.anyhow err))
    else
      match text with
      | .ok errText => (s, .error (.jsonParse errText))
      | .error err => (s, .error (.network err))

/-- Every exit of a call releases its querier exactly once. -/
@[simp] theorem sendQueryRequestAfterAcquire_fst (parseJson : String → Except String JsonValue)
    (querier : QuerierMetadata) (outcome : RequestOutcome) (s : Dispatcher) :
    (sendQueryRequestAfterAcquire parseJson querier outcome s).1 =
      markQuerierAvailable querier.domainName s := by
  unfold sendQueryRequestAfterAcquire
  rcases outcome with _ | _ | ⟨status, _, text⟩
  · rfl
  · rfl
  · dsimp only
    split
    · rcases text with _ | text
      · rfl
      · dsimp only; split <;> rfl
    · rcases text with _ | _ <;> rfl

/-! ## Calls in flight -/

/-- The dispatcher, and the querier held by each call in flight. -/
structure DispatchState where
  /-- QUERIER_MAP and LAST_USED_QUERIER. -/
  dispatcher : Dispatcher
  /-- One entry per call between its acquire and its release. -/
  inFlight : List QuerierMetadata

/-- No call has started. -/
def DispatchState.init : DispatchState := ⟨Dispatcher.init, []⟩

/-- A new call runs get_available_querier; it is in flight if it got a querier. -/
def acquire (querierMetadata : Except String (List NodeMetadata)) (livenessResults : List LivenessResult)
    (now : Instant) (st : DispatchState) : DispatchState :=
  let out := getAvailableQuerier querierMetadata livenessResults now st.dispatcher
  ⟨out.1, match out.2 with
    | .ok querier => querier :: st.inFlight
    | .error _ => st.inFlight⟩

/-- The steps of calls that run to one of their exits. -/
inductive CallStep : DispatchState → DispatchState → Prop
  | acquire (querierMetadata : Except String (List NodeMetadata)) (livenessResults : List LivenessResult)
      (now : Instant) (st : DispatchState) :
      CallStep st (acquire querierMetadata livenessResults now st)
  | finish (parseJson : String → Except String JsonValue) (outcome : RequestOutcome)
      {st : DispatchState} {querier : QuerierMetadata} : querier ∈ st.inFlight →
      CallStep st ⟨(sendQueryRequestAfterAcquire parseJson querier outcome st.dispatcher).1,
        st.inFlight.erase querier⟩
  | rehash {st st' : DispatchState} :
      st'.dispatcher.querierMap.entries.Perm st.dispatcher.querierMap.entries →
      st'.dispatcher.lastUsedQuerier = st.dispatcher.lastUsedQuerier → st'.inFlight = st.inFlight →
      CallStep st st'

/-- A call step, or a call in flight whose future its caller drops while it awaits
the querier's reply. -/
inductive DispatchStep : DispatchState → DispatchState → Prop
  | call {st st' : DispatchState} : CallStep st st' → DispatchStep st st'
  | drop {st : DispatchState} {querier : QuerierMetadata} : querier ∈ st.inFlight →
      DispatchStep st ⟨st.dispatcher, st.inFlight.erase querier⟩

/-- States reachable from the process start under any interleaving. -/
def DispatchReachable (st : DispatchState) : Prop :=
  Relation.ReflTransGen DispatchStep DispatchState.init st

/-- Whether `d` keys a dispatched entry. -/
def dispatchedIn (map : HashMap String QuerierStatus) (d : String) : Bool :=
  (map.get? d).any (!·.available)

/-- The number of entries with available = false. -/
def unavailableCount (map : HashMap String QuerierStatus) : Nat :=
  (map.entries.filter (!·.2.available)).length

/-- Every dispatched entry is held by a call in flight. -/
def Held (st : DispatchState) : Prop :=
  ∀ d, dispatchedIn st.dispatcher.querierMap d → d ∈ st.inFlight.map (·.domainName)

/-! ## The registry side of a run -/

/-- A step of the calls is a run of registry steps. -/
theorem CallStep.registryStep {st st' : DispatchState} (h : CallStep st st') :
    Relation.ReflTransGen RegistryStep st.dispatcher st'.dispatcher := by
  cases h with
  | acquire querierMetadata livenessResults now => exact .single (.acquire _ _ _ _)
  | finish parseJson outcome _ =>
    rw [sendQueryRequestAfterAcquire_fst]
    exact .single (.release _ _)
  | rehash hp hl _ => exact .single (.rehash hp hl)

/-- A reachable dispatch state has a reachable registry. -/
theorem registryReachable_of_dispatchReachable {st : DispatchState} (h : DispatchReachable st) :
    RegistryReachable st.dispatcher := by
  induction h with
  | refl => exact .refl
  | tail _ hstep ih =>
    cases hstep with
    | call h => exact ih.trans h.registryStep
    | drop _ => exact ih

/-! ## Every dispatched entry is held -/

/-- The refresh never dispatches: newcomers enter available, survivors keep theirs. -/
theorem dispatchedIn_of_refreshQuerierMap {map : HashMap String QuerierStatus}
    {rs : List LivenessResult} {d : String} (h : dispatchedIn (refreshQuerierMap map rs) d) :
    dispatchedIn map d := by
  have hspec := refreshQuerierMap_spec map rs
  obtain ⟨status, hs, hav⟩ : ∃ status, (refreshQuerierMap map rs).get? d = some status ∧
      status.available = false := by
    cases hs : (refreshQuerierMap map rs).get? d <;> simp_all [dispatchedIn]
  have hl : d ∈ liveDomains rs := (hspec.keys_iff d).mp (HashMap.mem_keys.mpr (by simp [hs]))
  cases h₀ : map.get? d with
  | none =>
    obtain ⟨r, -, -, -, hn⟩ := hspec.newcomer d h₀ hl
    rw [hs] at hn
    cases hn
    cases hav
  | some status₀ =>
    obtain ⟨r, -, -, -, hn⟩ := hspec.survivor d status₀ h₀ hl
    rw [hs] at hn
    cases hn
    simpa [dispatchedIn, h₀] using hav

/-- Whether a domain is dispatched does not depend on the iteration order. -/
theorem dispatchedIn_of_perm {map map' : HashMap String QuerierStatus}
    (hp : map'.entries.Perm map.entries) (d : String) : dispatchedIn map' d = dispatchedIn map d := by
  simp only [dispatchedIn, HashMap.get?_eq_of_perm hp]

/-- Modifying one entry leaves the other domains' dispatch as it was. -/
theorem dispatchedIn_modify {map : HashMap String QuerierStatus} {f : QuerierStatus → QuerierStatus}
    {d d' : String} (hd : d' ≠ d) : dispatchedIn (map.modify d f) d' = dispatchedIn map d' := by
  simp [dispatchedIn, hd]

/-- An acquire keeps every unavailable entry held by a call in flight. -/
theorem Held.acquire {st : DispatchState} (hwf : RegistryWF st.dispatcher.querierMap) (h : Held st)
    (querierMetadata : Except String (List NodeMetadata)) (rs : List LivenessResult) (now : Instant) :
    Held (acquire querierMetadata rs now st) := by
  -- an entry the refresh left dispatched was already held
  have hrefresh : ∀ d, dispatchedIn (refreshQuerierMap st.dispatcher.querierMap rs) d →
      d ∈ st.inFlight.map (·.domainName) := fun d hd => h d (dispatchedIn_of_refreshQuerierMap hd)
  rcases querierMetadata with err | M
  · exact h
  by_cases hM : M = []
  · subst hM; exact h
  rcases getAvailableQuerier_selects hM rs now st.dispatcher with
    ⟨d, status, hs, hmap, hok, -⟩ | ⟨-, -, hout⟩
  · intro d' hd'
    simp only [QueryDispatch.acquire, hok, List.map_cons, List.mem_cons] at hd' ⊢
    rw [hmap] at hd'
    by_cases hdd : d' = d
    · exact .inl (hdd.trans ((hwf.refreshQuerierMap rs) d status hs).1.symm)
    · exact .inr (hrefresh d' (by rwa [dispatchedIn_modify hdd] at hd'))
  · intro d' hd'
    simp only [QueryDispatch.acquire, hout] at hd' ⊢
    exact hrefresh d' hd'

/-- A call's exit keeps every unavailable entry held by a call in flight. -/
theorem Held.finish {st : DispatchState} (h : Held st) (querier : QuerierMetadata) :
    Held ⟨markQuerierAvailable querier.domainName st.dispatcher, st.inFlight.erase querier⟩ := by
  intro d hd
  by_cases hdd : d = querier.domainName
  · subst hdd
    cases hg : st.dispatcher.querierMap.get? querier.domainName <;>
      simp [dispatchedIn, markQuerierAvailable, hg] at hd
  · rw [markQuerierAvailable, dispatchedIn_modify hdd] at hd
    obtain ⟨q, hq', rfl⟩ := List.mem_map.mp (h _ hd)
    have hne : q ≠ querier := fun he => hdd (he ▸ rfl)
    exact List.mem_map.mpr ⟨q, (List.mem_erase_of_ne hne).mpr hq', rfl⟩

/-- Every step of the calls keeps every unavailable entry held by a call in flight. -/
theorem Held.callStep {st st' : DispatchState} (hwf : RegistryWF st.dispatcher.querierMap) (h : Held st)
    (hs : CallStep st st') : Held st' := by
  cases hs with
  | acquire querierMetadata livenessResults now => exact h.acquire hwf _ _ _
  | finish parseJson outcome _ =>
    rw [sendQueryRequestAfterAcquire_fst]
    exact h.finish _
  | rehash hp _ hf =>
    intro d hd
    rw [hf]
    exact h d (by rwa [dispatchedIn_of_perm hp] at hd)

/-- Dispatched keys are distinct, so holding them takes as many calls. -/
theorem unavailableCount_le_of_held {st : DispatchState} (h : Held st) :
    unavailableCount st.dispatcher.querierMap ≤ st.inFlight.length := by
  let map := st.dispatcher.querierMap
  have hnd : ((map.entries.filter (!·.2.available)).map (·.1)).Nodup :=
    map.nodup.sublist ((List.filter_sublist _).map _)
  have hsub : (map.entries.filter (!·.2.available)).map (·.1) ⊆ st.inFlight.map (·.domainName) := by
    intro d hd
    obtain ⟨e, he, rfl⟩ := List.mem_map.mp hd
    obtain ⟨he, hav⟩ := List.mem_filter.mp he
    exact h e.1 (by simpa [dispatchedIn, HashMap.get?_eq_some_iff.mpr he] using hav)
  simpa [unavailableCount] using (List.subperm_of_subset hnd hsub).length_le

/-- Runs in which every call reaches one of its exits keep every dispatched entry held,
so there are never more dispatched entries than calls in flight. -/
theorem held_of_callSteps {st : DispatchState}
    (h : Relation.ReflTransGen CallStep DispatchState.init st) :
    Held st ∧ unavailableCount st.dispatcher.querierMap ≤ st.inFlight.length := by
  have hheld : Held st := by
    induction h with
    | refl => intro d hd; simp [dispatchedIn, DispatchState.init, Dispatcher.init] at hd
    | tail hr hstep ih =>
      have hreach : DispatchReachable _ := hr.lift id fun _ _ => DispatchStep.call
      exact ih.callStep (registryWF_of_reachable (registryReachable_of_dispatchReachable hreach)) hstep
  exact ⟨hheld, unavailableCount_le_of_held hheld⟩

/-! ## A dropped call -/

/-- A querier of the cluster. -/
def querierA : QuerierMetadata := ⟨"http://querier-a:8000/", "Basic cXVlcmllcg==", "querier"⟩

/-- A call acquires the only querier, and its caller drops it while it awaits the reply. -/
def droppedCall : DispatchState :=
  let st := acquire (.ok [querierA]) [⟨querierA, true⟩] 1 DispatchState.init
  ⟨st.dispatcher, st.inFlight.erase querierA⟩

/-- After the dropped call no call is in flight, and the querier stays dispatched. -/
theorem dropped_call_leaves_querier_unavailable :
    DispatchReachable droppedCall ∧ droppedCall.inFlight = [] ∧
      unavailableCount droppedCall.dispatcher.querierMap = 1 := by
  have hacq : DispatchReachable (acquire (.ok [querierA]) [⟨querierA, true⟩] 1 DispatchState.init) :=
    .single (.call (.acquire _ _ _ _))
  exact ⟨hacq.tail (.drop (List.mem_singleton_self _)), rfl, rfl⟩

/-! ## Each dropped call leaks at most one querier -/

/-- A run from the process start in which `drops` calls were dropped. -/
inductive DroppedRun : Nat → DispatchState → Prop
  | init : DroppedRun 0 DispatchState.init
  | call {drops : Nat} {st st' : DispatchState} : DroppedRun drops st → CallStep st st' → DroppedRun drops st'
  | drop {drops : Nat} {st : DispatchState} {querier : QuerierMetadata} : DroppedRun drops st →
      querier ∈ st.inFlight → DroppedRun (drops + 1) ⟨st.dispatcher, st.inFlight.erase querier⟩

/-- The reachable states are those of the runs, whatever number of calls they drop. -/
theorem dispatchReachable_iff_droppedRun {st : DispatchState} :
    DispatchReachable st ↔ ∃ drops, DroppedRun drops st := by
  constructor
  · intro h
    induction h with
    | refl => exact ⟨0, .init⟩
    | tail _ hstep ih =>
      obtain ⟨drops, hrun⟩ := ih
      cases hstep with
      | call hs => exact ⟨drops, hrun.call hs⟩
      | drop hq => exact ⟨drops + 1, hrun.drop hq⟩
  · rintro ⟨drops, h⟩
    induction h with
    | init => exact .refl
    | call _ hs ih => exact ih.tail (.call hs)
    | drop _ hq ih => exact ih.tail (.drop hq)

/-- The calls in flight, followed by the queriers of the calls dropped so far. -/
def withLeaked (st : DispatchState) (leaked : List QuerierMetadata) : DispatchState :=
  ⟨st.dispatcher, st.inFlight ++ leaked⟩

/-- Being held does not depend on the order of the calls in flight. -/
theorem Held.of_perm {dispatcher : Dispatcher} {l l' : List QuerierMetadata} (h : Held ⟨dispatcher, l⟩)
    (hp : l.Perm l') : Held ⟨dispatcher, l'⟩ :=
  fun d hd => (hp.map _).mem_iff.mp (h d hd)

/-- An acquire does not see the calls counted as leaked. -/
theorem acquire_withLeaked (querierMetadata : Except String (List NodeMetadata)) (rs : List LivenessResult)
    (now : Instant) (st : DispatchState) (leaked : List QuerierMetadata) :
    acquire querierMetadata rs now (withLeaked st leaked) = withLeaked (acquire querierMetadata rs now st) leaked := by
  unfold acquire withLeaked
  dsimp only
  cases (getAvailableQuerier querierMetadata rs now st.dispatcher).2 <;> rfl

/-- A call step carries the leaked queriers along. -/
theorem CallStep.withLeaked {st st' : DispatchState} (hs : CallStep st st') (leaked : List QuerierMetadata) :
    CallStep (withLeaked st leaked) (withLeaked st' leaked) := by
  cases hs with
  | acquire querierMetadata livenessResults now =>
    rw [← acquire_withLeaked]
    exact .acquire _ _ _ _
  | finish parseJson outcome hq =>
    have h := @CallStep.finish parseJson outcome (QueryDispatch.withLeaked st leaked) _ (List.mem_append_left leaked hq)
    simp only [QueryDispatch.withLeaked, List.erase_append_left _ hq] at h ⊢
    exact h
  | rehash hp hl hf => exact .rehash hp hl (by simp only [QueryDispatch.withLeaked, hf])

/-- Every dispatched entry is held by a call in flight or leaked by one of the
dropped calls, one querier each. -/
theorem held_withLeaked_of_droppedRun {drops : Nat} {st : DispatchState} (h : DroppedRun drops st) :
    ∃ leaked : List QuerierMetadata, leaked.length = drops ∧ Held (withLeaked st leaked) := by
  induction h with
  | init => exact ⟨[], rfl, fun d hd => by
    simp [QueryDispatch.withLeaked, dispatchedIn, DispatchState.init, Dispatcher.init] at hd⟩
  | @call drops st st' hrun hs ih =>
    obtain ⟨leaked, hlen, hheld⟩ := ih
    have hwf : RegistryWF st.dispatcher.querierMap :=
      registryWF_of_reachable (registryReachable_of_dispatchReachable (dispatchReachable_iff_droppedRun.mpr ⟨_, hrun⟩))
    exact ⟨leaked, hlen,
      hheld.callStep (show RegistryWF (withLeaked st leaked).dispatcher.querierMap from hwf) (hs.withLeaked leaked)⟩
  | @drop drops st querier _ hq ih =>
    -- the dropped call's querier moves from the calls in flight to the leaked ones
    obtain ⟨leaked, hlen, hheld⟩ := ih
    exact ⟨querier :: leaked, by simp [hlen],
      hheld.of_perm (((List.perm_cons_erase hq).append_right leaked).trans List.perm_middle.symm)⟩

/-- In every interleaving of acquires, exits and drops, each dropped call leaves at
most one querier unavailable with no call holding it: there are never more unavailable
entries than calls in flight and calls dropped so far. -/
theorem dropped_calls_bound_unavailable {drops : Nat} {st : DispatchState} (h : DroppedRun drops st) :
    unavailableCount st.dispatcher.querierMap ≤ st.inFlight.length + drops := by
  obtain ⟨leaked, hlen, hheld⟩ := held_withLeaked_of_droppedRun h
  simpa [QueryDispatch.withLeaked, hlen] using unavailableCount_le_of_held hheld

/-- The dropped call above reaches the bound. -/
theorem dropped_calls_bound_unavailable_one_drop :
    DroppedRun 1 droppedCall ∧
      unavailableCount droppedCall.dispatcher.querierMap ≤ droppedCall.inFlight.length + 1 :=
  have h : DroppedRun 1 droppedCall := (DroppedRun.init.call (.acquire _ _ _ _)).drop (List.mem_singleton_self _)
  ⟨h, dropped_calls_bound_unavailable h⟩

end Parseable.QueryDispatch

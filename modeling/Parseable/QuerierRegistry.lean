import Parseable.HashMap
import Parseable.Modal

/-!
# The querier registry

`QUERIER_MAP` and `LAST_USED_QUERIER` with the two operations that change them.
`get_available_querier` refreshes the map from the probed querier metadata and
dispatches one querier, by round robin over the available ones or, when none is
available, by least recent use; `mark_querier_available` puts one back. The
first holds the map's write lock from before its probe to its return, and the
pointer is touched only under that lock, so each call is one atomic step.
-/

namespace Parseable.QuerierRegistry

/-- `QueryError`, the variants the dispatcher returns. -/
inductive QueryError
  | noAvailableQuerier
  | anyhow (message : String)
  | serde (message : String)
  | network (message : String)
  | jsonParse (body : String)
  deriving DecidableEq, Repr

/-- `QuerierStatus`. -/
structure QuerierStatus where
  /-- The querier's metadata, refreshed at every acquire that sees it live. -/
  metadata : QuerierMetadata
  /-- False while a query has been dispatched to it. -/
  available : Bool
  /-- When it was last dispatched. -/
  lastUsed : Option Instant
  deriving DecidableEq, Repr

/-- The process-wide dispatcher state. -/
structure Dispatcher where
  /-- `QUERIER_MAP`, keyed by domain. -/
  querierMap : HashMap String QuerierStatus
  /-- `LAST_USED_QUERIER`. -/
  lastUsedQuerier : Option String

/-- Both statics as the process starts. -/
def Dispatcher.init : Dispatcher := ⟨HashMap.empty, none⟩

/-- One `(domain, is_live, metadata)` of `liveness_results`. -/
structure LivenessResult where
  /-- The probed record. -/
  metadata : NodeMetadata
  /-- What `check_liveness` answered for it. -/
  isLive : Bool

/-- The probe is keyed by `metadata.domain_name`. -/
def LivenessResult.domain (r : LivenessResult) : String := r.metadata.domainName

/-- One turn of the update loop: refresh a live querier's metadata in place, or
enter it available and never used. -/
def updateQuerier (map : HashMap String QuerierStatus) (r : LivenessResult) :
    HashMap String QuerierStatus :=
  if r.isLive then
    match map.get? r.domain with
    | some _ => map.modify r.domain fun status => { status with metadata := r.metadata }
    | none => map.insert r.domain ⟨r.metadata, true, none⟩
  else map

/-- `live_domains`. -/
def liveDomains (results : List LivenessResult) : List String :=
  (results.filter (·.isLive)).map (·.domain)

/-- The removal loop over `existing_domains`. -/
def removeStale (live : List String) (map : HashMap String QuerierStatus) (existing : List String) :
    HashMap String QuerierStatus :=
  existing.foldl (fun map domain => if domain ∈ live then map else map.remove domain) map

/-- The map as get_available_querier leaves it before selecting. -/
def refreshQuerierMap (map : HashMap String QuerierStatus) (results : List LivenessResult) :
    HashMap String QuerierStatus :=
  removeStale (liveDomains results) (results.foldl updateQuerier map) map.keys

/-- `available_queriers`, in iteration order. -/
def availableQueriers (map : HashMap String QuerierStatus) : List String :=
  (map.entries.filter (·.2.available)).map (·.1)

/-- The loop of select_next_querier: the domain visited once `found_last` is set. -/
def findAfterLast (lastDomain : String) : List String → Bool → Option String
  | [], _ => none
  | domain :: rest, foundLast =>
    if foundLast then some domain else findAfterLast lastDomain rest (domain = lastDomain)

/-- `select_next_querier`: the chosen domain, and `LAST_USED_QUERIER` afterwards. -/
def selectNextQuerier (map : HashMap String QuerierStatus) (lastUsed : Option String) :
    Option String × Option String :=
  let available := availableQueriers map
  if available.isEmpty then (none, lastUsed)
  else
    let selected := match lastUsed with
      | some lastDomain => (findAfterLast lastDomain available false).or available.head?
      | none => available.head?
    match selected with
    | some domain => (some domain, some domain)
    | none => (none, lastUsed)

/-- One turn of the loop of select_least_recently_used_querier over
`(least_recently_used_domain, oldest_time)`. -/
def lruStep (acc : Option String × Option Instant) (entry : String × QuerierStatus) :
    Option String × Option Instant :=
  match entry.2.lastUsed, acc.2 with
  | none, _ => (some entry.1, none)
  | some usedTime, none => if acc.1.isNone then (some entry.1, some usedTime) else acc
  | some usedTime, some currentOldest =>
    if usedTime < currentOldest then (some entry.1, some usedTime) else acc

/-- `select_least_recently_used_querier`. -/
def selectLeastRecentlyUsedQuerier (map : HashMap String QuerierStatus) : Option String :=
  if map.isEmpty then none else (map.entries.foldl lruStep (none, none)).1

/-- What dispatching does to a status. -/
def QuerierStatus.dispatch (now : Instant) (status : QuerierStatus) : QuerierStatus :=
  { status with available := false, lastUsed := some now }

/-- `if let Some(status) = map.get_mut(&selected_domain)`: dispatch it and return its
metadata. -/
def dispatchQuerier (map : HashMap String QuerierStatus) (now : Instant) (domain : String) :
    Option (HashMap String QuerierStatus × QuerierMetadata) :=
  (map.get? domain).map fun status => (map.modify domain (QuerierStatus.dispatch now), status.metadata)

/-- `get_available_querier`, given what `get_node_info(NodeType::Querier)` returned,
the liveness results in the order the bounded probe completed them, and the
instant read by `Instant::now()`. -/
def getAvailableQuerier (querierMetadata : Except String (List NodeMetadata))
    (livenessResults : List LivenessResult) (now : Instant) (s : Dispatcher) :
    Dispatcher × Except QueryError QuerierMetadata :=
  match querierMetadata with
  | .error err => (s, .error (.anyhow err))
  | .ok querierMetadata =>
    if querierMetadata.isEmpty then (s, .error .noAvailableQuerier)
    else
      let map := refreshQuerierMap s.querierMap livenessResults
      let (selected, lastUsed) := selectNextQuerier map s.lastUsedQuerier
      match selected.bind (dispatchQuerier map now) with
      | some (map', metadata) => (⟨map', lastUsed⟩, .ok metadata)
      | none =>
        match (selectLeastRecentlyUsedQuerier map).bind (dispatchQuerier map now) with
        | some (map', metadata) => (⟨map', lastUsed⟩, .ok metadata)
        | none => (⟨map, lastUsed⟩, .error .noAvailableQuerier)

/-- `mark_querier_available`; `last_used` is kept for the LRU fallback. -/
def markQuerierAvailable (domainName : String) (s : Dispatcher) : Dispatcher :=
  { s with querierMap := s.querierMap.modify domainName fun status => { status with available := true } }

/-! ## Refreshing the map -/

/-- A querier's status after an acquire saw it live with metadata `md`. -/
def refreshed (prior : Option QuerierStatus) (md : QuerierMetadata) : QuerierStatus :=
  match prior with
  | some status => { status with metadata := md }
  | none => ⟨md, true, none⟩

/-- Refreshing an entry twice is refreshing it once with the later metadata. -/
@[simp] theorem refreshed_some_refreshed (prior : Option QuerierStatus) (md md' : QuerierMetadata) :
    refreshed (some (refreshed prior md)) md' = refreshed prior md' := by
  cases prior <;> rfl

/-- The live domains are those of the records probed live. -/
theorem mem_liveDomains {results : List LivenessResult} {d : String} :
    d ∈ liveDomains results ↔ ∃ r ∈ results, r.isLive ∧ r.domain = d := by
  simp [liveDomains, and_assoc]

variable {map : HashMap String QuerierStatus} {results : List LivenessResult} {d : String}

/-- One update refreshes the entry of a record probed live and changes nothing else. -/
theorem get?_updateQuerier (r : LivenessResult) :
    (updateQuerier map r).get? d =
      if r.isLive ∧ r.domain = d then some (refreshed (map.get? d) r.metadata) else map.get? d := by
  unfold updateQuerier
  by_cases hl : r.isLive
  · by_cases hd : r.domain = d
    · subst hd
      cases h : map.get? r.domain <;> simp [hl, h, refreshed, HashMap.insert]
    · cases map.get? r.domain <;> simp [hl, hd, Ne.symm hd, HashMap.insert]
  · simp [hl]

/-- One update appends the domain of a record probed live that is new. -/
theorem keys_updateQuerier (r : LivenessResult) :
    (updateQuerier map r).keys =
      if r.isLive ∧ r.domain ∉ map.keys then map.keys ++ [r.domain] else map.keys := by
  unfold updateQuerier
  by_cases hl : r.isLive
  · cases h : map.get? r.domain
    · have : r.domain ∉ map.keys := by simp [HashMap.mem_keys, h]
      simp [hl, this, HashMap.insert, HashMap.keys_upsert]
    · have : r.domain ∈ map.keys := by simp [HashMap.mem_keys, h]
      simp [hl, this]
  · simp [hl]

/-- The updates leave a domain that no record probed live names as it was. -/
theorem get?_foldl_updateQuerier_of_not_live (h : ∀ r ∈ results, r.isLive → r.domain ≠ d) :
    (results.foldl updateQuerier map).get? d = map.get? d := by
  induction results generalizing map with
  | nil => rfl
  | cons r rs ih =>
    rw [List.foldl_cons, ih fun r' hr' => h r' (List.mem_cons_of_mem _ hr'), get?_updateQuerier]
    have := h r (List.mem_cons_self _ _)
    split <;> simp_all

/-- After the updates a domain some record probed live names holds the refresh by one of them. -/
theorem get?_foldl_updateQuerier_of_live (map : HashMap String QuerierStatus)
    (h : ∃ r ∈ results, r.isLive ∧ r.domain = d) :
    ∃ r ∈ results, r.isLive ∧ r.domain = d ∧
      (results.foldl updateQuerier map).get? d = some (refreshed (map.get? d) r.metadata) := by
  induction results generalizing map with
  | nil => simp at h
  | cons r rs ih =>
    rw [List.foldl_cons]
    by_cases hrs : ∃ r' ∈ rs, r'.isLive ∧ r'.domain = d
    · obtain ⟨r', hr', hl, hd, he⟩ := @ih (updateQuerier map r) hrs
      refine ⟨r', List.mem_cons_of_mem _ hr', hl, hd, ?_⟩
      rw [he, get?_updateQuerier]
      split <;> simp
    · have hr : r.isLive ∧ r.domain = d := by simp_all
      refine ⟨r, List.mem_cons_self _ _, hr.1, hr.2, ?_⟩
      rw [get?_foldl_updateQuerier_of_not_live (by simpa using hrs), get?_updateQuerier, if_pos hr]

/-- Updates whose live domains are all present keep the keys. -/
theorem keys_foldl_updateQuerier (h : ∀ r ∈ results, r.isLive → r.domain ∈ map.keys) :
    (results.foldl updateQuerier map).keys = map.keys := by
  induction results generalizing map with
  | nil => rfl
  | cons r rs ih =>
    have hr := h r (List.mem_cons_self _ _)
    have hk : (updateQuerier map r).keys = map.keys := by
      rw [keys_updateQuerier]; split <;> simp_all
    rw [List.foldl_cons, ih (fun r' hr' hl => hk ▸ h r' (List.mem_cons_of_mem _ hr') hl), hk]

/-- The pruning loop drops exactly the existing domains that are not live. -/
theorem get?_removeStale (live existing : List String) :
    (removeStale live map existing).get? d =
      if d ∈ existing ∧ d ∉ live then none else map.get? d := by
  induction existing generalizing map with
  | nil => simp [removeStale]
  | cons e es ih =>
    simp only [removeStale, List.foldl_cons] at ih ⊢
    rw [ih]
    by_cases he : e ∈ live <;> by_cases hd : d = e <;> simp_all

/-- Pruning changes nothing when every existing domain is live. -/
theorem removeStale_of_subset {live existing : List String} (h : ∀ e ∈ existing, e ∈ live) :
    removeStale live map existing = map := by
  induction existing generalizing map with
  | nil => rfl
  | cons e es ih =>
    simp only [removeStale, List.foldl_cons, if_pos (h e (List.mem_cons_self _ _))]
    exact ih fun e' he' => h e' (List.mem_cons_of_mem _ he')

/-- After the update and prune passes a domain holds its updated entry if live, and nothing otherwise. -/
theorem get?_refreshQuerierMap :
    (refreshQuerierMap map results).get? d =
      if d ∈ liveDomains results then (results.foldl updateQuerier map).get? d else none := by
  rw [refreshQuerierMap, get?_removeStale]
  by_cases hl : d ∈ liveDomains results
  · simp [hl]
  · have hn : ∀ r ∈ results, r.isLive → r.domain ≠ d := fun r hr hlr hd =>
      hl (mem_liveDomains.mpr ⟨r, hr, hlr, hd⟩)
    rw [get?_foldl_updateQuerier_of_not_live hn]
    by_cases hk : d ∈ map.keys
    · simp [hl, hk]
    · simp [hl, hk, Option.not_isSome_iff_eq_none.mp (mt HashMap.mem_keys.mpr hk)]

/-- What the update and removal loops make of the map: exactly the live domains,
survivors keeping their availability and last use, newcomers fresh. -/
structure RefreshSpec (old : HashMap String QuerierStatus) (results : List LivenessResult)
    (new : HashMap String QuerierStatus) : Prop where
  /-- The keys are the domains of the records probed live. -/
  keys_iff : ∀ d, d ∈ new.keys ↔ d ∈ liveDomains results
  /-- A surviving entry takes the metadata of a live record of its domain. -/
  survivor : ∀ d status, old.get? d = some status → d ∈ liveDomains results →
    ∃ r ∈ results, r.isLive ∧ r.domain = d ∧ new.get? d = some { status with metadata := r.metadata }
  /-- A new domain enters available and never used. -/
  newcomer : ∀ d, old.get? d = none → d ∈ liveDomains results →
    ∃ r ∈ results, r.isLive ∧ r.domain = d ∧ new.get? d = some ⟨r.metadata, true, none⟩

/-- The update and prune passes meet the refresh specification. -/
theorem refreshQuerierMap_spec (map : HashMap String QuerierStatus) (results : List LivenessResult) :
    RefreshSpec map results (refreshQuerierMap map results) where
  keys_iff d := by
    rw [HashMap.mem_keys, get?_refreshQuerierMap]
    by_cases hl : d ∈ liveDomains results
    · obtain ⟨r, -, -, -, he⟩ := get?_foldl_updateQuerier_of_live map (mem_liveDomains.mp hl)
      simp [hl, he]
    · simp [hl]
  survivor d status hs hl := by
    obtain ⟨r, hr, hlr, hd, he⟩ := get?_foldl_updateQuerier_of_live map (mem_liveDomains.mp hl)
    exact ⟨r, hr, hlr, hd, by rw [get?_refreshQuerierMap, if_pos hl, he, hs]; rfl⟩
  newcomer d hs hl := by
    obtain ⟨r, hr, hlr, hd, he⟩ := get?_foldl_updateQuerier_of_live map (mem_liveDomains.mp hl)
    exact ⟨r, hr, hlr, hd, by rw [get?_refreshQuerierMap, if_pos hl, he, hs]; rfl⟩

/-- When the live domains are exactly the present keys, the refresh changes
metadata only: keys, their order, availability and last use all stay. -/
theorem refreshQuerierMap_of_keys (hlive : ∀ r ∈ results, r.isLive → r.domain ∈ map.keys)
    (hkeys : ∀ d ∈ map.keys, d ∈ liveDomains results) :
    (refreshQuerierMap map results).keys = map.keys ∧
      ∀ d status, map.get? d = some status → ∃ md,
        (refreshQuerierMap map results).get? d = some { status with metadata := md } := by
  refine ⟨?_, fun d status hs => ?_⟩
  · rw [refreshQuerierMap, removeStale_of_subset hkeys, keys_foldl_updateQuerier hlive]
  · have hl := hkeys d (HashMap.mem_keys.mpr (by simp [hs]))
    obtain ⟨r, -, -, -, he⟩ := (refreshQuerierMap_spec map results).survivor d status hs hl
    exact ⟨r.metadata, he⟩

/-! ## Round robin -/

/-- Round robin as the dispatcher promises it: the domain after `p` in `available`,
or the first one when `p` is unset, absent from the list, or its last element. -/
def roundRobinChoice (available : List String) : Option String → Option String
  | some p => available[available.indexOf p + 1]?.or available.head?
  | none => available.head?

/-- Once the pointer is passed, the next domain is chosen. -/
theorem findAfterLast_true (p : String) (l : List String) : findAfterLast p l true = l.head? := by
  cases l <;> rfl

/-- Before the pointer is met, the choice is the domain after its first occurrence. -/
theorem findAfterLast_false (p : String) (l : List String) :
    findAfterLast p l false = l[l.indexOf p + 1]? := by
  induction l with
  | nil => rfl
  | cons x l ih =>
    by_cases h : x = p
    · subst h
      cases l <;> simp [findAfterLast, findAfterLast_true, List.indexOf_cons_self]
    · simp [findAfterLast, h, ih, List.indexOf_cons_ne _ h]

/-- Round-robin chooses a domain whenever one is available. -/
theorem roundRobinChoice_isSome {available : List String} (h : available ≠ []) (p : Option String) :
    (roundRobinChoice available p).isSome := by
  obtain ⟨x, xs, rfl⟩ := List.exists_cons_of_ne_nil h
  cases p with
  | none => rfl
  | some p => simp [roundRobinChoice]

/-- select_next_querier picks the round-robin choice among the available domains
and moves the pointer to it; with none available it changes nothing. -/
theorem selectNextQuerier_eq (map : HashMap String QuerierStatus) (p : Option String) :
    selectNextQuerier map p =
      if availableQueriers map = [] then (none, p)
      else (roundRobinChoice (availableQueriers map) p, roundRobinChoice (availableQueriers map) p) := by
  unfold selectNextQuerier
  by_cases h : availableQueriers map = []
  · simp [h]
  · obtain ⟨c, hc⟩ := Option.isSome_iff_exists.mp (roundRobinChoice_isSome h p)
    cases p <;> simp only [roundRobinChoice, findAfterLast_false] at hc ⊢ <;> simp [h, hc]

/-! ## Least recent use -/

/-- `a` was used no later than `b`, a never used querier counting as oldest. -/
def usedNoLater : Option Instant → Option Instant → Prop
  | none, _ => True
  | some _, none => False
  | some a, some b => a ≤ b

/-- `d` names an entry whose `last_used` is minimal over the whole map. -/
def LeastRecentlyUsed (map : HashMap String QuerierStatus) (d : String) : Prop :=
  ∃ status, map.get? d = some status ∧ ∀ e ∈ map.entries, usedNoLater status.lastUsed e.2.lastUsed

/-- What `(least_recently_used_domain, oldest_time)` holds after visiting `seen`:
`oldest_time` is the last use of the candidate, and no visited entry is older. -/
structure LruInvariant (seen : List (String × QuerierStatus)) (acc : Option String × Option Instant) :
    Prop where
  none_seen : acc.1 = none → seen = [] ∧ acc.2 = none
  some_min : ∀ d, acc.1 = some d → ∃ status, (d, status) ∈ seen ∧ status.lastUsed = acc.2 ∧
    ∀ e ∈ seen, usedNoLater acc.2 e.2.lastUsed

/-- A last-used time is no later than itself. -/
theorem usedNoLater_refl (t : Option Instant) : usedNoLater t t := by
  cases t <;> simp [usedNoLater]

/-- Being used no later is transitive. -/
theorem usedNoLater_trans : {a b c : Option Instant} → usedNoLater a b → usedNoLater b c → usedNoLater a c
  | none, _, _, _, _ => trivial
  | some _, some _, some _, hab, hbc => le_trans hab hbc

/-- One step of the least-recently-used loop keeps its invariant. -/
theorem lruStep_invariant {seen : List (String × QuerierStatus)} {acc : Option String × Option Instant}
    (h : LruInvariant seen acc) (e : String × QuerierStatus) :
    LruInvariant (seen ++ [e]) (lruStep acc e) := by
  obtain ⟨d', st'⟩ := e
  obtain ⟨c, o⟩ := acc
  -- the visited entry becomes the candidate
  have fresh : ∀ t, st'.lastUsed = t → (∀ e ∈ seen, usedNoLater t e.2.lastUsed) →
      LruInvariant (seen ++ [(d', st')]) (some d', t) := by
    intro t ht hmin
    refine ⟨by simp, fun d hd => ?_⟩
    obtain rfl : d' = d := Option.some.inj hd
    refine ⟨st', by simp, ht, fun e he => ?_⟩
    rcases List.mem_append.mp he with he | he
    · exact hmin e he
    · rw [List.mem_singleton.mp he, ht]; exact usedNoLater_refl t
  -- the candidate stays
  have kept : c ≠ none → usedNoLater o st'.lastUsed → LruInvariant (seen ++ [(d', st')]) (c, o) := by
    intro hc hle
    refine ⟨fun h' => absurd h' hc, fun d hd => ?_⟩
    obtain ⟨status, hm, hl, hmin⟩ := h.some_min d hd
    refine ⟨status, List.mem_append_left _ hm, hl, fun e he => ?_⟩
    rcases List.mem_append.mp he with he | he
    · exact hmin e he
    · rw [List.mem_singleton.mp he]; exact hle
  cases hu : st'.lastUsed with
  | none =>
    simp only [lruStep, hu]
    exact fresh none hu fun _ _ => trivial
  | some t =>
    cases o with
    | none =>
      cases c with
      | none =>
        simp only [lruStep, hu, Option.isNone_none, if_true]
        exact fresh (some t) hu (by simp [(h.none_seen rfl).1])
      | some d =>
        simp only [lruStep, hu, Option.isNone_some, Bool.false_eq_true, if_false]
        exact kept (Option.some_ne_none d) trivial
    | some cur =>
      have hc : c ≠ none := fun hc => by simpa using (h.none_seen hc).2
      by_cases hlt : t < cur
      · simp only [lruStep, hu, hlt, if_true]
        obtain ⟨d, hd⟩ := Option.ne_none_iff_exists'.mp hc
        obtain ⟨-, -, -, hmin⟩ := h.some_min d hd
        have hle : usedNoLater (some t) (some cur) := le_of_lt hlt
        exact fresh (some t) hu fun e he => usedNoLater_trans hle (hmin e he)
      · simp only [lruStep, hu, hlt, if_false]
        exact kept hc (by simp only [hu, usedNoLater]; exact not_lt.mp hlt)

/-- The least-recently-used loop keeps its invariant over the entries it visits. -/
theorem foldl_lruStep_invariant (l seen : List (String × QuerierStatus))
    (acc : Option String × Option Instant) (h : LruInvariant seen acc) :
    LruInvariant (seen ++ l) (l.foldl lruStep acc) := by
  induction l generalizing seen acc with
  | nil => simpa using h
  | cons e l ih => simpa using ih (seen ++ [e]) (lruStep acc e) (lruStep_invariant h e)

/-- On a non-empty map the LRU fallback returns a domain whose last use is minimal. -/
theorem selectLeastRecentlyUsedQuerier_minimal {map : HashMap String QuerierStatus}
    (h : map.keys ≠ []) :
    ∃ d, selectLeastRecentlyUsedQuerier map = some d ∧ LeastRecentlyUsed map d := by
  have hinv := foldl_lruStep_invariant map.entries [] (none, none) ⟨fun _ => ⟨rfl, rfl⟩, by simp⟩
  have hne : map.entries ≠ [] := by simpa [HashMap.keys] using h
  have hsome : (map.entries.foldl lruStep (none, none)).1 ≠ none := fun hn =>
    hne (by simpa using (hinv.none_seen hn).1)
  obtain ⟨d, hd⟩ := Option.ne_none_iff_exists'.mp hsome
  obtain ⟨status, hm, hl, hmin⟩ := hinv.some_min d hd
  refine ⟨d, by simp [selectLeastRecentlyUsedQuerier, HashMap.isEmpty, hne, hd], status,
    HashMap.get?_eq_some_iff.mpr (by simpa using hm), ?_⟩
  rw [hl]
  exact fun e he => hmin e (by simpa using he)

/-- Over entries that have all been used, the loop's candidate is the first entry whose
last use is oldest: no entry was used earlier, and every entry before it later. -/
def FirstOldest (seen : List (String × QuerierStatus)) (acc : Option String × Option Instant) : Prop :=
  (seen = [] ∧ acc = (none, none)) ∨
    ∃ pre d status post t, seen = pre ++ (d, status) :: post ∧ status.lastUsed = some t ∧
      acc = (some d, some t) ∧ (∀ e ∈ seen, ∃ t', e.2.lastUsed = some t' ∧ t ≤ t') ∧
      ∀ e ∈ pre, ∃ t', e.2.lastUsed = some t' ∧ t < t'

/-- A used entry keeps the first oldest candidate: it takes over only when strictly older. -/
theorem firstOldest_lruStep {seen : List (String × QuerierStatus)} {acc : Option String × Option Instant}
    (h : FirstOldest seen acc) {e : String × QuerierStatus} {u : Instant} (hu : e.2.lastUsed = some u) :
    FirstOldest (seen ++ [e]) (lruStep acc e) := by
  obtain ⟨d', st'⟩ := e
  simp only at hu
  rcases h with ⟨rfl, rfl⟩ | ⟨pre, d, status, post, t, rfl, hs, rfl, hmin, hpre⟩
  · -- the first entry becomes the candidate
    exact .inr ⟨[], d', st', [], u, rfl, hu, by simp [lruStep, hu], by simp [hu], by simp⟩
  by_cases hlt : u < t
  · -- a strictly older entry takes over; every entry before it was used later
    refine .inr ⟨pre ++ (d, status) :: post, d', st', [], u, rfl, hu, by simp [lruStep, hu, hlt], ?_, ?_⟩
    · intro e he
      rcases List.mem_append.mp he with he | he
      · obtain ⟨t', ht', hle⟩ := hmin e he
        exact ⟨t', ht', le_of_lt (lt_of_lt_of_le hlt hle)⟩
      · rw [List.mem_singleton.mp he]
        exact ⟨u, hu, le_rfl⟩
    · intro e he
      obtain ⟨t', ht', hle⟩ := hmin e he
      exact ⟨t', ht', lt_of_lt_of_le hlt hle⟩
  · -- the candidate stays, and the entry was used no earlier
    refine .inr ⟨pre, d, status, post ++ [(d', st')], t, by simp, hs, by simp [lruStep, hu, hlt], ?_, hpre⟩
    intro e he
    rcases List.mem_append.mp he with he | he
    · exact hmin e he
    · rw [List.mem_singleton.mp he]
      exact ⟨u, hu, not_lt.mp hlt⟩

/-- Over entries that were all used, the loop keeps the first oldest one seen. -/
theorem foldl_firstOldest (l seen : List (String × QuerierStatus)) (acc : Option String × Option Instant)
    (h : FirstOldest seen acc) (hl : ∀ e ∈ l, e.2.lastUsed ≠ none) :
    FirstOldest (seen ++ l) (l.foldl lruStep acc) := by
  induction l generalizing seen acc with
  | nil => simpa using h
  | cons e l ih =>
    obtain ⟨u, hu⟩ := Option.ne_none_iff_exists'.mp (hl e (List.mem_cons_self _ _))
    simpa using ih (seen ++ [e]) (lruStep acc e) (firstOldest_lruStep h hu)
      fun e he => hl e (List.mem_cons_of_mem _ he)

/-- select_least_recently_used_querier returns None exactly on an empty map. On any
other map, if some entry was never used it returns a domain never used; if every entry
was used, the first domain in iteration order whose last use is oldest. -/
theorem selectLeastRecentlyUsedQuerier_choice (map : HashMap String QuerierStatus) :
    (selectLeastRecentlyUsedQuerier map = none ↔ map.entries = []) ∧
      ((∃ e ∈ map.entries, e.2.lastUsed = none) →
        ∃ d status, selectLeastRecentlyUsedQuerier map = some d ∧ map.get? d = some status ∧
          status.lastUsed = none) ∧
      ((∀ e ∈ map.entries, e.2.lastUsed ≠ none) → map.entries ≠ [] →
        ∃ pre d status post t, map.entries = pre ++ (d, status) :: post ∧ status.lastUsed = some t ∧
          selectLeastRecentlyUsedQuerier map = some d ∧
          (∀ e ∈ map.entries, ∃ t', e.2.lastUsed = some t' ∧ t ≤ t') ∧
          ∀ e ∈ pre, ∃ t', e.2.lastUsed = some t' ∧ t < t') := by
  have hkeys : map.entries ≠ [] → map.keys ≠ [] := by simp [HashMap.keys]
  refine ⟨⟨fun h => ?_, fun h => by simp [selectLeastRecentlyUsedQuerier, HashMap.isEmpty, h]⟩, ?_, ?_⟩
  · -- a non-empty map always yields a candidate
    by_contra hne
    obtain ⟨d, hd, -⟩ := selectLeastRecentlyUsedQuerier_minimal (hkeys hne)
    rw [h] at hd
    cases hd
  · -- a never-used entry forces the minimal last use to be None
    rintro ⟨e, he, hnone⟩
    obtain ⟨d, hd, status, hs, hmin⟩ :=
      selectLeastRecentlyUsedQuerier_minimal (hkeys (List.ne_nil_of_mem he))
    have hle := hmin e he
    rw [hnone] at hle
    refine ⟨d, status, hd, hs, ?_⟩
    cases hl : status.lastUsed with
    | none => rfl
    | some t => simp [hl, usedNoLater] at hle
  · intro hused hne
    rcases foldl_firstOldest map.entries [] (none, none) (.inl ⟨rfl, rfl⟩) hused with
      ⟨h, -⟩ | ⟨pre, d, status, post, t, hsplit, hs, hacc, hmin, hpre⟩
    · exact absurd (by simpa using h) hne
    refine ⟨pre, d, status, post, t, by simpa using hsplit, hs, ?_, by simpa using hmin, hpre⟩
    simp [selectLeastRecentlyUsedQuerier, HashMap.isEmpty, hne, hacc]

/-! ## get_available_querier -/

/-- The available domains are those whose entry is available. -/
theorem mem_availableQueriers {map : HashMap String QuerierStatus} {d : String} :
    d ∈ availableQueriers map ↔ ∃ status, map.get? d = some status ∧ status.available := by
  simp [availableQueriers, HashMap.get?_eq_some_iff]

/-- No domain is available exactly when no entry is. -/
theorem availableQueriers_eq_nil {map : HashMap String QuerierStatus} :
    availableQueriers map = [] ↔ ∀ e ∈ map.entries, e.2.available = false := by
  simp [availableQueriers, List.filter_eq_nil_iff]

/-- Round-robin chooses an available domain. -/
theorem roundRobinChoice_mem {available : List String} {p : Option String} {d : String}
    (h : roundRobinChoice available p = some d) : d ∈ available := by
  cases p with
  | none => exact List.mem_of_mem_head? h
  | some p =>
    simp only [roundRobinChoice, Option.or_eq_some] at h
    rcases h with h | ⟨-, h⟩
    · exact List.mem_iff_getElem?.mpr ⟨_, h⟩
    · exact List.mem_of_mem_head? h

/-- Dispatching a present domain marks it used now and returns its metadata. -/
theorem dispatchQuerier_of_get? {map : HashMap String QuerierStatus} {d : String}
    {status : QuerierStatus} (now : Instant) (h : map.get? d = some status) :
    dispatchQuerier map now d = some (map.modify d (QuerierStatus.dispatch now), status.metadata) := by
  simp [dispatchQuerier, h]

/-- After refreshing, get_available_querier dispatches exactly one entry, chosen by
round robin among the available ones or else by least recent use, or finds the map
empty and fails. -/
theorem getAvailableQuerier_selects {M : List NodeMetadata} (hM : M ≠ []) (rs : List LivenessResult)
    (now : Instant) (s : Dispatcher) :
    let out := getAvailableQuerier (.ok M) rs now s
    let map := refreshQuerierMap s.querierMap rs
    (∃ d status, map.get? d = some status ∧
        out.1.querierMap = map.modify d (QuerierStatus.dispatch now) ∧ out.2 = .ok status.metadata ∧
        (availableQueriers map ≠ [] ∧
            roundRobinChoice (availableQueriers map) s.lastUsedQuerier = some d ∧
            out.1.lastUsedQuerier = some d ∨
          availableQueriers map = [] ∧ LeastRecentlyUsed map d ∧
            out.1.lastUsedQuerier = s.lastUsedQuerier)) ∨
      liveDomains rs = [] ∧ map.keys = [] ∧
        out = (⟨map, s.lastUsedQuerier⟩, .error .noAvailableQuerier) := by
  intro out map
  have hout : out = getAvailableQuerier (.ok M) rs now s := rfl
  simp only [getAvailableQuerier, List.isEmpty_iff, hM, if_false, selectNextQuerier_eq] at hout
  by_cases hav : availableQueriers map = []
  · simp only [hav, if_true, Option.none_bind] at hout
    by_cases hk : map.keys = []
    · have hsel : selectLeastRecentlyUsedQuerier map = none := by
        simp [selectLeastRecentlyUsedQuerier, hk]
      have hlive : liveDomains rs = [] := List.eq_nil_iff_forall_not_mem.mpr fun d hd =>
        by simpa [hk] using ((refreshQuerierMap_spec s.querierMap rs).keys_iff d).mpr hd
      exact .inr ⟨hlive, hk, by simpa [hsel] using hout⟩
    · obtain ⟨d, hsel, hlru⟩ := selectLeastRecentlyUsedQuerier_minimal hk
      obtain ⟨status, hs, -⟩ := id hlru
      rw [hsel, Option.some_bind, dispatchQuerier_of_get? now hs] at hout
      exact .inl ⟨d, status, hs, by rw [hout], by rw [hout], .inr ⟨hav, hlru, by rw [hout]⟩⟩
  · obtain ⟨d, hd⟩ := Option.isSome_iff_exists.mp (roundRobinChoice_isSome hav s.lastUsedQuerier)
    obtain ⟨status, hs, -⟩ := mem_availableQueriers.mp (roundRobinChoice_mem hd)
    simp only [hav, if_false, hd, Option.some_bind, dispatchQuerier_of_get? now hs] at hout
    exact .inl ⟨d, status, hs, by rw [hout], by rw [hout], .inl ⟨hav, hd, by rw [hout]⟩⟩

/-- The behaviour of one get_available_querier call on every registry, pointer,
metadata list and liveness outcome: the refresh, then one selected entry, which alone
changes, to unavailable and used now. -/
theorem getAvailableQuerier_behaviour (M : List NodeMetadata) (rs : List LivenessResult)
    (now : Instant) (s : Dispatcher) :
    let out := getAvailableQuerier (.ok M) rs now s
    let map := refreshQuerierMap s.querierMap rs
    let available := (map.entries.filter fun e => e.2.available).map (·.1)
    (M = [] → out = (s, .error .noAvailableQuerier)) ∧
    (M ≠ [] → RefreshSpec s.querierMap rs map ∧
      ((∃ d status, map.get? d = some status ∧
          out.1.querierMap.get? d = some ⟨status.metadata, false, some now⟩ ∧
          (∀ d', d' ≠ d → out.1.querierMap.get? d' = map.get? d') ∧ out.2 = .ok status.metadata ∧
          ((∃ e ∈ map.entries, e.2.available = true) ∧ roundRobinChoice available s.lastUsedQuerier = some d ∧
              out.1.lastUsedQuerier = some d ∨
            (∀ e ∈ map.entries, e.2.available = false) ∧ LeastRecentlyUsed map d ∧
              out.1.lastUsedQuerier = s.lastUsedQuerier)) ∨
        liveDomains rs = [] ∧ map.keys = [] ∧
          out = (⟨map, s.lastUsedQuerier⟩, .error .noAvailableQuerier))) := by
  intro out map available
  refine ⟨fun hM => by subst hM; rfl, fun hM => ⟨refreshQuerierMap_spec _ _, ?_⟩⟩
  rcases getAvailableQuerier_selects hM rs now s with ⟨d, status, hs, hmap, hres, hcase⟩ | hnone
  · have hmap : out.1.querierMap = map.modify d (QuerierStatus.dispatch now) := hmap
    refine .inl ⟨d, status, hs, by simp [hmap, hs, QuerierStatus.dispatch], fun d' hd => by simp [hmap, hd],
      hres, ?_⟩
    rcases hcase with ⟨hav, hrr, hlast⟩ | ⟨hav, hlru, hlast⟩
    · -- an available domain is an available entry
      obtain ⟨d', hd'⟩ := List.exists_mem_of_ne_nil _ hav
      obtain ⟨st, hst, hst'⟩ := mem_availableQueriers.mp hd'
      exact .inl ⟨⟨(d', st), HashMap.get?_eq_some_iff.mp hst, hst'⟩, hrr, hlast⟩
    · exact .inr ⟨availableQueriers_eq_nil.mp hav, hlru, hlast⟩
  · exact .inr hnone

end Parseable.QuerierRegistry

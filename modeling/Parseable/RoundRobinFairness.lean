import Mathlib.Data.List.Chain
import Parseable.RoundRobin

/-!
# Round robin under overlapping queries

With queries in flight the last-used pointer may name a busy querier, and then
select_next_querier restarts from the first available entry rather than from the
pointer's position. A querier late in the iteration order can then be passed over
at every acquire while it stays available. The walk is fair again as soon as the
querier an acquire returned is available at the next acquire: the cyclic distance
from the pointer to any available querier then shrinks at every acquire, so each
such querier is reached within `n` acquires.
-/

namespace Parseable.RoundRobinFairness

open QuerierRegistry RegistryInvariant RoundRobin

/-! ## Cyclic distance -/

variable {ks : List String} {p q c : String}

/-- The keys in the order round robin visits them after `p`, ending with `p`. -/
def after (ks : List String) (p : String) : List String := ks.rotate (ks.indexOf p + 1)

/-- How many acquires round robin needs from `p` to reach `q` when every querier is
available, less one. -/
def distance (ks : List String) (p q : String) : Nat := (after ks p).indexOf q

/-- The domains after `p` in iteration order, wrapping around, end with `p`. -/
theorem after_of_append {l₁ l₂ : List String} (hnd : (l₁ ++ p :: l₂).Nodup) :
    after (l₁ ++ p :: l₂) p = l₂ ++ l₁ ++ [p] := by
  have hp : p ∉ l₁ := fun h => (List.nodup_append.mp hnd).2.2 h (List.mem_cons_self _ _)
  have hi : (l₁ ++ p :: l₂).indexOf p = l₁.length := by
    rw [List.indexOf_append_of_not_mem hp, List.indexOf_cons_self]; rfl
  rw [after, hi]
  simpa using List.rotate_append_length_eq (l₁ ++ [p]) l₂

/-- The order after `c` does not depend on which rotation of the keys it is read from. -/
theorem after_rotate (hnd : ks.Nodup) (hc : c ∈ ks) (k : Nat) :
    after (ks.rotate k) c = after ks c := by
  have hpos : 0 < ks.length := List.length_pos_of_mem hc
  have hj := List.indexOf_lt_length.mpr ((List.mem_rotate).mpr hc : c ∈ ks.rotate k)
  have hlt : ((ks.rotate k).indexOf c + k) % ks.length < ks.length := Nat.mod_lt _ hpos
  have hget : ks[((ks.rotate k).indexOf c + k) % ks.length] = c := by
    rw [← List.getElem_rotate ks k _ hj, List.getElem_indexOf]
  have hidx : ks.indexOf c = ((ks.rotate k).indexOf c + k) % ks.length := by
    have h := List.indexOf_getElem hnd _ hlt
    rwa [hget] at h
  rw [after, after, List.rotate_rotate, ← List.rotate_mod, ← List.rotate_mod ks (ks.indexOf c + 1),
    hidx, Nat.mod_add_mod]
  congr 2
  omega

/-- Round robin from an available `p` takes the first available key after `p`. -/
theorem roundRobinChoice_filter (hnd : ks.Nodup) (hp : p ∈ ks) {A : String → Bool} (hA : A p) :
    roundRobinChoice (ks.filter A) (some p) = (after ks p).find? A := by
  obtain ⟨l₁, l₂, rfl⟩ := List.append_of_mem hp
  have hp₁ : p ∉ l₁ := fun h => (List.nodup_append.mp hnd).2.2 h (List.mem_cons_self _ _)
  have hp₁' : p ∉ l₁.filter A := fun h => hp₁ (List.mem_of_mem_filter h)
  rw [after_of_append hnd]
  simp only [roundRobinChoice, List.filter_append, List.filter_cons_of_pos hA,
    List.indexOf_append_of_not_mem hp₁', List.indexOf_cons_self, List.find?_append,
    List.find?_cons_of_pos _ hA, List.filter_head?]
  rw [List.getElem?_append_right (by omega)]
  simp [← List.head?_eq_getElem?, Option.or_assoc]

/-- Between two distinct domains of a nodup list lie fewer than the length minus one steps. -/
theorem distance_add_two_le (hnd : ks.Nodup) (hp : p ∈ ks) (hq : q ∈ ks) (hpq : p ≠ q) :
    distance ks p q + 2 ≤ ks.length := by
  obtain ⟨l₁, l₂, rfl⟩ := List.append_of_mem hp
  have hq' : q ∈ l₂ ++ l₁ := by
    simp only [List.mem_append, List.mem_cons] at hq ⊢
    rcases hq with h | h | h
    · exact .inr h
    · exact absurd h.symm hpq
    · exact .inl h
  rw [distance, after_of_append hnd, List.indexOf_append_of_mem hq']
  have := List.indexOf_lt_length.mpr hq'
  simp only [List.length_append, List.length_cons] at this ⊢
  omega

/-- When the pointer names an available querier, the round-robin choice is strictly
closer to every other available querier. -/
theorem distance_choice_lt (hnd : ks.Nodup) (hp : p ∈ ks) (hq : q ∈ ks) {A : String → Bool}
    (hAp : A p) (hAq : A q) (hc : roundRobinChoice (ks.filter A) (some p) = some c)
    (hcq : c ≠ q) : distance ks c q < distance ks p q := by
  rw [roundRobinChoice_filter hnd hp hAp] at hc
  obtain ⟨-, X, Y, hsplit, hX⟩ := List.find?_eq_some.mp hc
  have hq' : q ∈ after ks p := List.mem_rotate.mpr hq
  have hqY : q ∈ Y := by
    rw [hsplit] at hq'
    rcases List.mem_append.mp hq' with h | h
    · exact absurd hAq (by simpa using hX q h)
    · exact (List.mem_cons.mp h).resolve_left (Ne.symm hcq)
  have hndp : (X ++ c :: Y).Nodup := hsplit ▸ List.nodup_rotate.mpr hnd
  have hcX : c ∉ X := fun h => (List.nodup_append.mp hndp).2.2 h (List.mem_cons_self _ _)
  have hafter : after ks c = Y ++ X ++ [c] := by
    rw [← after_rotate hnd (List.mem_rotate.mp (hsplit ▸ List.mem_append_right X (List.mem_cons_self c Y)))
      (ks.indexOf p + 1), ← after, hsplit, after_of_append hndp]
  rw [distance, distance, hafter, List.append_assoc, List.indexOf_append_of_mem hqY, hsplit,
    List.indexOf_append_of_not_mem (fun h => absurd hAq (by simpa using hX q h)), List.indexOf_cons_ne _ hcq]
  omega

/-! ## Runs of acquires and releases -/

/-- A call on the registry: get_available_querier or mark_querier_available. -/
inductive DispatchEvent
  | acquire (querierMetadata : List NodeMetadata) (livenessResults : List LivenessResult) (now : Instant)
  | release (domainName : String)

/-- The acquires of a run, each with the state it started from and what it returned. -/
def acquireTrace : Dispatcher → List DispatchEvent → List (Dispatcher × Except QueryError QuerierMetadata)
  | _, [] => []
  | s, .acquire M rs now :: evs =>
    (s, (getAvailableQuerier (.ok M) rs now s).2) :: acquireTrace (getAvailableQuerier (.ok M) rs now s).1 evs
  | s, .release d :: evs => acquireTrace (markQuerierAvailable d s) evs

/-- The state a run ends in. -/
def runEvents : Dispatcher → List DispatchEvent → Dispatcher
  | s, [] => s
  | s, .acquire M rs now :: evs => runEvents (getAvailableQuerier (.ok M) rs now s).1 evs
  | s, .release d :: evs => runEvents (markQuerierAvailable d s) evs

/-- Running events from a reachable registry reaches a registry. -/
theorem reachable_runEvents {s : Dispatcher} (hs : RegistryReachable s) :
    ∀ evs, RegistryReachable (runEvents s evs)
  | [] => hs
  | .acquire _ _ _ :: evs => reachable_runEvents (hs.tail (.acquire _ _ _ _)) evs
  | .release _ :: evs => reachable_runEvents (hs.tail (.release _ _)) evs

/-- The acquires of a run all find exactly the domains of `ks` live. -/
def LiveSetIs (ks : List String) : DispatchEvent → Prop
  | .acquire querierMetadata livenessResults _ => ReportsLive ks querierMetadata livenessResults
  | .release _ => True

/-- The querier an acquire returned is available again at the next acquire. -/
def Released (a b : Dispatcher × Except QueryError QuerierMetadata) : Bool :=
  match a.2 with
  | .ok md => availableIn b.1.querierMap md.domainName
  | .error _ => true

/-- The induction behind fairness. `B` acquires are left; either `B ≥ n`, or the
pointer names an available querier other than `q` from which `q` is at most `B - 1`
acquires away. Then one of them returns `q`. -/
theorem reaches_within (hne : ks ≠ []) (q : String) :
    ∀ (evs : List DispatchEvent) (s : Dispatcher) (B : Nat), RegistryWF s.querierMap →
      s.querierMap.keys = ks → (∀ e ∈ evs, LiveSetIs ks e) → B ≤ (acquireTrace s evs).length →
      (∀ x ∈ acquireTrace s evs, availableIn x.1.querierMap q) →
      (acquireTrace s evs).Chain' (fun a b => Released a b) →
      (ks.length ≤ B ∨ ∃ p, s.lastUsedQuerier = some p ∧ p ∈ ks ∧ p ≠ q ∧
        (∀ x ∈ (acquireTrace s evs).head?, availableIn x.1.querierMap p) ∧ distance ks p q + 1 ≤ B) →
      ∃ x ∈ acquireTrace s evs, ∃ md, x.2 = .ok md ∧ md.domainName = q
  | [], s, B, _, _, _, hB, _, _, hptr => by
    have : ks.length ≠ 0 := by simpa using hne
    simp only [acquireTrace, List.length_nil, Nat.le_zero] at hB
    subst hB
    rcases hptr with h | ⟨_, _, _, _, _, h⟩ <;> omega
  | .release d :: evs, s, B, hwf, hks, hlive, hB, hq, hback, hptr =>
    reaches_within hne q evs (markQuerierAvailable d s) B (hwf.markQuerierAvailable d)
      (by simpa [markQuerierAvailable] using hks) (fun e he => hlive e (List.mem_cons_of_mem _ he))
      hB hq hback hptr
  | .acquire M rs now :: evs, s, B, hwf, hks, hlive, hB, hq, hback, hptr => by
    simp only [acquireTrace] at hB hq hback ⊢
    have hqs := hq _ (List.mem_cons_self _ _)
    have hqk : q ∈ ks := hks ▸ HashMap.mem_keys.mpr (by
      cases h : s.querierMap.get? q <;> simp_all [availableIn])
    have hlive' : ReportsLive s.querierMap.keys M rs := hks ▸ hlive _ (List.mem_cons_self _ _)
    obtain ⟨md, hok, hrr, hmap, hp⟩ := acquire_roundRobin now hwf hlive'
      (List.ne_nil_of_mem (List.mem_filter.mpr ⟨hks ▸ hqk, hqs⟩))
    by_cases hmq : md.domainName = q
    · exact ⟨_, List.mem_cons_self _ _, md, hok, hmq⟩
    have hmk : md.domainName ∈ ks := hks ▸ List.mem_of_mem_filter (roundRobinChoice_mem hrr)
    have hnd : ks.Nodup := hks ▸ s.querierMap.nodup
    -- the new pointer is closer to `q` than the budget left
    have hdist : distance ks md.domainName q + 1 ≤ B - 1 := by
      rcases hptr with hn | ⟨p, hps, hpk, -, hpa, hpd⟩
      · have := distance_add_two_le hnd hmk hqk hmq
        omega
      · rw [hps, hks] at hrr
        have := distance_choice_lt hnd hpk hqk (hpa _ rfl) hqs hrr hmq
        omega
    obtain ⟨hnext, hback'⟩ := List.chain'_cons'.mp hback
    obtain ⟨y, hy, md', hy', hq'⟩ := reaches_within hne q evs _ (B - 1)
      (hwf.getAvailableQuerier _ rs now) (by rw [hmap, HashMap.keys_modify,
        (refreshQuerierMap_of_keys hlive'.live_mem hlive'.mem_live).1, hks])
      (fun e he => hlive e (List.mem_cons_of_mem _ he)) (by simp at hB; omega)
      (fun x hx => hq x (List.mem_cons_of_mem _ hx)) hback'
      (.inr ⟨md.domainName, hp, hmk, hmq, fun x hx => by simpa [Released, hok] using hnext x hx, hdist⟩)
    exact ⟨y, List.mem_cons_of_mem _ hy, md', hy', hq'⟩

/-- Round robin reaches every querier that stays available, within `n` acquires, as
long as the querier each acquire returns is available again at the next one. -/
theorem round_robin_fair_when_released {s : Dispatcher} {evs : List DispatchEvent} {q : String}
    (hwf : RegistryWF s.querierMap) (hne : s.querierMap.keys ≠ [])
    (hlive : ∀ e ∈ evs, LiveSetIs s.querierMap.keys e)
    (hlen : (acquireTrace s evs).length = s.querierMap.keys.length)
    (hq : ∀ x ∈ acquireTrace s evs, availableIn x.1.querierMap q)
    (hback : (acquireTrace s evs).Chain' fun a b => Released a b) :
    ∃ x ∈ acquireTrace s evs, ∃ md, x.2 = .ok md ∧ md.domainName = q :=
  reaches_within hne q evs s _ hwf rfl hlive hlen.ge hq hback (.inl le_rfl)

/-! ## Overlapping queries over three queriers -/

/-- One querier of the three below, named by its domain. -/
def querierNamed (d : String) : NodeMetadata := ⟨d, "t", "querier"⟩

/-- An acquire whose probe finds `a`, `b` and `c` live. -/
def acquireAll (now : Instant) : DispatchEvent :=
  .acquire [querierNamed "a", querierNamed "b", querierNamed "c"]
    [⟨querierNamed "a", true⟩, ⟨querierNamed "b", true⟩, ⟨querierNamed "c", true⟩] now

/-- Two queries are dispatched, to `a` and then `b`, and the first finishes: the
pointer names `b`, which is still busy. -/
def overlapStart : Dispatcher := runEvents Dispatcher.init [acquireAll 1, acquireAll 2, .release "a"]

/-- The keys of the overlap scenario's start. -/
theorem keys_overlapStart : overlapStart.querierMap.keys = ["a", "b", "c"] := rfl

/-- The acquires of the overlap scenario find the three queriers live. -/
theorem liveSetIs_acquireAll (now : Instant) : LiveSetIs ["a", "b", "c"] (acquireAll now) :=
  ⟨by decide, by decide, by decide⟩

/-- From the same state, releasing each returned querier before the next acquire:
`a`, then `c`, then `a` are returned while `b` stays busy. -/
theorem round_robin_fair_when_released_overlap :
    let evs := [acquireAll 3, .release "a", acquireAll 4, .release "c", acquireAll 5]
    RegistryWF overlapStart.querierMap ∧ overlapStart.querierMap.keys ≠ [] ∧
      (∀ e ∈ evs, LiveSetIs overlapStart.querierMap.keys e) ∧
      (acquireTrace overlapStart evs).length = overlapStart.querierMap.keys.length ∧
      (∀ x ∈ acquireTrace overlapStart evs, availableIn x.1.querierMap "c") ∧
      (acquireTrace overlapStart evs).Chain' (fun a b => Released a b) ∧
      ∃ x ∈ acquireTrace overlapStart evs, ∃ md, x.2 = .ok md ∧ md.domainName = "c" := by
  intro evs
  have hwf : RegistryWF overlapStart.querierMap := registryWF_of_reachable (reachable_runEvents .refl _)
  have hlive : ∀ e ∈ evs, LiveSetIs overlapStart.querierMap.keys e := by
    simp [evs, keys_overlapStart, liveSetIs_acquireAll, LiveSetIs.eq_2]
  have hq : ∀ x ∈ acquireTrace overlapStart evs, availableIn x.1.querierMap "c" := by decide
  have hback : (acquireTrace overlapStart evs).Chain' (fun a b => Released a b) :=
    List.chain'_cons.mpr ⟨by decide, List.chain'_cons.mpr ⟨by decide, List.chain'_singleton _⟩⟩
  exact ⟨hwf, by decide, hlive, by decide, hq, hback,
    round_robin_fair_when_released hwf (by decide) hlive (by decide) hq hback⟩

/-- Each query finishes after the next one is dispatched. The pointer then always names
a busy querier, every acquire restarts from the first available entry, and `c` stays
available and is never returned in three acquires. -/
theorem round_robin_can_pass_over_available_querier :
    ¬ ∀ (s : Dispatcher) (evs : List DispatchEvent) (q : String),
      RegistryReachable s → s.querierMap.keys ≠ [] →
      (∀ e ∈ evs, LiveSetIs s.querierMap.keys e) →
      (acquireTrace s evs).length = s.querierMap.keys.length →
      (∀ x ∈ acquireTrace s evs, availableIn x.1.querierMap q) →
      ∃ x ∈ acquireTrace s evs, ∃ md, x.2 = .ok md ∧ md.domainName = q := by
  intro h
  let window := [acquireAll 3, .release "b", acquireAll 4, .release "a", acquireAll 5]
  obtain ⟨x, hx, md, hmd, hq⟩ := h overlapStart window "c"
    (reachable_runEvents .refl _) (by decide)
    (by simp [window, keys_overlapStart, liveSetIs_acquireAll, LiveSetIs.eq_2]) (by decide) (by decide)
  have hres : (acquireTrace overlapStart window).map (fun x => x.2.map (·.domainName)) =
      [.ok "a", .ok "b", .ok "a"] := rfl
  have hc : Except.ok "c" ∈ (acquireTrace overlapStart window).map (fun x => x.2.map (·.domainName)) :=
    List.mem_map.mpr ⟨x, hx, by rw [hmd, ← hq]; rfl⟩
  rw [hres] at hc
  simp at hc

end Parseable.RoundRobinFairness

import Mathlib.Data.List.Perm.Basic
import Parseable.BillingMetrics

/-!
# Scraping the cluster's metrics

fetch_cluster_metrics and fetch_cluster_billing_metrics load the metadata of the
four roles, scrape `/metrics` on every node of each role concurrently
(buffer_unordered, so the results come in any order) and combine what the nodes
returned. Both abort when a role's metadata fails to load. They differ on a node
whose scrape fails: the billing collector logs it and goes on, so its events are,
as a multiset, those of the nodes scraped successfully; the metrics collector
returns the first such error, so one node with an invalid URL, an unreadable body or
samples that Metrics::from_prometheus_samples rejects fails the whole collection.

prometheus_parse::Scrape::parse, Metrics::from_prometheus_samples and the outcome of
each node's requests are parameters: the code under study takes them as given. The
code hands Scrape::parse the body's lines, each wrapped in Ok, so its error branch is
kept as written but only a parser that fails on text reaches it.
-/

namespace Parseable.ClusterMetrics

open BillingMetrics

/-- `PostError`, the variants the collectors raise. -/
inductive PostError
  | invalid (message : String)
  | networkError (message : String)
  | customError (message : String)

/-- How the requests of one scrape of a node's `/metrics` went. -/
inductive ScrapeOutcome
  /-- Url::parse of the node's metrics URL failed. -/
  | invalidUrl (message : String)
  /-- check_liveness answered false. -/
  | notLive
  /-- send() failed. -/
  | requestFailed
  /-- res.text() failed. -/
  | bodyUnreadable (message : String)
  /-- The body of the reply. -/
  | body (text : String)

/-- A computation that succeeds ran its first step successfully. -/
theorem bind_eq_ok {ε α β : Type} {x : Except ε α} {f : α → Except ε β} {b : β} (h : x >>= f = .ok b) :
    ∃ a, x = .ok a ∧ f a = .ok b := by
  cases x with
  | error e => cases h
  | ok a => exact ⟨a, rfl, h⟩

/-- A computation succeeds exactly when its first step does and the rest does from there. -/
theorem bind_isOk_iff {ε α β : Type} {x : Except ε α} {f : α → Except ε β} :
    (∃ b, x >>= f = .ok b) ↔ ∃ a, x = .ok a ∧ ∃ b, f a = .ok b := by
  cases x <;> simp [bind, Except.bind]

/-- Relabelling the error leaves a success as it is. -/
theorem mapError_eq_ok {ε ε' α : Type} {x : Except ε α} {f : ε → ε'} {a : α} :
    x.mapError f = .ok a ↔ x = .ok a := by
  cases x <;> simp [Except.mapError]

section Scrape

variable (parseScrape : String → Except String (List Sample))

/-- What fetch_node_metrics and fetch_node_billing_metrics share: the node's samples,
`none` when it is not live or the request failed, or the error they return. -/
def scrapeNode (outcome : ScrapeOutcome) : Except PostError (Option (List Sample)) :=
  match outcome with
  | .invalidUrl err => .error (.invalid ("Invalid URL in node metadata: " ++ err))
  | .notLive => .ok none
  | .requestFailed => .ok none
  | .bodyUnreadable err => .error (.networkError err)
  | .body text =>
    match parseScrape text with
    | .ok samples => .ok (some samples)
    | .error err => .error (.customError err)

/-- The samples of a node whose scrape succeeded. -/
def scrapedSamples (outcome : ScrapeOutcome) : Option (List Sample) :=
  match outcome with
  | .body text => (parseScrape text).toOption
  | _ => none

/-- A scrape either errs, with no samples, or returns the samples it succeeded with. -/
theorem scrapeNode_eq (outcome : ScrapeOutcome) :
    (∃ err, scrapeNode parseScrape outcome = .error err ∧ scrapedSamples parseScrape outcome = none) ∨
      scrapeNode parseScrape outcome = .ok (scrapedSamples parseScrape outcome) := by
  cases outcome with
  | body text => cases h : parseScrape text <;> simp [scrapeNode, scrapedSamples, h, Except.toOption]
  | _ => simp [scrapeNode, scrapedSamples]

end Scrape

/-- A querier of the cluster, named by its domain. -/
def querierNode (domainName : String) : NodeMetadata := ⟨domainName, "Basic cXVlcmllcg==", "querier"⟩

/-- A cluster whose only node is one querier. -/
def querierOnly (node : NodeMetadata) : NodeType → List NodeMetadata
  | .querier => [node]
  | _ => []

/-! ## fetch_cluster_metrics -/

section Metrics

variable {Metrics : Type} (parseScrape : String → Except String (List Sample))
  (fromPrometheusSamples : List Sample → NodeMetadata → Except String Metrics)
  (outcome : NodeMetadata → ScrapeOutcome)

/-- `fetch_node_metrics`. -/
def fetchNodeMetrics (node : NodeMetadata) : Except PostError (Option Metrics) :=
  match scrapeNode parseScrape (outcome node) with
  | .error err => .error err
  | .ok none => .ok none
  | .ok (some samples) =>
    match fromPrometheusSamples samples node with
    | .ok metrics => .ok (some metrics)
    | .error err => .error (.invalid err)

/-- The loop of fetch_nodes_metrics over the results, in completion order. -/
def collectMetrics : List (Except PostError (Option Metrics)) → Except PostError (List Metrics)
  | [] => .ok []
  | .ok (some metrics) :: results => (collectMetrics results).map (metrics :: ·)
  | .ok none :: results => collectMetrics results
  | .error err :: _ => .error err

/-- `fetch_nodes_metrics`; `completed` lists the nodes in the order buffer_unordered
completed their scrapes. -/
def fetchNodesMetrics (nodes completed : List NodeMetadata) : Except PostError (List Metrics) :=
  if nodes.length = 0 then .ok []
  else collectMetrics (completed.map (fetchNodeMetrics parseScrape fromPrometheusSamples outcome))

/-- `fetch_cluster_metrics`, given what get_node_info returned for each role and the
completion order of each role's scrapes. -/
def fetchClusterMetrics (nodeInfo : NodeType → Except String (List NodeMetadata))
    (completed : NodeType → List NodeMetadata) : Except PostError (List Metrics) := do
  let prismMetadata ← (nodeInfo .prism).mapError PostError.invalid
  let querierMetadata ← (nodeInfo .querier).mapError PostError.invalid
  let ingestorMetadata ← (nodeInfo .ingestor).mapError PostError.invalid
  let indexerMetadata ← (nodeInfo .indexer).mapError PostError.invalid
  let fetch := fetchNodesMetrics parseScrape fromPrometheusSamples outcome
  let prismMetrics ← fetch prismMetadata (completed .prism)
  let querierMetrics ← fetch querierMetadata (completed .querier)
  let ingestorMetrics ← fetch ingestorMetadata (completed .ingestor)
  let indexerMetrics ← fetch indexerMetadata (completed .indexer)
  return prismMetrics ++ querierMetrics ++ ingestorMetrics ++ indexerMetrics

/-- The outcomes on which fetch_node_metrics returns an error: an invalid URL, an unreadable
body, a body Scrape::parse rejects, or samples Metrics::from_prometheus_samples rejects. -/
def FailedScrape (node : NodeMetadata) : Prop :=
  (∃ msg, outcome node = .invalidUrl msg) ∨ (∃ msg, outcome node = .bodyUnreadable msg) ∨
    ∃ text, outcome node = .body text ∧ ((∃ err, parseScrape text = .error err) ∨
      ∃ samples err, parseScrape text = .ok samples ∧ fromPrometheusSamples samples node = .error err)

/-- collect_metrics succeeds exactly when none of the results is an error. -/
theorem collectMetrics_isOk_iff {results : List (Except PostError (Option Metrics))} :
    (∃ ms, collectMetrics results = .ok ms) ↔ ∀ err, .error err ∉ results := by
  induction results with
  | nil => simp [collectMetrics]
  | cons r results ih =>
    cases r with
    | error e => exact ⟨fun ⟨_, h⟩ => (by cases h), fun h => absurd (List.mem_cons_self _ _) (h e)⟩
    | ok o =>
      have hstep : (∃ ms, collectMetrics (.ok o :: results) = .ok ms) ↔ ∃ ms, collectMetrics results = .ok ms := by
        cases o with
        | none => rfl
        | some m =>
          simp only [collectMetrics]
          cases collectMetrics results <;> simp [Except.map]
      simp [hstep, ih]

/-- fetch_node_metrics fails exactly on the outcomes of `FailedScrape`. -/
theorem fetchNodeMetrics_isError_iff (node : NodeMetadata) :
    (∃ err, fetchNodeMetrics parseScrape fromPrometheusSamples outcome node = .error err) ↔
      FailedScrape parseScrape fromPrometheusSamples outcome node := by
  unfold fetchNodeMetrics FailedScrape
  cases outcome node with
  | body text =>
    cases hp : parseScrape text with
    | error e => simp [scrapeNode, hp]
    | ok samples => cases hf : fromPrometheusSamples samples node <;> simp [scrapeNode, hp, hf]
  | _ => simp [scrapeNode]

variable {parseScrape fromPrometheusSamples outcome}

/-- Whatever order its scrapes complete in, a role succeeds exactly when none of its nodes'
scrapes fails. -/
theorem fetchNodesMetrics_isOk_iff {nodes completed : List NodeMetadata} (hc : completed.Perm nodes) :
    (∃ ms, fetchNodesMetrics parseScrape fromPrometheusSamples outcome nodes completed = .ok ms) ↔
      ∀ node ∈ nodes, ¬FailedScrape parseScrape fromPrometheusSamples outcome node := by
  unfold fetchNodesMetrics
  split
  · rename_i hn
    simp [List.length_eq_zero.mp hn]
  · simp only [collectMetrics_isOk_iff, List.mem_map, hc.mem_iff, ← fetchNodeMetrics_isError_iff]
    exact ⟨fun h node hn ⟨err, he⟩ => h err ⟨node, hn, he⟩, fun h err ⟨node, hn, he⟩ => h node hn ⟨err, he⟩⟩

section Loaded

variable {nodeInfo : NodeType → Except String (List NodeMetadata)} {completed : NodeType → List NodeMetadata}
  (hcompleted : ∀ role nodes, nodeInfo role = .ok nodes → (completed role).Perm nodes)
  {prism querier ingestor indexer : List NodeMetadata} (hp : nodeInfo .prism = .ok prism)
  (hq : nodeInfo .querier = .ok querier) (hi : nodeInfo .ingestor = .ok ingestor)
  (hx : nodeInfo .indexer = .ok indexer)

include hp hq hi hx in
/-- With every role loaded, fetch_cluster_metrics scrapes the four roles in turn. -/
theorem fetchClusterMetrics_of_loaded :
    fetchClusterMetrics parseScrape fromPrometheusSamples outcome nodeInfo completed = (do
      let prismMetrics ← fetchNodesMetrics parseScrape fromPrometheusSamples outcome prism (completed .prism)
      let querierMetrics ← fetchNodesMetrics parseScrape fromPrometheusSamples outcome querier (completed .querier)
      let ingestorMetrics ← fetchNodesMetrics parseScrape fromPrometheusSamples outcome ingestor (completed .ingestor)
      let indexerMetrics ← fetchNodesMetrics parseScrape fromPrometheusSamples outcome indexer (completed .indexer)
      return prismMetrics ++ querierMetrics ++ ingestorMetrics ++ indexerMetrics) := by
  simp only [fetchClusterMetrics, hp, hq, hi, hx, Except.mapError, bind, Except.bind]

include hcompleted hp hq hi hx in
/-- With every role loaded, fetch_cluster_metrics succeeds exactly when no node's scrape fails. -/
theorem fetchClusterMetrics_isOk_iff :
    (∃ ms, fetchClusterMetrics parseScrape fromPrometheusSamples outcome nodeInfo completed = .ok ms) ↔
      ∀ node ∈ prism ++ querier ++ ingestor ++ indexer, ¬FailedScrape parseScrape fromPrometheusSamples outcome node := by
  simp only [fetchClusterMetrics_of_loaded hp hq hi hx, bind_isOk_iff, exists_and_right, pure, Except.pure,
    Except.ok.injEq, exists_eq', and_true, fetchNodesMetrics_isOk_iff (hcompleted _ _ hp), fetchNodesMetrics_isOk_iff (hcompleted _ _ hq),
    fetchNodesMetrics_isOk_iff (hcompleted _ _ hi), fetchNodesMetrics_isOk_iff (hcompleted _ _ hx),
    List.forall_mem_append, and_assoc]

include hcompleted hp hq hi hx in
/-- With every role loaded, one node whose scrape fails (its body unreadable, or its samples
rejected by Metrics::from_prometheus_samples) makes fetch_cluster_metrics return an error
instead of skipping that node. -/
theorem fetchClusterMetrics_fails_on_failed_scrape {node : NodeMetadata}
    (hnode : node ∈ prism ++ querier ++ ingestor ++ indexer)
    (hfail : FailedScrape parseScrape fromPrometheusSamples outcome node) :
    ∃ err, fetchClusterMetrics parseScrape fromPrometheusSamples outcome nodeInfo completed = .error err := by
  cases h : fetchClusterMetrics parseScrape fromPrometheusSamples outcome nodeInfo completed with
  | error err => exact ⟨err, rfl⟩
  | ok ms => exact absurd hfail ((fetchClusterMetrics_isOk_iff hcompleted hp hq hi hx).mp ⟨ms, h⟩ node hnode)

end Loaded

end Metrics

/-- One live querier whose reply body cannot be read: fetch_cluster_metrics returns the
NetworkError of res.text(). -/
theorem fetchClusterMetrics_fails_on_unreadable_body :
    let node := querierNode "http://querier-a:8000/"
    let outcome : NodeMetadata → ScrapeOutcome := fun _ => .bodyUnreadable "error decoding response body"
    let parseScrape : String → Except String (List Sample) := fun _ => .ok []
    let fromPrometheusSamples : List Sample → NodeMetadata → Except String Unit := fun _ _ => .ok ()
    (∀ role nodes, (Except.ok (querierOnly node role) : Except String _) = .ok nodes →
        (querierOnly node role).Perm nodes) ∧
      (Except.ok (querierOnly node .prism) : Except String _) = .ok [] ∧
      (Except.ok (querierOnly node .querier) : Except String _) = .ok [node] ∧
      (Except.ok (querierOnly node .ingestor) : Except String _) = .ok [] ∧
      (Except.ok (querierOnly node .indexer) : Except String _) = .ok [] ∧
      node ∈ [] ++ [node] ++ [] ++ [] ∧ FailedScrape parseScrape fromPrometheusSamples outcome node ∧
      (∃ err, fetchClusterMetrics parseScrape fromPrometheusSamples outcome (fun role => .ok (querierOnly node role))
        (querierOnly node) = .error err) ∧
      fetchClusterMetrics parseScrape fromPrometheusSamples outcome (fun role => .ok (querierOnly node role))
        (querierOnly node) = .error (.networkError "error decoding response body") := by
  intro node outcome parseScrape fromPrometheusSamples
  have hc : ∀ role nodes, (Except.ok (querierOnly node role) : Except String _) = .ok nodes →
      (querierOnly node role).Perm nodes := by
    rintro role nodes ⟨⟩
    exact List.Perm.refl _
  have hfail : FailedScrape parseScrape fromPrometheusSamples outcome node := .inr (.inl ⟨_, rfl⟩)
  exact ⟨hc, rfl, rfl, rfl, rfl, by simp, hfail,
    fetchClusterMetrics_fails_on_failed_scrape hc rfl rfl rfl rfl (by simp [querierOnly]) hfail, rfl⟩

/-! ## fetch_cluster_billing_metrics -/

section Billing

variable (parseScrape : String → Except String (List Sample)) (outcome : NodeMetadata → ScrapeOutcome)
  (clock : NodeMetadata → NaiveDateTime)

/-- `fetch_node_billing_metrics`; `clock node` is the instant its collector is built. -/
def fetchNodeBillingMetrics (node : NodeMetadata) : Except PostError (List BillingMetricEvent) :=
  match scrapeNode parseScrape (outcome node) with
  | .error err => .error err
  | .ok none => .ok []
  | .ok (some samples) => .ok (extractBillingMetricsFromSamples (clock node) samples node.domainName node.nodeType)

/-- The loop of fetch_nodes_billing_metrics: errors are logged and skipped. -/
def collectBillingMetrics : List (Except PostError (List BillingMetricEvent)) → List BillingMetricEvent
  | [] => []
  | .ok metrics :: results => metrics ++ collectBillingMetrics results
  | .error _ :: results => collectBillingMetrics results

/-- `fetch_nodes_billing_metrics`; `completed` lists the nodes in completion order. -/
def fetchNodesBillingMetrics (nodes completed : List NodeMetadata) : Except PostError (List BillingMetricEvent) :=
  if nodes.length = 0 then .ok []
  else .ok (collectBillingMetrics (completed.map (fetchNodeBillingMetrics parseScrape outcome clock)))

/-- `match metrics { Ok(metrics) => all_billing_metrics.extend(metrics), Err(err) => error!(..) }`. -/
def extendBilling (events : List BillingMetricEvent) :
    Except PostError (List BillingMetricEvent) → List BillingMetricEvent
  | .ok metrics => events ++ metrics
  | .error _ => events

/-- `fetch_cluster_billing_metrics`. -/
def fetchClusterBillingMetrics (nodeInfo : NodeType → Except String (List NodeMetadata))
    (completed : NodeType → List NodeMetadata) : Except PostError (List BillingMetricEvent) := do
  let prismMetadata ← (nodeInfo .prism).mapError PostError.invalid
  let querierMetadata ← (nodeInfo .querier).mapError PostError.invalid
  let ingestorMetadata ← (nodeInfo .ingestor).mapError PostError.invalid
  let indexerMetadata ← (nodeInfo .indexer).mapError PostError.invalid
  let fetch := fetchNodesBillingMetrics parseScrape outcome clock
  let all := extendBilling [] (fetch prismMetadata (completed .prism))
  let all := extendBilling all (fetch querierMetadata (completed .querier))
  let all := extendBilling all (fetch ingestorMetadata (completed .ingestor))
  let all := extendBilling all (fetch indexerMetadata (completed .indexer))
  return all

/-- What a node contributes when its scrape succeeded with samples S. -/
def scrapedEvents (node : NodeMetadata) : List BillingMetricEvent :=
  match scrapedSamples parseScrape (outcome node) with
  | some samples => extractBillingMetricsFromSamples (clock node) samples node.domainName node.nodeType
  | none => []

/-- A node's billing scrape is what it contributes, or an error and it contributes nothing. -/
theorem fetchNodeBillingMetrics_eq (node : NodeMetadata) :
    (∃ err, fetchNodeBillingMetrics parseScrape outcome clock node = .error err ∧
        scrapedEvents parseScrape outcome clock node = []) ∨
      fetchNodeBillingMetrics parseScrape outcome clock node = .ok (scrapedEvents parseScrape outcome clock node) := by
  unfold fetchNodeBillingMetrics scrapedEvents
  rcases scrapeNode_eq parseScrape (outcome node) with ⟨err, he, hs⟩ | he
  · exact .inl ⟨err, by rw [he], by rw [hs]⟩
  · rw [he]
    cases scrapedSamples parseScrape (outcome node) <;> exact .inr rfl

/-- The loop of fetch_nodes_billing_metrics keeps, in order, what each node contributes. -/
theorem collectBillingMetrics_map (nodes : List NodeMetadata) :
    collectBillingMetrics (nodes.map (fetchNodeBillingMetrics parseScrape outcome clock)) =
      nodes.flatMap (scrapedEvents parseScrape outcome clock) := by
  induction nodes with
  | nil => rfl
  | cons node nodes ih =>
    rcases fetchNodeBillingMetrics_eq parseScrape outcome clock node with ⟨err, he, hs⟩ | he <;>
      simp [collectBillingMetrics, he, ih, *]

/-- Whatever order the scrapes complete in, a role contributes what its nodes scraped. -/
theorem fetchNodesBillingMetrics_eq {nodes completed : List NodeMetadata} (h : completed.Perm nodes) :
    fetchNodesBillingMetrics parseScrape outcome clock nodes completed =
      .ok (completed.flatMap (scrapedEvents parseScrape outcome clock)) := by
  unfold fetchNodesBillingMetrics
  split
  · rename_i hn
    rw [List.length_eq_zero] at hn
    subst hn
    rw [List.perm_nil.mp h]
    rfl
  · rw [collectBillingMetrics_map]

/-- A billing collection that succeeds loaded every role's metadata. -/
theorem loaded_of_fetchClusterBillingMetrics_ok {nodeInfo : NodeType → Except String (List NodeMetadata)}
    {completed : NodeType → List NodeMetadata} {events : List BillingMetricEvent}
    (h : fetchClusterBillingMetrics parseScrape outcome clock nodeInfo completed = .ok events) (role : NodeType) :
    ∃ nodes, nodeInfo role = .ok nodes := by
  obtain ⟨p, hp, h⟩ := bind_eq_ok h
  obtain ⟨q, hq, h⟩ := bind_eq_ok h
  obtain ⟨i, hi, h⟩ := bind_eq_ok h
  obtain ⟨x, hx, -⟩ := bind_eq_ok h
  cases role with
  | prism => exact ⟨p, mapError_eq_ok.mp hp⟩
  | querier => exact ⟨q, mapError_eq_ok.mp hq⟩
  | ingestor => exact ⟨i, mapError_eq_ok.mp hi⟩
  | indexer => exact ⟨x, mapError_eq_ok.mp hx⟩

/-- With every role loaded, the collection succeeds with, up to order, the events of
every node scraped successfully. -/
theorem fetchClusterBillingMetrics_of_loaded {nodeInfo : NodeType → Except String (List NodeMetadata)}
    {completed : NodeType → List NodeMetadata}
    (hcompleted : ∀ role nodes, nodeInfo role = .ok nodes → (completed role).Perm nodes)
    {prism querier ingestor indexer : List NodeMetadata} (hp : nodeInfo .prism = .ok prism)
    (hq : nodeInfo .querier = .ok querier) (hi : nodeInfo .ingestor = .ok ingestor)
    (hx : nodeInfo .indexer = .ok indexer) :
    ∃ events, fetchClusterBillingMetrics parseScrape outcome clock nodeInfo completed = .ok events ∧
      events.Perm ((prism ++ querier ++ ingestor ++ indexer).flatMap (scrapedEvents parseScrape outcome clock)) := by
  have hf : ∀ role nodes, nodeInfo role = .ok nodes → fetchNodesBillingMetrics parseScrape outcome clock nodes
      (completed role) = .ok ((completed role).flatMap (scrapedEvents parseScrape outcome clock)) :=
    fun role nodes h => fetchNodesBillingMetrics_eq parseScrape outcome clock (hcompleted role nodes h)
  have hperm : ∀ role nodes, nodeInfo role = .ok nodes →
      ((completed role).flatMap (scrapedEvents parseScrape outcome clock)).Perm
        (nodes.flatMap (scrapedEvents parseScrape outcome clock)) :=
    fun role nodes h => List.Perm.flatMap_right _ (hcompleted role nodes h)
  refine ⟨_, ?_, by simpa only [List.flatMap_append] using
    (((hperm _ _ hp).append (hperm _ _ hq)).append (hperm _ _ hi)).append (hperm _ _ hx)⟩
  simp only [fetchClusterBillingMetrics, hp, hq, hi, hx, Except.mapError, bind, Except.bind]
  simp only [hf _ _ hp, hf _ _ hq, hf _ _ hi, hf _ _ hx, extendBilling, List.nil_append]
  rfl

/-- fetch_cluster_billing_metrics fails exactly when some role's metadata fails to
load. Otherwise, whatever each node's scrape comes to and whatever order each role's
scrapes complete in, its events are, as a multiset, those extracted from the nodes
scraped successfully. -/
theorem fetchClusterBillingMetrics_events (nodeInfo : NodeType → Except String (List NodeMetadata))
    (completed : NodeType → List NodeMetadata)
    (hcompleted : ∀ role nodes, nodeInfo role = .ok nodes → (completed role).Perm nodes) :
    ((∃ err, fetchClusterBillingMetrics parseScrape outcome clock nodeInfo completed = .error err) ↔
        ∃ role err, nodeInfo role = .error err) ∧
      ∀ prism querier ingestor indexer, nodeInfo .prism = .ok prism → nodeInfo .querier = .ok querier →
        nodeInfo .ingestor = .ok ingestor → nodeInfo .indexer = .ok indexer →
        ∃ events, fetchClusterBillingMetrics parseScrape outcome clock nodeInfo completed = .ok events ∧
          events.Perm ((prism ++ querier ++ ingestor ++ indexer).flatMap (scrapedEvents parseScrape outcome clock)) := by
  refine ⟨⟨fun ⟨err, he⟩ => ?_, fun ⟨role, err, he⟩ => ?_⟩,
    fun _ _ _ _ => fetchClusterBillingMetrics_of_loaded parseScrape outcome clock hcompleted⟩
  · -- every role loaded would make the collection succeed
    by_contra hno
    push_neg at hno
    have hload : ∀ role, ∃ nodes, nodeInfo role = .ok nodes := fun role => by
      cases h : nodeInfo role with
      | error e => exact absurd h (hno role e)
      | ok nodes => exact ⟨nodes, rfl⟩
    obtain ⟨p, hp⟩ := hload .prism
    obtain ⟨q, hq⟩ := hload .querier
    obtain ⟨i, hi⟩ := hload .ingestor
    obtain ⟨x, hx⟩ := hload .indexer
    obtain ⟨events, hev, -⟩ := fetchClusterBillingMetrics_of_loaded parseScrape outcome clock hcompleted hp hq hi hx
    rw [hev] at he
    cases he
  · -- a collection that succeeds loaded every role
    cases h : fetchClusterBillingMetrics parseScrape outcome clock nodeInfo completed with
    | error e => exact ⟨e, rfl⟩
    | ok events =>
      obtain ⟨nodes, hn⟩ := loaded_of_fetchClusterBillingMetrics_ok parseScrape outcome clock h role
      rw [hn] at he
      cases he

/-- Two queriers whose scrapes complete in the other order: querier-a is down, querier-b
answers with one sample of the events counter. -/
theorem fetchClusterBillingMetrics_two_queriers :
    let nodes : NodeType → List NodeMetadata := fun role =>
      if role = .querier then [querierNode "http://querier-a:8000/", querierNode "http://querier-b:8000/"] else []
    let completed : NodeType → List NodeMetadata := fun role => (nodes role).reverse
    let outcome : NodeMetadata → ScrapeOutcome := fun node =>
      if node.domainName = "http://querier-a:8000/" then .notLive else .body "exposition"
    let parseScrape : String → Except String (List Sample) := fun _ =>
      .ok [⟨"parseable_total_events_ingested_by_date", .counter 3, HashMap.empty.insert "date" "2025-01-01"⟩]
    (∀ role ns, (Except.ok (nodes role) : Except String _) = .ok ns → (completed role).Perm ns) ∧
      ((∃ err, fetchClusterBillingMetrics parseScrape outcome (fun _ => 0)
          (fun role => .ok (nodes role)) completed = .error err) ↔
        ∃ role err, (Except.ok (nodes role) : Except String _) = .error err) ∧
      ∀ prism querier ingestor indexer, (Except.ok (nodes .prism) : Except String _) = .ok prism →
        (Except.ok (nodes .querier) : Except String _) = .ok querier →
        (Except.ok (nodes .ingestor) : Except String _) = .ok ingestor →
        (Except.ok (nodes .indexer) : Except String _) = .ok indexer →
        ∃ events, fetchClusterBillingMetrics parseScrape outcome (fun _ => 0)
            (fun role => .ok (nodes role)) completed = .ok events ∧
          events.Perm ((prism ++ querier ++ ingestor ++ indexer).flatMap
            (scrapedEvents parseScrape outcome (fun _ => 0))) := by
  intro nodes completed outcome parseScrape
  have h : ∀ role ns, (Except.ok (nodes role) : Except String _) = .ok ns → (completed role).Perm ns := by
    rintro role ns ⟨⟩
    exact List.reverse_perm _
  exact ⟨h, fetchClusterBillingMetrics_events _ _ _ (fun role => .ok (nodes role)) completed h⟩

end Billing

end Parseable.ClusterMetrics

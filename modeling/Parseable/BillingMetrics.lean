import Mathlib.Data.List.Dedup
import Mathlib.Logic.Function.Basic
import Parseable.HashMap
import Parseable.Modal

/-!
# Billing events from prometheus samples

extract_billing_metrics_from_samples pivots the counter samples of one scrape into
the twelve maps of a BillingMetricsCollector (seven keyed by date, three by method
and date, two by provider, model and date; a later sample overwrites an earlier one
under the same labels) and flattens them into one event per positive count. For
every sample list the events are, up to order, one per key whose last counter value
is positive, with the fields that key and value give.

The seven date-keyed maps are one field indexed by `SimpleMetric`, and likewise for
the other two families; each index keeps the metric name the source matches and the
metric_type it emits.
-/

namespace Parseable.BillingMetrics

/-! ## Samples and events -/

/-- `prometheus_parse::Value`; the buckets of histograms and summaries are not read. -/
inductive Value
  | counter (v : Float)
  | gauge (v : Float)
  | histogram
  | summary
  | untyped (v : Float)

/-- `prometheus_parse::Sample`, without its timestamp. -/
structure Sample where
  /-- The metric's name. -/
  metric : String
  /-- The sample's value, by the metric's TYPE. -/
  value : Value
  /-- `Labels`, a map from label name to value. -/
  labels : HashMap String String

/-- `BillingMetricEvent`. -/
structure BillingMetricEvent where
  nodeAddress : String
  nodeType : String
  metricType : String
  date : String
  value : UInt64
  method : Option String
  provider : Option String
  model : Option String
  eventType : String
  eventTime : NaiveDateTime

/-! ## The three families of billing counters -/

/-- The date-keyed counters. -/
inductive SimpleMetric
  | totalEventsIngested
  | totalEventsIngestedSize
  | totalParquetsStored
  | totalParquetsStoredSize
  | totalQueryCalls
  | totalFilesScannedInQuery
  | totalBytesScannedInQuery
  deriving DecidableEq

/-- The counters keyed by object-store method and date. -/
inductive ObjectStoreMetric
  | totalObjectStoreCalls
  | totalFilesScannedInObjectStoreCalls
  | totalBytesScannedInObjectStoreCalls
  deriving DecidableEq

/-- The counters keyed by LLM provider, model and date. -/
inductive LlmMetric
  | totalInputLlmTokens
  | totalOutputLlmTokens
  deriving DecidableEq

/-- `is_simple_metric`. -/
def isSimpleMetric (metric : String) : Bool :=
  match metric with
  | "parseable_total_events_ingested_by_date" | "parseable_total_events_ingested_size_by_date"
  | "parseable_total_parquets_stored_by_date" | "parseable_total_parquets_stored_size_by_date"
  | "parseable_total_query_calls_by_date" | "parseable_total_files_scanned_in_query_by_date"
  | "parseable_total_bytes_scanned_in_query_by_date" => true
  | _ => false

/-- `is_object_store_metric`. -/
def isObjectStoreMetric (metric : String) : Bool :=
  match metric with
  | "parseable_total_object_store_calls_by_date"
  | "parseable_total_files_scanned_in_object_store_calls_by_date"
  | "parseable_total_bytes_scanned_in_object_store_calls_by_date" => true
  | _ => false

/-- `is_llm_metric`. -/
def isLlmMetric (metric : String) : Bool :=
  match metric with
  | "parseable_total_input_llm_tokens_by_date" | "parseable_total_output_llm_tokens_by_date" => true
  | _ => false

/-- The arms of the match in process_simple_metric. -/
def SimpleMetric.ofName : String → Option SimpleMetric
  | "parseable_total_events_ingested_by_date" => some .totalEventsIngested
  | "parseable_total_events_ingested_size_by_date" => some .totalEventsIngestedSize
  | "parseable_total_parquets_stored_by_date" => some .totalParquetsStored
  | "parseable_total_parquets_stored_size_by_date" => some .totalParquetsStoredSize
  | "parseable_total_query_calls_by_date" => some .totalQueryCalls
  | "parseable_total_files_scanned_in_query_by_date" => some .totalFilesScannedInQuery
  | "parseable_total_bytes_scanned_in_query_by_date" => some .totalBytesScannedInQuery
  | _ => none

/-- The arms of the match in process_object_store_metric. -/
def ObjectStoreMetric.ofName : String → Option ObjectStoreMetric
  | "parseable_total_object_store_calls_by_date" => some .totalObjectStoreCalls
  | "parseable_total_files_scanned_in_object_store_calls_by_date" => some .totalFilesScannedInObjectStoreCalls
  | "parseable_total_bytes_scanned_in_object_store_calls_by_date" => some .totalBytesScannedInObjectStoreCalls
  | _ => none

/-- The arms of the match in process_llm_metric. -/
def LlmMetric.ofName : String → Option LlmMetric
  | "parseable_total_input_llm_tokens_by_date" => some .totalInputLlmTokens
  | "parseable_total_output_llm_tokens_by_date" => some .totalOutputLlmTokens
  | _ => none

/-- The date-keyed maps in the order add_simple_metrics visits them, each with the
metric_type it emits. -/
def SimpleMetric.all : List SimpleMetric :=
  [.totalEventsIngested, .totalEventsIngestedSize, .totalParquetsStored, .totalParquetsStoredSize,
    .totalQueryCalls, .totalFilesScannedInQuery, .totalBytesScannedInQuery]

/-- The metric_type add_simple_metrics passes for each map. -/
def SimpleMetric.metricType : SimpleMetric → String
  | .totalEventsIngested => "total_events_ingested"
  | .totalEventsIngestedSize => "total_events_ingested_size"
  | .totalParquetsStored => "total_parquets_stored"
  | .totalParquetsStoredSize => "total_parquets_stored_size"
  | .totalQueryCalls => "total_query_calls"
  | .totalFilesScannedInQuery => "total_files_scanned_in_query"
  | .totalBytesScannedInQuery => "total_bytes_scanned_in_query"

/-- The entries of object_store_metrics in add_object_store_metrics. -/
def ObjectStoreMetric.all : List ObjectStoreMetric :=
  [.totalObjectStoreCalls, .totalFilesScannedInObjectStoreCalls, .totalBytesScannedInObjectStoreCalls]

/-- The metric_type of each entry of object_store_metrics. -/
def ObjectStoreMetric.metricType : ObjectStoreMetric → String
  | .totalObjectStoreCalls => "total_object_store_calls"
  | .totalFilesScannedInObjectStoreCalls => "total_files_scanned_in_object_store_calls"
  | .totalBytesScannedInObjectStoreCalls => "total_bytes_scanned_in_object_store_calls"

/-- The entries of llm_metrics in add_llm_metrics. -/
def LlmMetric.all : List LlmMetric := [.totalInputLlmTokens, .totalOutputLlmTokens]

/-- The metric_type of each entry of llm_metrics. -/
def LlmMetric.metricType : LlmMetric → String
  | .totalInputLlmTokens => "total_input_llm_tokens"
  | .totalOutputLlmTokens => "total_output_llm_tokens"

/-! ## The collector -/

/-- `BillingMetricsCollector`. -/
structure BillingMetricsCollector where
  nodeAddress : String
  nodeType : String
  /-- The seven `*_by_date` maps: date → count. -/
  simple : SimpleMetric → HashMap String UInt64
  /-- The three object-store maps: method → date → count. -/
  objectStore : ObjectStoreMetric → HashMap String (HashMap String UInt64)
  /-- The two LLM maps: provider → model → date → count. -/
  llm : LlmMetric → HashMap String (HashMap String (HashMap String UInt64))
  /-- Stamped once, when the collector is built. -/
  eventTime : NaiveDateTime

/-- `BillingMetricsCollector::new`, with `now` the reading of `Utc::now()`. -/
def BillingMetricsCollector.new (nodeAddress nodeType : String) (now : NaiveDateTime) :
    BillingMetricsCollector :=
  ⟨nodeAddress, nodeType, fun _ => HashMap.empty, fun _ => HashMap.empty, fun _ => HashMap.empty, now⟩

/-- `entry(key).or_insert_with(HashMap::new)`, then `f` on the inner map. -/
def alterInner {α : Type} (m : HashMap String (HashMap String α)) (key : String)
    (f : HashMap String α → HashMap String α) : HashMap String (HashMap String α) :=
  m.upsert key (f HashMap.empty) f

/-- `target_map.insert(date, value)` into date-keyed map `k`. -/
def BillingMetricsCollector.setSimple (c : BillingMetricsCollector) (k : SimpleMetric) (date : String)
    (value : UInt64) : BillingMetricsCollector :=
  { c with simple := Function.update c.simple k ((c.simple k).insert date value) }

/-- `target_map.entry(method).or_insert_with(HashMap::new).insert(date, value)` into
object-store map `k`. -/
def BillingMetricsCollector.setObjectStore (c : BillingMetricsCollector) (k : ObjectStoreMetric)
    (method date : String) (value : UInt64) : BillingMetricsCollector :=
  let methods := alterInner (c.objectStore k) method (·.insert date value)
  { c with objectStore := Function.update c.objectStore k methods }

/-- `target_map.entry(provider).or_insert_with(HashMap::new).entry(model)
.or_insert_with(HashMap::new).insert(date, value)` into LLM map `k`. -/
def BillingMetricsCollector.setLlm (c : BillingMetricsCollector) (k : LlmMetric)
    (provider model date : String) (value : UInt64) : BillingMetricsCollector :=
  let providers := alterInner (c.llm k) provider fun models => alterInner models model (·.insert date value)
  { c with llm := Function.update c.llm k providers }

/-- `process_simple_metric`. -/
def processSimpleMetric (collector : BillingMetricsCollector) (metric : String)
    (labels : HashMap String String) (val : Float) : BillingMetricsCollector :=
  match labels.get? "date" with
  | some date =>
    let value := val.toUInt64
    match SimpleMetric.ofName metric with
    | some k => collector.setSimple k date value
    | none => collector
  | none => collector

/-- `process_object_store_metric`. -/
def processObjectStoreMetric (collector : BillingMetricsCollector) (metric : String)
    (labels : HashMap String String) (val : Float) : BillingMetricsCollector :=
  match labels.get? "method", labels.get? "date" with
  | some method, some date =>
    let value := val.toUInt64
    match ObjectStoreMetric.ofName metric with
    | some k => collector.setObjectStore k method date value
    | none => collector
  | _, _ => collector

/-- `process_llm_metric`. -/
def processLlmMetric (collector : BillingMetricsCollector) (metric : String)
    (labels : HashMap String String) (val : Float) : BillingMetricsCollector :=
  match labels.get? "provider", labels.get? "model", labels.get? "date" with
  | some provider, some model, some date =>
    let value := val.toUInt64
    match LlmMetric.ofName metric with
    | some k => collector.setLlm k provider model date value
    | none => collector
  | _, _, _ => collector

/-- `process_sample`. -/
def processSample (collector : BillingMetricsCollector) (sample : Sample) (val : Float) :
    BillingMetricsCollector :=
  if isSimpleMetric sample.metric then processSimpleMetric collector sample.metric sample.labels val
  else if isObjectStoreMetric sample.metric then processObjectStoreMetric collector sample.metric sample.labels val
  else if isLlmMetric sample.metric then processLlmMetric collector sample.metric sample.labels val
  else collector

/-- One turn of the loop of extract_billing_metrics_from_samples. -/
def extractStep (collector : BillingMetricsCollector) (sample : Sample) : BillingMetricsCollector :=
  match sample.value with
  | .counter val => processSample collector sample val
  | _ => collector

/-- An event of this collector. -/
def BillingMetricsCollector.event (c : BillingMetricsCollector) (metricType date : String) (value : UInt64)
    (method provider model : Option String) : BillingMetricEvent :=
  ⟨c.nodeAddress, c.nodeType, metricType, date, value, method, provider, model, "billing-metrics", c.eventTime⟩

/-- The closure add_simple_metric. -/
def BillingMetricsCollector.addSimpleMetric (c : BillingMetricsCollector) (events : List BillingMetricEvent)
    (metricType : String) (data : HashMap String UInt64) : List BillingMetricEvent :=
  data.entries.foldl (fun events (date, value) =>
    if value > 0 then events ++ [c.event metricType date value none none none] else events) events

/-- `add_simple_metrics`. -/
def BillingMetricsCollector.addSimpleMetrics (c : BillingMetricsCollector) (events : List BillingMetricEvent) :
    List BillingMetricEvent :=
  SimpleMetric.all.foldl (fun events k =>
    if !(c.simple k).isEmpty then c.addSimpleMetric events k.metricType (c.simple k) else events) events

/-- `add_object_store_metrics`. -/
def BillingMetricsCollector.addObjectStoreMetrics (c : BillingMetricsCollector)
    (events : List BillingMetricEvent) : List BillingMetricEvent :=
  ObjectStoreMetric.all.foldl (fun events k =>
    if !(c.objectStore k).isEmpty then
      (c.objectStore k).entries.foldl (fun events (method, dates) =>
        dates.entries.foldl (fun events (date, value) =>
          if value > 0 then events ++ [c.event k.metricType date value (some method) none none]
          else events) events) events
    else events) events

/-- `add_llm_metrics`. -/
def BillingMetricsCollector.addLlmMetrics (c : BillingMetricsCollector) (events : List BillingMetricEvent) :
    List BillingMetricEvent :=
  LlmMetric.all.foldl (fun events k =>
    if !(c.llm k).isEmpty then
      (c.llm k).entries.foldl (fun events (provider, models) =>
        models.entries.foldl (fun events (model, dates) =>
          dates.entries.foldl (fun events (date, value) =>
            if value > 0 then events ++ [c.event k.metricType date value none (some provider) (some model)]
            else events) events) events) events
    else events) events

/-- `into_events`. -/
def BillingMetricsCollector.intoEvents (c : BillingMetricsCollector) : List BillingMetricEvent :=
  c.addLlmMetrics (c.addObjectStoreMetrics (c.addSimpleMetrics []))

/-- `extract_billing_metrics_from_samples`, with `now` the instant the collector is
built at. -/
def extractBillingMetricsFromSamples (now : NaiveDateTime) (samples : List Sample) (nodeAddress nodeType : String) :
    List BillingMetricEvent :=
  (samples.foldl extractStep (BillingMetricsCollector.new nodeAddress nodeType now)).intoEvents

/-! ## Names and classifiers agree -/

/-- The prometheus name process_simple_metric matches for each map. -/
def SimpleMetric.name : SimpleMetric → String
  | .totalEventsIngested => "parseable_total_events_ingested_by_date"
  | .totalEventsIngestedSize => "parseable_total_events_ingested_size_by_date"
  | .totalParquetsStored => "parseable_total_parquets_stored_by_date"
  | .totalParquetsStoredSize => "parseable_total_parquets_stored_size_by_date"
  | .totalQueryCalls => "parseable_total_query_calls_by_date"
  | .totalFilesScannedInQuery => "parseable_total_files_scanned_in_query_by_date"
  | .totalBytesScannedInQuery => "parseable_total_bytes_scanned_in_query_by_date"

/-- The prometheus name process_object_store_metric matches for each map. -/
def ObjectStoreMetric.name : ObjectStoreMetric → String
  | .totalObjectStoreCalls => "parseable_total_object_store_calls_by_date"
  | .totalFilesScannedInObjectStoreCalls => "parseable_total_files_scanned_in_object_store_calls_by_date"
  | .totalBytesScannedInObjectStoreCalls => "parseable_total_bytes_scanned_in_object_store_calls_by_date"

/-- The prometheus name process_llm_metric matches for each map. -/
def LlmMetric.name : LlmMetric → String
  | .totalInputLlmTokens => "parseable_total_input_llm_tokens_by_date"
  | .totalOutputLlmTokens => "parseable_total_output_llm_tokens_by_date"

/-- The name of a simple counter recognises exactly that counter. -/
theorem SimpleMetric.ofName_eq_some {metric : String} {k : SimpleMetric} :
    SimpleMetric.ofName metric = some k ↔ k.name = metric := by
  constructor
  · intro h
    unfold SimpleMetric.ofName at h
    split at h <;> cases h <;> rfl
  · rintro rfl
    cases k <;> rfl

/-- The name of an object-store counter recognises exactly that counter. -/
theorem ObjectStoreMetric.ofName_eq_some {metric : String} {k : ObjectStoreMetric} :
    ObjectStoreMetric.ofName metric = some k ↔ k.name = metric := by
  constructor
  · intro h
    unfold ObjectStoreMetric.ofName at h
    split at h <;> cases h <;> rfl
  · rintro rfl
    cases k <;> rfl

/-- The name of an LLM counter recognises exactly that counter. -/
theorem LlmMetric.ofName_eq_some {metric : String} {k : LlmMetric} :
    LlmMetric.ofName metric = some k ↔ k.name = metric := by
  constructor
  · intro h
    unfold LlmMetric.ofName at h
    split at h <;> cases h <;> rfl
  · rintro rfl
    cases k <;> rfl

/-- is_simple_metric accepts exactly the names process_simple_metric matches. -/
theorem isSimpleMetric_eq (metric : String) : isSimpleMetric metric = (SimpleMetric.ofName metric).isSome := by
  unfold isSimpleMetric
  split <;> simp_all [SimpleMetric.ofName]

/-- is_object_store_metric accepts exactly the names process_object_store_metric matches. -/
theorem isObjectStoreMetric_eq (metric : String) :
    isObjectStoreMetric metric = (ObjectStoreMetric.ofName metric).isSome := by
  unfold isObjectStoreMetric
  split <;> simp_all [ObjectStoreMetric.ofName]

/-- is_llm_metric accepts exactly the names process_llm_metric matches. -/
theorem isLlmMetric_eq (metric : String) : isLlmMetric metric = (LlmMetric.ofName metric).isSome := by
  unfold isLlmMetric
  split <;> simp_all [LlmMetric.ofName]

/-- A metric name without its `parseable_` prefix and `_by_date` suffix. -/
def metricTypeOf (metric : String) : String :=
  (metric.drop "parseable_".length).dropRight "_by_date".length

/-- Each of the twelve emit sites passes its name stripped of prefix and suffix. -/
theorem SimpleMetric.metricType_eq (k : SimpleMetric) : k.metricType = metricTypeOf k.name := by
  cases k <;> rfl

/-- An object-store counter's metric_type is its name without prefix and suffix. -/
theorem ObjectStoreMetric.metricType_eq (k : ObjectStoreMetric) : k.metricType = metricTypeOf k.name := by
  cases k <;> rfl

/-- An LLM counter's metric_type is its name without prefix and suffix. -/
theorem LlmMetric.metricType_eq (k : LlmMetric) : k.metricType = metricTypeOf k.name := by
  cases k <;> rfl

/-- Distinct simple counters have distinct names. -/
theorem SimpleMetric.name_injective : Function.Injective SimpleMetric.name := fun _ _ h =>
  Option.some.inj ((SimpleMetric.ofName_eq_some.mpr h).symm.trans (SimpleMetric.ofName_eq_some.mpr rfl))

/-- Distinct object-store counters have distinct names. -/
theorem ObjectStoreMetric.name_injective : Function.Injective ObjectStoreMetric.name := fun _ _ h =>
  Option.some.inj ((ObjectStoreMetric.ofName_eq_some.mpr h).symm.trans (ObjectStoreMetric.ofName_eq_some.mpr rfl))

/-- Distinct LLM counters have distinct names. -/
theorem LlmMetric.name_injective : Function.Injective LlmMetric.name := fun _ _ h =>
  Option.some.inj ((LlmMetric.ofName_eq_some.mpr h).symm.trans (LlmMetric.ofName_eq_some.mpr rfl))

/-! ## What the collector holds -/

/-- The count the collector holds under a key: a counter name and the values of its
required labels. -/
def BillingMetricsCollector.lookup (c : BillingMetricsCollector) : String × List String → Option UInt64
  | (metric, [date]) => (SimpleMetric.ofName metric).bind fun k => (c.simple k).get? date
  | (metric, [method, date]) => (ObjectStoreMetric.ofName metric).bind fun k =>
    ((c.objectStore k).get? method).bind (·.get? date)
  | (metric, [provider, model, date]) => (LlmMetric.ofName metric).bind fun k =>
    (((c.llm k).get? provider).bind (·.get? model)).bind (·.get? date)
  | _ => none

/-- A new collector holds no count. -/
theorem lookup_new (nodeAddress nodeType : String) (now : NaiveDateTime) (key : String × List String) :
    (BillingMetricsCollector.new nodeAddress nodeType now).lookup key = none := by
  rcases key with ⟨metric, _ | ⟨_, _ | ⟨_, _ | ⟨_, _ | _⟩⟩⟩⟩ <;>
    simp [BillingMetricsCollector.lookup, BillingMetricsCollector.new]

/-- Altering the inner map of one key changes only that key, starting from an empty map. -/
@[simp] theorem get?_alterInner {α : Type} (m : HashMap String (HashMap String α)) (key key' : String)
    (f : HashMap String α → HashMap String α) :
    (alterInner m key f).get? key' = if key' = key then some (f ((m.get? key).getD HashMap.empty)) else m.get? key' := by
  simp only [alterInner, HashMap.get?_upsert]
  cases m.get? key <;> rfl

/-- Looking up in an inner map that may be missing. -/
theorem get?_getD_empty {α : Type} (o : Option (HashMap String α)) (key : String) :
    (o.getD HashMap.empty).get? key = o.bind (·.get? key) := by
  cases o <;> rfl

variable (c : BillingMetricsCollector) (key : String × List String)

/-- Setting a simple count changes the count of its key only. -/
theorem lookup_setSimple (k : SimpleMetric) (date : String) (value : UInt64) :
    (c.setSimple k date value).lookup key =
      if key = (k.name, [date]) then some value else c.lookup key := by
  rcases key with ⟨metric, _ | ⟨d, _ | ⟨_, _ | ⟨_, _ | _⟩⟩⟩⟩ <;>
    try simp [BillingMetricsCollector.lookup, BillingMetricsCollector.setSimple,
      BillingMetricsCollector.setObjectStore, BillingMetricsCollector.setLlm]
  cases h : SimpleMetric.ofName metric with
  | none =>
    have : metric ≠ k.name := by rintro rfl; simp [SimpleMetric.ofName_eq_some.mpr rfl] at h
    simp [this]
  | some k' =>
    obtain rfl := SimpleMetric.ofName_eq_some.mp h
    by_cases hk : k' = k
    · subst hk; simp [eq_comm]
    · have hn : k'.name ≠ k.name := fun he => hk (SimpleMetric.name_injective he)
      simp [Function.update_noteq hk, hn]

/-- Setting an object-store count changes the count of its key only. -/
theorem lookup_setObjectStore (k : ObjectStoreMetric) (method date : String) (value : UInt64) :
    (c.setObjectStore k method date value).lookup key =
      if key = (k.name, [method, date]) then some value else c.lookup key := by
  rcases key with ⟨metric, _ | ⟨m, _ | ⟨d, _ | ⟨_, _ | _⟩⟩⟩⟩ <;>
    try simp [BillingMetricsCollector.lookup, BillingMetricsCollector.setSimple,
      BillingMetricsCollector.setObjectStore, BillingMetricsCollector.setLlm]
  cases h : ObjectStoreMetric.ofName metric with
  | none =>
    have : metric ≠ k.name := by rintro rfl; simp [ObjectStoreMetric.ofName_eq_some.mpr rfl] at h
    simp [this]
  | some k' =>
    obtain rfl := ObjectStoreMetric.ofName_eq_some.mp h
    by_cases hk : k' = k
    · subst hk
      by_cases hm : m = method <;> by_cases hd : d = date <;> simp [hm, hd, get?_getD_empty]
    · have hn : k'.name ≠ k.name := fun he => hk (ObjectStoreMetric.name_injective he)
      simp [Function.update_noteq hk, hn]

/-- Setting an LLM count changes the count of its key only. -/
theorem lookup_setLlm (k : LlmMetric) (provider model date : String) (value : UInt64) :
    (c.setLlm k provider model date value).lookup key =
      if key = (k.name, [provider, model, date]) then some value else c.lookup key := by
  rcases key with ⟨metric, _ | ⟨p, _ | ⟨m, _ | ⟨d, _ | _⟩⟩⟩⟩ <;>
    try simp [BillingMetricsCollector.lookup, BillingMetricsCollector.setSimple,
      BillingMetricsCollector.setObjectStore, BillingMetricsCollector.setLlm]
  cases h : LlmMetric.ofName metric with
  | none =>
    have : metric ≠ k.name := by rintro rfl; simp [LlmMetric.ofName_eq_some.mpr rfl] at h
    simp [this]
  | some k' =>
    obtain rfl := LlmMetric.ofName_eq_some.mp h
    by_cases hk : k' = k
    · subst hk
      by_cases hp : p = provider <;> by_cases hm : m = model <;> by_cases hd : d = date <;>
        simp [hp, hm, hd, get?_getD_empty]
    · have hn : k'.name ≠ k.name := fun he => hk (LlmMetric.name_injective he)
      simp [Function.update_noteq hk, hn]

/-! ## The spec's reading of the samples -/

/-- The spec's table of billing counters: each recognised counter name with the labels it
requires. -/
def billingCounters : List (String × List String) :=
  [("parseable_total_events_ingested_by_date", ["date"]),
    ("parseable_total_events_ingested_size_by_date", ["date"]),
    ("parseable_total_parquets_stored_by_date", ["date"]),
    ("parseable_total_parquets_stored_size_by_date", ["date"]),
    ("parseable_total_query_calls_by_date", ["date"]),
    ("parseable_total_files_scanned_in_query_by_date", ["date"]),
    ("parseable_total_bytes_scanned_in_query_by_date", ["date"]),
    ("parseable_total_object_store_calls_by_date", ["method", "date"]),
    ("parseable_total_files_scanned_in_object_store_calls_by_date", ["method", "date"]),
    ("parseable_total_bytes_scanned_in_object_store_calls_by_date", ["method", "date"]),
    ("parseable_total_input_llm_tokens_by_date", ["provider", "model", "date"]),
    ("parseable_total_output_llm_tokens_by_date", ["provider", "model", "date"])]

/-- The labels a billing counter of the table requires. -/
def requiredLabels (metric : String) : Option (List String) :=
  billingCounters.lookup metric

/-- The values of `names` in a sample's labels, if it carries all of them. -/
def labelValues (labels : HashMap String String) : List String → Option (List String)
  | [] => some []
  | name :: names => (labels.get? name).bind fun v => (labelValues labels names).map (v :: ·)

/-- A counter sample of a recognised billing counter carrying all its required
labels: its key (the name and those labels' values) and its value. -/
def billingReading (sample : Sample) : Option ((String × List String) × Float) :=
  match sample.value with
  | .counter v => (requiredLabels sample.metric).bind fun names =>
    (labelValues sample.labels names).map fun values => ((sample.metric, values), v)
  | _ => none

/-- The code's three classifiers recognise exactly the table's names, each family with
its labels. -/
theorem requiredLabels_eq (metric : String) :
    requiredLabels metric =
      if isSimpleMetric metric then some ["date"]
      else if isObjectStoreMetric metric then some ["method", "date"]
      else if isLlmMetric metric then some ["provider", "model", "date"]
      else none := by
  rw [isSimpleMetric_eq, isObjectStoreMetric_eq, isLlmMetric_eq]
  cases hs : SimpleMetric.ofName metric with
  | some k => obtain rfl := SimpleMetric.ofName_eq_some.mp hs; cases k <;> rfl
  | none =>
    cases ho : ObjectStoreMetric.ofName metric with
    | some k => obtain rfl := ObjectStoreMetric.ofName_eq_some.mp ho; cases k <;> rfl
    | none =>
      cases hl : LlmMetric.ofName metric with
      | some k => obtain rfl := LlmMetric.ofName_eq_some.mp hl; cases k <;> rfl
      | none =>
        -- a name of none of the three families is none of the table's names
        have h1 : ∀ k ∈ SimpleMetric.all, ¬metric = k.name := fun k _ h => by
          rw [SimpleMetric.ofName_eq_some.mpr h.symm] at hs; cases hs
        have h2 : ∀ k ∈ ObjectStoreMetric.all, ¬metric = k.name := fun k _ h => by
          rw [ObjectStoreMetric.ofName_eq_some.mpr h.symm] at ho; cases ho
        have h3 : ∀ k ∈ LlmMetric.all, ¬metric = k.name := fun k _ h => by
          rw [LlmMetric.ofName_eq_some.mpr h.symm] at hl; cases hl
        simp only [SimpleMetric.all, ObjectStoreMetric.all, LlmMetric.all, List.forall_mem_cons, List.forall_mem_nil,
          SimpleMetric.name, ObjectStoreMetric.name, LlmMetric.name] at h1 h2 h3
        simp only [Option.isSome_none, Bool.false_eq_true, if_false, requiredLabels, billingCounters,
          HashMap.lookup_cons_ite, List.lookup_nil, h1, h2, h3]


/-- One sample stores its reading, if it has one, and leaves every other key alone. -/
theorem lookup_extractStep (s : Sample) :
    (extractStep c s).lookup key =
      ((([s].filterMap billingReading).lookup key).map Float.toUInt64).or (c.lookup key) := by
  rcases s with ⟨metric, value, labels⟩
  cases value with
  | counter val =>
    simp only [extractStep, processSample]
    by_cases hs : isSimpleMetric metric
    · obtain ⟨k, hk⟩ := Option.isSome_iff_exists.mp (isSimpleMetric_eq metric ▸ hs)
      cases hd : labels.get? "date" with
      | none => simp [processSimpleMetric, hs, hd, billingReading, requiredLabels_eq, labelValues, List.filterMap_cons]
      | some date =>
        obtain rfl := SimpleMetric.ofName_eq_some.mp hk
        simp [processSimpleMetric, hs, hd, hk, billingReading, requiredLabels_eq, labelValues, lookup_setSimple,
          HashMap.lookup_cons_ite, List.filterMap_cons]
        split_ifs <;> rfl
    by_cases ho : isObjectStoreMetric metric
    · obtain ⟨k, hk⟩ := Option.isSome_iff_exists.mp (isObjectStoreMetric_eq metric ▸ ho)
      obtain rfl := ObjectStoreMetric.ofName_eq_some.mp hk
      cases hm : labels.get? "method" <;> cases hd : labels.get? "date" <;>
        simp [processObjectStoreMetric, hs, ho, hm, hd, hk, billingReading, requiredLabels_eq, labelValues,
          lookup_setObjectStore, HashMap.lookup_cons_ite, List.filterMap_cons]
      split_ifs <;> rfl
    by_cases hl : isLlmMetric metric
    · obtain ⟨k, hk⟩ := Option.isSome_iff_exists.mp (isLlmMetric_eq metric ▸ hl)
      obtain rfl := LlmMetric.ofName_eq_some.mp hk
      cases hp : labels.get? "provider" <;> cases hm : labels.get? "model" <;>
        cases hd : labels.get? "date" <;>
        simp [processLlmMetric, hs, ho, hl, hp, hm, hd, hk, billingReading, requiredLabels_eq, labelValues,
          lookup_setLlm, HashMap.lookup_cons_ite, List.filterMap_cons]
      split_ifs <;> rfl
    · simp [hs, ho, hl, billingReading, requiredLabels_eq, List.filterMap_cons]
  | gauge _ | histogram | summary | untyped _ => simp [extractStep, billingReading]

/-- The value of the last sample of `samples` read under `key`. -/
def lastValue (samples : List Sample) (key : String × List String) : Option Float :=
  (samples.filterMap billingReading).reverse.lookup key

/-- The last reading of a key is that of the later samples, or else that of the first. -/
theorem lastValue_cons (s : Sample) (samples : List Sample) :
    lastValue (s :: samples) key = (lastValue samples key).or (([s].filterMap billingReading).lookup key) := by
  have hs : ([s].filterMap billingReading).reverse = [s].filterMap billingReading := by
    cases h : billingReading s <;> simp [List.filterMap_cons, h]
  rw [lastValue, lastValue, ← List.singleton_append, List.filterMap_append, List.reverse_append, hs,
    List.lookup_append]

/-- After a run over `samples` the collector holds, under each key, the last value
read under it, or what it held before. -/
theorem lookup_foldl_extractStep (samples : List Sample) :
    (samples.foldl extractStep c).lookup key =
      ((lastValue samples key).map Float.toUInt64).or (c.lookup key) := by
  induction samples generalizing c with
  | nil => simp [lastValue]
  | cons s samples ih =>
    rw [List.foldl_cons, ih, lookup_extractStep, lastValue_cons]
    cases lastValue samples key <;> simp [Option.or_assoc]

/-! ## Flattening the collector -/

/-- Every key and count the collector holds, in the order into_events visits them. -/
def BillingMetricsCollector.entries (c : BillingMetricsCollector) : List ((String × List String) × UInt64) :=
  SimpleMetric.all.flatMap (fun k => (c.simple k).entries.map fun e => ((k.name, [e.1]), e.2)) ++
  ObjectStoreMetric.all.flatMap (fun k => (c.objectStore k).entries.flatMap fun e =>
    e.2.entries.map fun d => ((k.name, [e.1, d.1]), d.2)) ++
  LlmMetric.all.flatMap (fun k => (c.llm k).entries.flatMap fun e => e.2.entries.flatMap fun m =>
    m.2.entries.map fun d => ((k.name, [e.1, m.1, d.1]), d.2))

/-- The event the spec describes for a key with a count: metric_type is the name
without prefix and suffix, the labels fill date, method, or provider and model. -/
def expectedEvent (nodeAddress nodeType : String) (eventTime : NaiveDateTime) (key : String × List String)
    (value : UInt64) : BillingMetricEvent :=
  let event (date : String) (method provider model : Option String) : BillingMetricEvent :=
    ⟨nodeAddress, nodeType, metricTypeOf key.1, date, value, method, provider, model, "billing-metrics",
      eventTime⟩
  match key.2 with
  | [date] => event date none none none
  | [method, date] => event date (some method) none none
  | [provider, model, date] => event date none (some provider) (some model)
  | _ => event "" none none none

/-- A loop that appends the same block for an element whatever came before. -/
theorem foldl_eq_append_flatMap {α β : Type} {l : List α} {f : List β → α → List β} (g : α → List β)
    (hf : ∀ acc x, f acc x = acc ++ g x) (init : List β) : l.foldl f init = init ++ l.flatMap g := by
  induction l generalizing init with
  | nil => simp
  | cons x l ih => simp [ih, hf]

/-- A loop that pushes `f x` for each `x` passing a test pushes the images of those, in order. -/
theorem foldl_push_if {α β : Type} (l : List α) (p : α → Prop) [DecidablePred p] (f : α → β) (init : List β) :
    l.foldl (fun acc x => if p x then acc ++ [f x] else acc) init = init ++ (l.filter fun x => p x).map f := by
  rw [foldl_eq_append_flatMap (fun x => if p x then [f x] else []) (fun acc x => by split <;> simp [*])]
  congr 1
  induction l with
  | nil => rfl
  | cons x l ih => by_cases h : p x <;> simp [h, ih, List.filter_cons]

/-- An empty map has no entries. -/
theorem HashMap.entries_eq_nil_of_isEmpty {α : Type} {m : HashMap String α} (h : m.isEmpty = true) :
    m.entries = [] := by
  simpa [HashMap.keys] using HashMap.isEmpty_iff.mp h

/-- add_simple_metrics appends one event per positive simple count, counter by counter. -/
theorem addSimpleMetrics_eq (events : List BillingMetricEvent) :
    c.addSimpleMetrics events = events ++ SimpleMetric.all.flatMap fun k =>
      ((c.simple k).entries.filter fun e => 0 < e.2).map fun e => c.event k.metricType e.1 e.2 none none none := by
  refine foldl_eq_append_flatMap _ (fun acc k => ?_) events
  by_cases h : (c.simple k).isEmpty
  · simp [h, HashMap.entries_eq_nil_of_isEmpty h]
  · simp only [h, Bool.not_false, if_true, BillingMetricsCollector.addSimpleMetric]
    exact foldl_push_if _ (fun e : String × UInt64 => 0 < e.2) _ acc

/-- add_object_store_metrics appends one event per positive count, by counter, method and date. -/
theorem addObjectStoreMetrics_eq (events : List BillingMetricEvent) :
    c.addObjectStoreMetrics events = events ++ ObjectStoreMetric.all.flatMap fun k =>
      (c.objectStore k).entries.flatMap fun e => (e.2.entries.filter fun d => 0 < d.2).map fun d =>
        c.event k.metricType d.1 d.2 (some e.1) none none := by
  refine foldl_eq_append_flatMap _ (fun acc k => ?_) events
  by_cases h : (c.objectStore k).isEmpty
  · simp [h, HashMap.entries_eq_nil_of_isEmpty h]
  · simp only [h, Bool.not_false, if_true]
    exact foldl_eq_append_flatMap (fun e : String × HashMap String UInt64 =>
        (e.2.entries.filter fun d => 0 < d.2).map fun d => c.event k.metricType d.1 d.2 (some e.1) none none)
      (fun acc e => foldl_push_if _ (fun d : String × UInt64 => 0 < d.2) _ acc) acc

/-- add_llm_metrics appends one event per positive count, by counter, provider, model and date. -/
theorem addLlmMetrics_eq (events : List BillingMetricEvent) :
    c.addLlmMetrics events = events ++ LlmMetric.all.flatMap fun k =>
      (c.llm k).entries.flatMap fun e => e.2.entries.flatMap fun m =>
        (m.2.entries.filter fun d => 0 < d.2).map fun d =>
          c.event k.metricType d.1 d.2 none (some e.1) (some m.1) := by
  refine foldl_eq_append_flatMap _ (fun acc k => ?_) events
  by_cases h : (c.llm k).isEmpty
  · simp [h, HashMap.entries_eq_nil_of_isEmpty h]
  · simp only [h, Bool.not_false, if_true]
    exact foldl_eq_append_flatMap (fun e : String × HashMap String (HashMap String UInt64) =>
        e.2.entries.flatMap fun m => (m.2.entries.filter fun d => 0 < d.2).map fun d =>
          c.event k.metricType d.1 d.2 none (some e.1) (some m.1))
      (fun acc e => foldl_eq_append_flatMap (fun m : String × HashMap String UInt64 =>
          (m.2.entries.filter fun d => 0 < d.2).map fun d => c.event k.metricType d.1 d.2 none (some e.1) (some m.1))
        (fun acc m => foldl_push_if _ (fun d : String × UInt64 => 0 < d.2) _ acc) acc) acc

/-- The spec's event for a simple key is the collector's. -/
theorem expectedEvent_simple (k : SimpleMetric) (date : String) (v : UInt64) :
    expectedEvent c.nodeAddress c.nodeType c.eventTime (k.name, [date]) v = c.event k.metricType date v none none none := by
  rw [SimpleMetric.metricType_eq]
  rfl

/-- The spec's event for an object-store key is the collector's. -/
theorem expectedEvent_objectStore (k : ObjectStoreMetric) (method date : String) (v : UInt64) :
    expectedEvent c.nodeAddress c.nodeType c.eventTime (k.name, [method, date]) v =
      c.event k.metricType date v (some method) none none := by
  rw [ObjectStoreMetric.metricType_eq]
  rfl

/-- The spec's event for an LLM key is the collector's. -/
theorem expectedEvent_llm (k : LlmMetric) (provider model date : String) (v : UInt64) :
    expectedEvent c.nodeAddress c.nodeType c.eventTime (k.name, [provider, model, date]) v =
      c.event k.metricType date v none (some provider) (some model) := by
  rw [LlmMetric.metricType_eq]
  rfl

/-- into_events emits the expected event for every positive count the collector holds. -/
theorem intoEvents_eq :
    c.intoEvents = (c.entries.filter fun e => 0 < e.2).map fun e =>
      expectedEvent c.nodeAddress c.nodeType c.eventTime e.1 e.2 := by
  simp only [BillingMetricsCollector.intoEvents, addSimpleMetrics_eq, addObjectStoreMetrics_eq, addLlmMetrics_eq,
    List.nil_append, BillingMetricsCollector.entries, List.filter_append, List.map_append, List.append_assoc,
    List.filter_flatMap, List.map_flatMap, List.filter_map, List.map_map, Function.comp_def, expectedEvent_simple,
    expectedEvent_objectStore, expectedEvent_llm]

/-- Every simple counter is listed. -/
@[simp] theorem SimpleMetric.mem_all (k : SimpleMetric) : k ∈ SimpleMetric.all := by
  cases k <;> simp [SimpleMetric.all]

/-- Every object-store counter is listed. -/
@[simp] theorem ObjectStoreMetric.mem_all (k : ObjectStoreMetric) : k ∈ ObjectStoreMetric.all := by
  cases k <;> simp [ObjectStoreMetric.all]

/-- Every LLM counter is listed. -/
@[simp] theorem LlmMetric.mem_all (k : LlmMetric) : k ∈ LlmMetric.all := by
  cases k <;> simp [LlmMetric.all]

/-- The flattened collector lists exactly what it holds. -/
theorem mem_entries {v : UInt64} : (key, v) ∈ c.entries ↔ c.lookup key = some v := by
  rcases key with ⟨metric, _ | ⟨a, _ | ⟨b, _ | ⟨d, _ | _⟩⟩⟩⟩ <;>
    simp only [BillingMetricsCollector.entries, BillingMetricsCollector.lookup, List.append_assoc, List.mem_append,
      List.mem_flatMap, List.mem_map, SimpleMetric.mem_all, ObjectStoreMetric.mem_all, LlmMetric.mem_all,
      Prod.mk.injEq, List.cons.injEq, List.cons_ne_self, List.ne_cons_self, List.nil_eq, reduceCtorEq, and_false,
      false_and, and_true, true_and, exists_const, exists_false, Prod.exists, exists_eq_right_right, or_self,
      or_false, false_or, Option.bind_eq_some, SimpleMetric.ofName_eq_some, ObjectStoreMetric.ofName_eq_some,
      LlmMetric.ofName_eq_some, HashMap.get?_eq_some_iff]
  case mk.cons.nil => exact exists_congr fun _ => and_comm
  case mk.cons.cons.nil =>
    constructor
    · rintro ⟨k, _, dates, hm, _, hd, rfl, rfl, rfl⟩
      exact ⟨k, rfl, dates, hm, hd⟩
    · rintro ⟨k, rfl, dates, hm, hd⟩
      exact ⟨k, _, dates, hm, _, hd, rfl, rfl, rfl⟩
  case mk.cons.cons.cons.nil =>
    constructor
    · rintro ⟨k, _, models, hp, _, dates, hm, _, hd, rfl, rfl, rfl, rfl⟩
      exact ⟨k, rfl, dates, ⟨models, hp, hm⟩, hd⟩
    · rintro ⟨k, rfl, dates, ⟨models, hp, hm⟩, hd⟩
      exact ⟨k, _, models, hp, _, dates, hm, _, hd, rfl, rfl, rfl, rfl⟩

/-- Two entries of a map with the same key are the same entry. -/
theorem HashMap.eq_of_mem_entries {α : Type} {m : HashMap String α} {e e' : String × α} (he : e ∈ m.entries)
    (he' : e' ∈ m.entries) (h : e.1 = e'.1) : e = e' := by
  have h1 := HashMap.get?_eq_some_iff.mpr he
  have h2 := HashMap.get?_eq_some_iff.mpr he'
  rw [h] at h1
  exact Prod.ext h (Option.some.inj (h1.symm.trans h2))

/-- Blocks of distinct keys, from distinct indices whose keys never meet. -/
theorem nodup_map_fst_flatMap {ι κ β : Type} {l : List ι} {g : ι → List (κ × β)} (hl : l.Nodup)
    (hg : ∀ i ∈ l, ((g i).map Prod.fst).Nodup)
    (hd : ∀ i ∈ l, ∀ j ∈ l, ∀ x, x ∈ (g i).map Prod.fst → x ∈ (g j).map Prod.fst → i = j) :
    ((l.flatMap g).map Prod.fst).Nodup := by
  rw [List.map_flatMap]
  exact List.nodup_flatMap.mpr ⟨hg, hl.imp_of_mem fun hi hj hne x hx hy => hne (hd _ hi _ hj x hx hy)⟩

/-- The entries of one map, each under a key made injectively from its own. -/
theorem nodup_map_key {α σ : Type} (m : HashMap String α) (f : String → σ) (hf : Function.Injective f) :
    ((m.entries.map fun d => (f d.1, d.2)).map Prod.fst).Nodup := by
  simpa [List.map_map, Function.comp_def] using m.nodup.map hf

/-- The collector's simple entries have distinct keys. -/
theorem nodup_simple_keys :
    ((SimpleMetric.all.flatMap fun k => (c.simple k).entries.map fun e => ((k.name, [e.1]), e.2)).map
      Prod.fst).Nodup :=
  nodup_map_fst_flatMap (by decide)
    (fun k _ => nodup_map_key _ (fun date => (k.name, [date])) fun _ _ h => by simpa using h)
    fun k _ k' _ x hx hy => by
      simp only [List.map_map, List.mem_map, Function.comp_def] at hx hy
      obtain ⟨_, _, rfl⟩ := hx
      obtain ⟨_, _, h⟩ := hy
      exact SimpleMetric.name_injective (congrArg Prod.fst h).symm

/-- The collector's object-store entries have distinct keys. -/
theorem nodup_objectStore_keys :
    ((ObjectStoreMetric.all.flatMap fun k => (c.objectStore k).entries.flatMap fun e =>
      e.2.entries.map fun d => ((k.name, [e.1, d.1]), d.2)).map Prod.fst).Nodup :=
  nodup_map_fst_flatMap (by decide)
    (fun k _ => nodup_map_fst_flatMap ((c.objectStore k).nodup.of_map _)
      (fun e _ => nodup_map_key _ (fun date => (k.name, [e.1, date])) fun _ _ h => by simpa using h)
      fun e he e' he' x hx hy => by
        simp only [List.map_map, List.mem_map, Function.comp_def] at hx hy
        obtain ⟨_, _, rfl⟩ := hx
        obtain ⟨_, _, h⟩ := hy
        exact HashMap.eq_of_mem_entries he he' (by simp at h; exact h.1.symm))
    fun k _ k' _ x hx hy => by
      simp only [List.map_flatMap, List.mem_flatMap, List.map_map, List.mem_map, Function.comp_def] at hx hy
      obtain ⟨_, _, _, _, rfl⟩ := hx
      obtain ⟨_, _, _, _, h⟩ := hy
      exact ObjectStoreMetric.name_injective (congrArg Prod.fst h).symm

/-- The collector's LLM entries have distinct keys. -/
theorem nodup_llm_keys :
    ((LlmMetric.all.flatMap fun k => (c.llm k).entries.flatMap fun e => e.2.entries.flatMap fun m =>
      m.2.entries.map fun d => ((k.name, [e.1, m.1, d.1]), d.2)).map Prod.fst).Nodup :=
  nodup_map_fst_flatMap (by decide)
    (fun k _ => nodup_map_fst_flatMap ((c.llm k).nodup.of_map _)
      (fun e _ => nodup_map_fst_flatMap (e.2.nodup.of_map _)
        (fun m _ => nodup_map_key _ (fun date => (k.name, [e.1, m.1, date])) fun _ _ h => by simpa using h)
        fun m hm m' hm' x hx hy => by
          simp only [List.map_map, List.mem_map, Function.comp_def] at hx hy
          obtain ⟨_, _, rfl⟩ := hx
          obtain ⟨_, _, h⟩ := hy
          exact HashMap.eq_of_mem_entries hm hm' (by simp at h; exact h.1.symm))
      fun e he e' he' x hx hy => by
        simp only [List.map_flatMap, List.mem_flatMap, List.map_map, List.mem_map, Function.comp_def] at hx hy
        obtain ⟨_, _, _, _, rfl⟩ := hx
        obtain ⟨_, _, _, _, h⟩ := hy
        exact HashMap.eq_of_mem_entries he he' (by simp at h; exact h.1.symm))
    fun k _ k' _ x hx hy => by
      simp only [List.map_flatMap, List.mem_flatMap, List.map_map, List.mem_map, Function.comp_def] at hx hy
      obtain ⟨_, _, _, _, _, _, rfl⟩ := hx
      obtain ⟨_, _, _, _, _, _, h⟩ := hy
      exact LlmMetric.name_injective (congrArg Prod.fst h).symm

/-- No key is listed twice: the families differ in arity, the maps in name, the
entries of a map in key. -/
theorem nodup_entries : (c.entries.map Prod.fst).Nodup := by
  simp only [BillingMetricsCollector.entries, List.map_append]
  refine List.nodup_append.mpr ⟨List.nodup_append.mpr ⟨nodup_simple_keys c, nodup_objectStore_keys c, ?_⟩,
    nodup_llm_keys c, ?_⟩ <;> intro x hx hy <;>
    simp only [List.mem_append, List.map_flatMap, List.mem_flatMap, List.map_map, List.mem_map,
      Function.comp_def] at hx hy
  -- a key's family shows in how many labels it has
  · obtain ⟨_, _, _, _, rfl⟩ := hx
    obtain ⟨_, _, _, _, _, _, h⟩ := hy
    simpa using congrArg (fun key => key.2.length) h
  · obtain ⟨_, _, _, _, _, _, _, _, h⟩ := hy
    rcases hx with ⟨_, _, _, _, rfl⟩ | ⟨_, _, _, _, _, _, rfl⟩ <;>
      simpa using congrArg (fun key => key.2.length) h

/-! ## The events of a scrape -/

/-- The events the spec describes: one per key read from the samples whose last value,
as a u64, is positive. -/
def expectedEvents (samples : List Sample) (nodeAddress nodeType : String) (eventTime : NaiveDateTime) :
    List BillingMetricEvent :=
  ((samples.filterMap billingReading).map Prod.fst).dedup.filterMap fun key =>
    ((lastValue samples key).map Float.toUInt64).bind fun count =>
      if 0 < count then some (expectedEvent nodeAddress nodeType eventTime key count) else none

/-- Processing a sample keeps the node and the event time. -/
theorem extractStep_frame (c : BillingMetricsCollector) (s : Sample) :
    (extractStep c s).nodeAddress = c.nodeAddress ∧ (extractStep c s).nodeType = c.nodeType ∧
      (extractStep c s).eventTime = c.eventTime := by
  unfold extractStep processSample processSimpleMetric processObjectStoreMetric processLlmMetric
  repeat' split
  all_goals exact ⟨rfl, rfl, rfl⟩

/-- Processing the samples keeps the node and the event time. -/
theorem foldl_extractStep_frame (samples : List Sample) (c : BillingMetricsCollector) :
    (samples.foldl extractStep c).nodeAddress = c.nodeAddress ∧
      (samples.foldl extractStep c).nodeType = c.nodeType ∧ (samples.foldl extractStep c).eventTime = c.eventTime := by
  induction samples generalizing c with
  | nil => exact ⟨rfl, rfl, rfl⟩
  | cons s samples ih =>
    obtain ⟨h₁, h₂, h₃⟩ := extractStep_frame c s
    obtain ⟨h₁', h₂', h₃'⟩ := ih (extractStep c s)
    exact ⟨h₁'.trans h₁, h₂'.trans h₂, h₃'.trans h₃⟩

/-- A key that looks up a value is a key of the list. -/
theorem mem_map_fst_of_lookup {β : Type} {l : List ((String × List String) × β)} {key : String × List String}
    {b : β} (h : l.lookup key = some b) : key ∈ l.map Prod.fst := by
  induction l with
  | nil => cases h
  | cons e l ih =>
    rw [HashMap.lookup_cons_ite] at h
    split at h
    · rename_i hk
      exact hk ▸ List.mem_map_of_mem _ (List.mem_cons_self _ _)
    · exact List.mem_cons_of_mem _ (ih h)

/-- Keeping the positive values and mapping them is filtering the pairs, then mapping. -/
theorem filterMap_pos_eq {α β : Type} (l : List α) (g : α → Option UInt64) (ev : α → UInt64 → β) :
    l.filterMap (fun a => (g a).bind fun v => if 0 < v then some (ev a v) else none) =
      ((l.filterMap fun a => (g a).map fun v => (a, v)).filter fun e => 0 < e.2).map fun e => ev e.1 e.2 := by
  induction l with
  | nil => rfl
  | cons a l ih =>
    cases h : g a with
    | none => simp [List.filterMap_cons, h, ih]
    | some v => by_cases hv : 0 < v <;> simp [List.filterMap_cons, h, hv, ih, List.filter_cons]

/-- For every sample list, node address and node type, the events are, up to order,
the expected event of each key read from the samples whose last value is positive
as a u64, stamped with the collector's one event time. -/
theorem extractBillingMetricsFromSamples_events (now : NaiveDateTime) (samples : List Sample)
    (nodeAddress nodeType : String) :
    (extractBillingMetricsFromSamples now samples nodeAddress nodeType).Perm
      (expectedEvents samples nodeAddress nodeType now) := by
  let c := samples.foldl extractStep (BillingMetricsCollector.new nodeAddress nodeType now)
  let keys := ((samples.filterMap billingReading).map Prod.fst).dedup
  let pairs := keys.filterMap fun key => ((lastValue samples key).map Float.toUInt64).map fun v => (key, v)
  have hlookup : ∀ key, c.lookup key = (lastValue samples key).map Float.toUInt64 := fun key => by
    simp [c, lookup_foldl_extractStep, lookup_new]
  -- the collector's entries are the pairs the spec reads off the samples
  have hpairs : pairs.Nodup := (List.nodup_dedup _).filterMap fun a a' b hb hb' => by
    simp only [Option.mem_def, Option.map_eq_some'] at hb hb'
    obtain ⟨_, -, rfl⟩ := hb
    obtain ⟨_, -, h⟩ := hb'
    exact (congrArg Prod.fst h).symm
  have hperm : c.entries.Perm pairs := by
    refine (List.perm_ext_iff_of_nodup ((nodup_entries c).of_map _) hpairs).mpr fun ⟨key, v⟩ => ?_
    rw [mem_entries, hlookup]
    simp only [pairs, keys, List.mem_filterMap, List.mem_dedup, Option.map_map, Function.comp_def,
      Option.map_eq_some', Prod.mk.injEq]
    constructor
    · rintro ⟨w, hw, rfl⟩
      have hk : key ∈ (samples.filterMap billingReading).map Prod.fst := by
        simpa [List.map_reverse] using mem_map_fst_of_lookup hw
      exact ⟨key, hk, w, hw, rfl, rfl⟩
    · rintro ⟨_, -, w, hw, rfl, rfl⟩
      exact ⟨w, hw, rfl⟩
  obtain ⟨h₁, h₂, h₃⟩ := foldl_extractStep_frame samples (BillingMetricsCollector.new nodeAddress nodeType now)
  rw [extractBillingMetricsFromSamples, intoEvents_eq, expectedEvents, filterMap_pos_eq]
  simp only [c] at hperm
  rw [h₁, h₂, h₃]
  exact (hperm.filter _).map _

end Parseable.BillingMetrics

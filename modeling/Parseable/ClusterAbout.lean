import Mathlib.Data.List.Perm.Basic
import Parseable.ClusterMetrics

/-!
# Cluster info from the nodes' /about

get_cluster_info loads the metadata of the four roles, calls `/about` on every node
of each role concurrently (buffer_unordered, so the results come in any order) and
lists one ClusterInfo per node. fetch_node_info marks a node unreachable only when
the request itself fails; a reply of any status is read as JSON, and a body that is
unreadable, not JSON or without a string `staging` is an error, which fetch_nodes_info
and get_cluster_info return with `?`. So the call succeeds exactly when every node's
/about does, and then lists, up to order, what fetch_node_info gives for each node.

serde_json::from_slice, the storage endpoint and the outcome of each node's request
are parameters; utils::ClusterInfo and StreamError, declared outside the cluster
module, are modelled from the spec.
-/

namespace Parseable.ClusterAbout

open ClusterMetrics

/-- `StreamError`, the variants get_cluster_info raises. Modelled from the spec. -/
inductive StreamError
  | network (message : String)
  | serdeError (message : String)
  | anyhow (err : PostError)

/-- `http::StatusCode`, by its number; ClusterInfo prints it with to_string. -/
structure StatusCode where
  code : Nat
  deriving DecidableEq

/-- `utils::ClusterInfo`, with the fields ClusterInfo::new takes, in its order.
Modelled from the spec. -/
structure ClusterInfo where
  domainName : String
  reachable : Bool
  stagingPath : String
  storageEndpoint : String
  error : Option String
  status : Option StatusCode
  nodeType : String

/-- How one GET of a node's `/about` went. -/
inductive AboutOutcome
  /-- send() failed, with the error's text and the status it carries, if any. -/
  | sendFailed (message : String) (status : Option StatusCode)
  /-- A reply, whatever its status, and what resp.bytes() read or why it failed. -/
  | reply (status : StatusCode) (bytes : Except String String)

section Fetch

variable (parseJson : String → Except String JsonValue) (storageEndpoint : String)
  (about : NodeMetadata → AboutOutcome)

/-- The staging path fetch_node_info reads off a reply's body. -/
def readStaging (bytes : Except String String) : Except StreamError String := do
  let respData ← bytes.mapError StreamError.network
  let value ← (parseJson respData).mapError StreamError.serdeError
  let staging ← match value.get "staging" with
    | some staging => pure staging
    | none => throw (.serdeError "missing field `staging`")
  match staging.asStr with
  | some sp => pure sp
  | none => throw (.serdeError "staging path not a string/ not provided")

/-- `fetch_node_info`; the URL is taken to parse. -/
def fetchNodeInfo (node : NodeMetadata) : Except StreamError ClusterInfo := do
  let (reachable, stagingPath, error, status) ← match about node with
    | .reply status bytes => do
      let sp ← readStaging parseJson bytes
      pure (true, sp, none, some status)
    | .sendFailed message status => pure (false, "", some message, status)
  return ⟨node.domainName, reachable, stagingPath, storageEndpoint, error, status, node.nodeType⟩

/-- The loop of fetch_nodes_info, `infos.push(result?)` over the results in
completion order. -/
def collectInfos : List (Except StreamError ClusterInfo) → Except StreamError (List ClusterInfo)
  | [] => .ok []
  | .ok info :: results => (collectInfos results).map (info :: ·)
  | .error err :: _ => .error err

/-- `fetch_nodes_info`; `completed` lists the nodes in the order buffer_unordered
completed their calls. -/
def fetchNodesInfo (nodes completed : List NodeMetadata) : Except StreamError (List ClusterInfo) :=
  if nodes.length = 0 then .ok []
  else collectInfos (completed.map (fetchNodeInfo parseJson storageEndpoint about))

/-- `get_cluster_info`, given what get_node_info returned for each role and the
completion order of each role's calls; the JSON array of its 200 reply. -/
def getClusterInfo (nodeInfo : NodeType → Except String (List NodeMetadata))
    (completed : NodeType → List NodeMetadata) : Except StreamError (List ClusterInfo) := do
  let load := fun role => ((nodeInfo role).mapError PostError.invalid).mapError StreamError.anyhow
  let prismMetadata ← load .prism
  let querierMetadata ← load .querier
  let ingestorMetadata ← load .ingestor
  let indexerMetadata ← load .indexer
  let fetch := fetchNodesInfo parseJson storageEndpoint about
  let prismInfos ← fetch prismMetadata (completed .prism)
  let querierInfos ← fetch querierMetadata (completed .querier)
  let ingestorInfos ← fetch ingestorMetadata (completed .ingestor)
  let indexerInfos ← fetch indexerMetadata (completed .indexer)
  return prismInfos ++ querierInfos ++ ingestorInfos ++ indexerInfos

/-! ## One node -/

/-- A body yields a staging path exactly when it is read, parses as JSON and has a
string `staging`. -/
theorem readStaging_eq_ok {bytes : Except String String} {sp : String} :
    readStaging parseJson bytes = .ok sp ↔
      ∃ respData value, bytes = .ok respData ∧ parseJson respData = .ok value ∧
        value.get "staging" = some (.string sp) := by
  cases bytes with
  | error e => simp [readStaging, Except.mapError, bind, Except.bind]
  | ok respData =>
    cases hv : parseJson respData with
    | error e => simp [readStaging, hv, Except.mapError, bind, Except.bind]
    | ok value =>
      simp only [readStaging, hv, Except.mapError, bind, Except.bind, pure, Except.pure]
      rcases hs : value.get "staging" with _ | _ | _ | _ | s | _ | _ <;>
        simp [hv, hs, JsonValue.asStr, throw, throwThe, MonadExceptOf.throw, Except.bind, eq_comm]

/-- fetch_node_info succeeds on a failed request, marking the node unreachable, and
on a reply of any status whose body gives a staging path, marking it reachable. -/
theorem fetchNodeInfo_eq_ok {node : NodeMetadata} {info : ClusterInfo} :
    fetchNodeInfo parseJson storageEndpoint about node = .ok info ↔
      (∃ message status, about node = .sendFailed message status ∧
          info = ⟨node.domainName, false, "", storageEndpoint, some message, status, node.nodeType⟩) ∨
        ∃ status bytes sp, about node = .reply status bytes ∧ readStaging parseJson bytes = .ok sp ∧
          info = ⟨node.domainName, true, sp, storageEndpoint, none, some status, node.nodeType⟩ := by
  unfold fetchNodeInfo
  cases about node with
  | sendFailed message status =>
    simp only [bind, Except.bind, pure, Except.pure]
    simp [and_assoc, eq_comm]
  | reply status bytes =>
    cases h : readStaging parseJson bytes
    · simp [h, bind, Except.bind]
    · simp only [h, bind, Except.bind, pure, Except.pure]
      simp [h, and_assoc, eq_comm]

/-! ## A role and the cluster -/

/-- collect_infos succeeds exactly when every result does, with their infos in order. -/
theorem collectInfos_eq_ok {results : List (Except StreamError ClusterInfo)} {infos : List ClusterInfo} :
    collectInfos results = .ok infos ↔ results = infos.map .ok := by
  induction results generalizing infos with
  | nil => cases infos <;> simp [collectInfos]
  | cons r results ih =>
    cases r with
    | error err => cases infos <;> simp [collectInfos]
    | ok info =>
      cases infos with
      | nil => cases h : collectInfos results <;> simp [collectInfos, h, Except.map]
      | cons info' infos =>
        cases h : collectInfos results with
        | error e => simp [collectInfos, h, Except.map, ← ih, eq_comm]
        | ok infos'' => simp [collectInfos, h, Except.map, ← ih, eq_comm, and_comm]

/-- collect_infos fails only with the error of one of the results. -/
theorem collectInfos_eq_error {results : List (Except StreamError ClusterInfo)} {err : StreamError}
    (h : collectInfos results = .error err) : .error err ∈ results := by
  induction results with
  | nil => cases h
  | cons r results ih =>
    cases r with
    | error e => cases h; exact List.mem_cons_self _ _
    | ok info =>
      cases hr : collectInfos results with
      | error e =>
        rw [collectInfos, hr] at h
        cases h
        exact List.mem_cons_of_mem _ (ih hr)
      | ok infos => simp [collectInfos, hr, Except.map] at h

/-- What a result of fetch_nodes_info or get_cluster_info says of the nodes it covers:
a failure is the error of one of them, a success lists, up to order, what
fetch_node_info gives for each. -/
def Covers (nodes : List NodeMetadata) : Except StreamError (List ClusterInfo) → Prop
  | .ok infos => (infos.map .ok).Perm (nodes.map (fetchNodeInfo parseJson storageEndpoint about))
  | .error err => ∃ node ∈ nodes, fetchNodeInfo parseJson storageEndpoint about node = .error err

variable {parseJson storageEndpoint about}

/-- Whatever order its calls complete in, a role's result covers its nodes. -/
theorem covers_fetchNodesInfo {nodes completed : List NodeMetadata} (hc : completed.Perm nodes) :
    Covers parseJson storageEndpoint about nodes (fetchNodesInfo parseJson storageEndpoint about nodes completed) := by
  unfold fetchNodesInfo
  split
  · rename_i hn
    simp [Covers, List.length_eq_zero.mp hn]
  · cases h : collectInfos (completed.map (fetchNodeInfo parseJson storageEndpoint about)) with
    | ok infos =>
      show (infos.map _).Perm _
      rw [← collectInfos_eq_ok.mp h]
      exact hc.map _
    | error err =>
      obtain ⟨node, hn, he⟩ := List.mem_map.mp (collectInfos_eq_error h)
      exact ⟨node, hc.subset hn, he⟩

/-- Two results, the second taken once the first succeeds, cover both node lists. -/
theorem Covers.append {n₁ n₂ : List NodeMetadata} {r₁ r₂ : Except StreamError (List ClusterInfo)}
    (h₁ : Covers parseJson storageEndpoint about n₁ r₁) (h₂ : Covers parseJson storageEndpoint about n₂ r₂) :
    Covers parseJson storageEndpoint about (n₁ ++ n₂) (do let a ← r₁; let b ← r₂; pure (a ++ b)) := by
  cases r₁ with
  | error e =>
    obtain ⟨node, hn, he⟩ := h₁
    exact ⟨node, List.mem_append_left _ hn, he⟩
  | ok a =>
    cases r₂ with
    | error e =>
      obtain ⟨node, hn, he⟩ := h₂
      exact ⟨node, List.mem_append_right _ hn, he⟩
    | ok b =>
      show ((a ++ b).map Except.ok).Perm ((n₁ ++ n₂).map _)
      rw [List.map_append, List.map_append]
      exact List.Perm.append h₁ h₂

/-- With every role loaded, get_cluster_info is the four roles' results in turn. -/
theorem getClusterInfo_eq {nodeInfo : NodeType → Except String (List NodeMetadata)}
    {completed : NodeType → List NodeMetadata} {prism querier ingestor indexer : List NodeMetadata}
    (hp : nodeInfo .prism = .ok prism) (hq : nodeInfo .querier = .ok querier)
    (hi : nodeInfo .ingestor = .ok ingestor) (hx : nodeInfo .indexer = .ok indexer) :
    getClusterInfo parseJson storageEndpoint about nodeInfo completed = (do
      let prismInfos ← fetchNodesInfo parseJson storageEndpoint about prism (completed .prism)
      let querierInfos ← fetchNodesInfo parseJson storageEndpoint about querier (completed .querier)
      let ingestorInfos ← fetchNodesInfo parseJson storageEndpoint about ingestor (completed .ingestor)
      let indexerInfos ← fetchNodesInfo parseJson storageEndpoint about indexer (completed .indexer)
      return prismInfos ++ querierInfos ++ ingestorInfos ++ indexerInfos) := by
  simp only [getClusterInfo, hp, hq, hi, hx, Except.mapError, bind, Except.bind]

/-- With every role loaded and each role's calls completing in some order, the result of
get_cluster_info covers the nodes of the cluster. -/
theorem covers_getClusterInfo {nodeInfo : NodeType → Except String (List NodeMetadata)}
    {completed : NodeType → List NodeMetadata}
    (hcompleted : ∀ role nodes, nodeInfo role = .ok nodes → (completed role).Perm nodes)
    {prism querier ingestor indexer : List NodeMetadata}
    (hp : nodeInfo .prism = .ok prism) (hq : nodeInfo .querier = .ok querier)
    (hi : nodeInfo .ingestor = .ok ingestor) (hx : nodeInfo .indexer = .ok indexer) :
    Covers parseJson storageEndpoint about (prism ++ querier ++ ingestor ++ indexer)
      (getClusterInfo parseJson storageEndpoint about nodeInfo completed) := by
  have h : Covers parseJson storageEndpoint about (prism ++ querier ++ ingestor ++ indexer) _ :=
    (((covers_fetchNodesInfo (hcompleted _ _ hp)).append (covers_fetchNodesInfo (hcompleted _ _ hq))).append
      (covers_fetchNodesInfo (hcompleted _ _ hi))).append (covers_fetchNodesInfo (hcompleted _ _ hx))
  rw [getClusterInfo_eq hp hq hi hx]
  revert h
  cases fetchNodesInfo parseJson storageEndpoint about prism (completed .prism) <;>
    cases fetchNodesInfo parseJson storageEndpoint about querier (completed .querier) <;>
    cases fetchNodesInfo parseJson storageEndpoint about ingestor (completed .ingestor) <;>
    cases fetchNodesInfo parseJson storageEndpoint about indexer (completed .indexer) <;> exact id

/-- With every role loaded and each role's calls completing in some order, get_cluster_info
succeeds exactly when every node's fetch_node_info does, and then lists, up to order, what
fetch_node_info gives for each node; otherwise it fails with the error of some node's
/about. fetch_node_info succeeds exactly on a failed request, listing the node unreachable
with an empty staging path and the request's error, or on a reply of any status whose
body is read, parses as JSON and has a string staging, listing it reachable. -/
theorem getClusterInfo_results {nodeInfo : NodeType → Except String (List NodeMetadata)}
    {completed : NodeType → List NodeMetadata}
    (hcompleted : ∀ role nodes, nodeInfo role = .ok nodes → (completed role).Perm nodes)
    {prism querier ingestor indexer : List NodeMetadata}
    (hp : nodeInfo .prism = .ok prism) (hq : nodeInfo .querier = .ok querier)
    (hi : nodeInfo .ingestor = .ok ingestor) (hx : nodeInfo .indexer = .ok indexer) :
    (∀ infos, getClusterInfo parseJson storageEndpoint about nodeInfo completed = .ok infos →
        (infos.map .ok).Perm ((prism ++ querier ++ ingestor ++ indexer).map
          (fetchNodeInfo parseJson storageEndpoint about))) ∧
      (∀ err, getClusterInfo parseJson storageEndpoint about nodeInfo completed = .error err →
        ∃ node ∈ prism ++ querier ++ ingestor ++ indexer,
          fetchNodeInfo parseJson storageEndpoint about node = .error err) ∧
      ((∃ infos, getClusterInfo parseJson storageEndpoint about nodeInfo completed = .ok infos) ↔
        ∀ node ∈ prism ++ querier ++ ingestor ++ indexer,
          ∃ info, fetchNodeInfo parseJson storageEndpoint about node = .ok info) ∧
      ∀ node info, fetchNodeInfo parseJson storageEndpoint about node = .ok info ↔
        (∃ message status, about node = .sendFailed message status ∧
            info = ⟨node.domainName, false, "", storageEndpoint, some message, status, node.nodeType⟩) ∨
          ∃ status respData value sp, about node = .reply status (.ok respData) ∧
            parseJson respData = .ok value ∧ value.get "staging" = some (.string sp) ∧
            info = ⟨node.domainName, true, sp, storageEndpoint, none, some status, node.nodeType⟩ := by
  have hcov : Covers parseJson storageEndpoint about _ (getClusterInfo parseJson storageEndpoint about nodeInfo completed) :=
    covers_getClusterInfo hcompleted hp hq hi hx
  refine ⟨fun infos h => by rwa [h] at hcov, fun err h => by rwa [h] at hcov, ?_, fun node info => ?_⟩
  · cases h : getClusterInfo parseJson storageEndpoint about nodeInfo completed with
    | ok infos =>
      -- each node's result is among the listed ones
      rw [h] at hcov
      refine iff_of_true ⟨infos, rfl⟩ fun node hn => ?_
      obtain ⟨info, -, he⟩ := List.mem_map.mp (hcov.mem_iff.mpr (List.mem_map_of_mem _ hn))
      exact ⟨info, he.symm⟩
    | error err =>
      rw [h] at hcov
      obtain ⟨node, hn, he⟩ := hcov
      refine iff_of_false (fun ⟨_, h⟩ => by cases h) fun hall => ?_
      obtain ⟨info, hinfo⟩ := hall node hn
      rw [hinfo] at he
      cases he
  · -- a reply succeeds exactly when its body gives a staging path
    rw [fetchNodeInfo_eq_ok]
    refine or_congr_right ⟨?_, ?_⟩
    · rintro ⟨status, bytes, sp, habout, hread, rfl⟩
      obtain ⟨respData, value, rfl, hv, hs⟩ := (readStaging_eq_ok parseJson).mp hread
      exact ⟨status, respData, value, sp, habout, hv, hs, rfl⟩
    · rintro ⟨status, respData, value, sp, habout, hv, hs, rfl⟩
      exact ⟨status, .ok respData, sp, habout, (readStaging_eq_ok parseJson).mpr ⟨respData, value, rfl, hv, hs⟩, rfl⟩

end Fetch

/-- Every role loaded, and one querier whose /about request is refused. -/
theorem getClusterInfo_results_refused_querier :
    let node := querierNode "http://querier-a:8000/"
    let parseJson : String → Except String JsonValue := fun _ => .error "expected value at line 1 column 1"
    let about : NodeMetadata → AboutOutcome := fun _ => .sendFailed "connection refused" none
    let nodeInfo : NodeType → Except String (List NodeMetadata) := fun role => .ok (querierOnly node role)
    let all := [] ++ [node] ++ [] ++ []
    (∀ role nodes, nodeInfo role = .ok nodes → (querierOnly node role).Perm nodes) ∧
      nodeInfo .prism = .ok [] ∧ nodeInfo .querier = .ok [node] ∧ nodeInfo .ingestor = .ok [] ∧
      nodeInfo .indexer = .ok [] ∧
      (∀ infos, getClusterInfo parseJson "s3://parseable" about nodeInfo (querierOnly node) = .ok infos →
        (infos.map .ok).Perm (all.map (fetchNodeInfo parseJson "s3://parseable" about))) ∧
      (∀ err, getClusterInfo parseJson "s3://parseable" about nodeInfo (querierOnly node) = .error err →
        ∃ node ∈ all, fetchNodeInfo parseJson "s3://parseable" about node = .error err) ∧
      ((∃ infos, getClusterInfo parseJson "s3://parseable" about nodeInfo (querierOnly node) = .ok infos) ↔
        ∀ node ∈ all, ∃ info, fetchNodeInfo parseJson "s3://parseable" about node = .ok info) ∧
      ∀ node info, fetchNodeInfo parseJson "s3://parseable" about node = .ok info ↔
        (∃ message status, about node = .sendFailed message status ∧
            info = ⟨node.domainName, false, "", "s3://parseable", some message, status, node.nodeType⟩) ∨
          ∃ status respData value sp, about node = .reply status (.ok respData) ∧
            parseJson respData = .ok value ∧ value.get "staging" = some (.string sp) ∧
            info = ⟨node.domainName, true, sp, "s3://parseable", none, some status, node.nodeType⟩ := by
  intro node parseJson about nodeInfo all
  have hc : ∀ role nodes, nodeInfo role = .ok nodes → (querierOnly node role).Perm nodes := by
    rintro role nodes ⟨⟩
    exact List.Perm.refl _
  exact ⟨hc, rfl, rfl, rfl, rfl, getClusterInfo_results hc rfl rfl rfl rfl⟩

/-- Every role loads and the one querier answers its /about, with status 500, a body
that is not JSON: get_cluster_info returns that parse error instead of listing the
node as unreachable. -/
theorem getClusterInfo_fails_on_error_page (parseJson : String → Except String JsonValue) (storageEndpoint : String)
    (err : String) (hparse : parseJson "Internal Server Error" = .error err) :
    getClusterInfo parseJson storageEndpoint (fun _ => .reply ⟨500⟩ (.ok "Internal Server Error"))
        (fun role => .ok (querierOnly (querierNode "http://querier-a:8000/") role))
        (querierOnly (querierNode "http://querier-a:8000/")) = .error (.serdeError err) := by
  simp [getClusterInfo, querierOnly, fetchNodesInfo, collectInfos, fetchNodeInfo, readStaging, hparse,
    Except.mapError, bind, Except.bind, pure, Except.pure]

/-- serde_json's error on a body that does not start a JSON value. -/
theorem getClusterInfo_fails_on_error_page_expected_value :
    (fun _ => .error "expected value at line 1 column 1" : String → Except String JsonValue)
        "Internal Server Error" = .error "expected value at line 1 column 1" ∧
      getClusterInfo (fun _ => .error "expected value at line 1 column 1") "s3://parseable"
          (fun _ => .reply ⟨500⟩ (.ok "Internal Server Error"))
          (fun role => .ok (querierOnly (querierNode "http://querier-a:8000/") role))
          (querierOnly (querierNode "http://querier-a:8000/")) =
        .error (.serdeError "expected value at line 1 column 1") :=
  ⟨rfl, getClusterInfo_fails_on_error_page _ _ _ rfl⟩

end Parseable.ClusterAbout

import Parseable.Broadcast

/-!
# Requests to one node, and removing a node

get_demo_data_from_ingestor probes the ingestors in metadata order, stops at the first one
probed live and forwards the demo-data request to it. send_stream_delete_request and
send_retention_cleanup_request send one request to one ingestor; they differ in whether they
probe it first and in what a non-2xx reply means. remove_node refuses a node probed live, and
otherwise deletes the node's metadata under the ingestor, indexer, querier and prism roles in
turn, each deletion with `?`.

The main result: a removal that returns its error from the metastore has deleted the node's
metadata under the roles before the failing one and kept the rest, so remove_node is not
atomic; a removal that gets past the four deletions leaves no metadata of the node and
reports success exactly when there was some.

check_liveness, to_url_string, each request's outcome and the metastore's
delete_node_metadata are parameters; what remove_node needs of the last is `DeleteSpec`.
-/

namespace Parseable.NodeRequests

open ClusterMetrics ClusterAbout Broadcast

/-- `StatusCode::is_success`: 200 to 299. -/
def isSuccess (status : StatusCode) : Bool := 200 ≤ status.code && status.code < 300

/-! ## get_demo_data_from_ingestor -/

section Single

variable (send : Request → Except String StatusCode)

/-- The request both single-ingestor calls send: JSON content type and the ingestor's token. -/
def ingestorRequest (method : Method) (url : String) (ingestor : NodeMetadata) (body : Option String) : Request :=
  ⟨method, url, [("content-type", "application/json"), ("authorization", ingestor.token)], body⟩

/-- `send_stream_delete_request(url, ingestor)`: nothing for an ingestor probed dead; a failed
send is the Network error, and a reply of any status is Ok, a non-2xx one being only logged. -/
def sendStreamDeleteRequest (checkLiveness : String → Bool) (url : String) (ingestor : NodeMetadata) :
    Except StreamError Unit :=
  if !checkLiveness ingestor.domainName then .ok ()
  else
    match send (ingestorRequest .delete url ingestor none) with
    | .error err => .error (.network err)
    | .ok _ => .ok ()

/-- `ObjectStorageError::Custom`, the one variant send_retention_cleanup_request raises. -/
inductive ObjectStorageError
  | custom (message : String)
  deriving DecidableEq

/-- `send_retention_cleanup_request(url, ingestor, dates)`: POST the dates with no probe; a
failed send and a non-2xx reply are both Custom errors, the latter with the reply's text as
Debug prints it. `datesJson` is the JSON of the dates, `replyText` the text of a reply. -/
def sendRetentionCleanupRequest (replyText : StatusCode → String) (url : String) (ingestor : NodeMetadata)
    (datesJson : String) : Except ObjectStorageError Unit :=
  match send (ingestorRequest .post url ingestor (some datesJson)) with
  | .error err => .error (.custom err)
  | .ok status =>
    if isSuccess status then .ok ()
    else .error (.custom ("failed to perform cleanup on retention: " ++ ingestor.domainName ++
      "\nResponse Returned: " ++ replyText status))

end Single

/-! ## remove_node -/

section Remove

variable {σ E : Type}

/-- What remove_node needs of `delete_node_metadata(domain_name, node_type)`, declared outside
the cluster module, with `holds store domainName role` saying whether the metastore holds
metadata of that node under that role: a deletion that succeeds reports whether it did, leaves
none, and keeps every other record. A failed deletion changes nothing. -/
structure DeleteSpec (holds : σ → String → NodeType → Bool)
    (deleteNodeMetadata : String → NodeType → σ → Except E (Bool × σ)) : Prop where
  removed {domainName role store removed store'} :
    deleteNodeMetadata domainName role store = .ok (removed, store') → removed = holds store domainName role
  deleted {domainName role store removed store'} :
    deleteNodeMetadata domainName role store = .ok (removed, store') → holds store' domainName role = false
  kept {domainName role store removed store'} :
    deleteNodeMetadata domainName role store = .ok (removed, store') →
      ∀ d t, d ≠ domainName ∨ t ≠ role → holds store' d t = holds store d t

variable (deleteNodeMetadata : String → NodeType → σ → Except E (Bool × σ))

/-- The deletions of remove_node under `roles`, in order, each with `?`: the flags and the
metastore after them, or the first error and the metastore at that point. -/
def deleteRoles (domainName : String) : List NodeType → σ → Except E (List Bool) × σ
  | [], store => (.ok [], store)
  | role :: roles, store =>
    match deleteNodeMetadata domainName role store with
    | .error err => (.error err, store)
    | .ok (removed, store) =>
      let (rest, store) := deleteRoles domainName roles store
      (rest.map (removed :: ·), store)

/-- The roles remove_node deletes, in its order. -/
def removeRoles : List NodeType := [.ingestor, .indexer, .querier, .prism]

/-- `remove_node(node_url)`: the reply's text and status, or the error, and the metastore
after the call. `fromMetastore` is the conversion `?` applies to a metastore error. -/
def removeNode (toUrlString : String → String) (checkLiveness : String → Bool) (fromMetastore : E → PostError)
    (nodeUrl : String) (store : σ) : Except PostError (String × StatusCode) × σ :=
  let domainName := toUrlString nodeUrl
  if checkLiveness domainName then (.error (.invalid "The node is currently live and cannot be removed"), store)
  else
    match deleteRoles deleteNodeMetadata domainName removeRoles store with
    | (.error err, store) => (.error (fromMetastore err), store)
    | (.ok removed, store) =>
      if removed.any id then (.ok ("node " ++ domainName ++ " removed successfully", ⟨200⟩), store)
      else (.error (.invalid ("node " ++ domainName ++ " not found")), store)

variable {holds : σ → String → NodeType → Bool} {deleteNodeMetadata}

/-- The deletions under distinct roles keep the records of other nodes; when they all
succeed, each flag says whether the node had metadata under its role and none is left. -/
theorem deleteRoles_spec (hspec : DeleteSpec holds deleteNodeMetadata) (domainName : String) :
    ∀ (roles : List NodeType) (store : σ), roles.Nodup →
      (∀ d t, d ≠ domainName → holds (deleteRoles deleteNodeMetadata domainName roles store).2 d t = holds store d t) ∧
      ∀ removed, (deleteRoles deleteNodeMetadata domainName roles store).1 = .ok removed →
        removed = roles.map (holds store domainName) ∧
          ∀ t, holds (deleteRoles deleteNodeMetadata domainName roles store).2 domainName t =
            if t ∈ roles then false else holds store domainName t
  | [], store, _ => ⟨fun _ _ _ => rfl, fun removed h => by cases h; exact ⟨rfl, fun t => rfl⟩⟩
  | role :: roles, store, hnd => by
    obtain ⟨hrole, hnd⟩ := List.nodup_cons.mp hnd
    cases hdel : deleteNodeMetadata domainName role store with
    | error err =>
      rw [deleteRoles, hdel]
      exact ⟨fun _ _ _ => rfl, fun _ h => (nomatch h)⟩
    | ok result =>
      obtain ⟨removed, store'⟩ := result
      obtain ⟨hother, hok⟩ := deleteRoles_spec hspec domainName roles store' hnd
      have hkept := hspec.kept hdel
      rw [deleteRoles, hdel]
      dsimp only
      refine ⟨fun d t hd => (hother d t hd).trans (hkept d t (.inl hd)), fun all h => ?_⟩
      cases hrest : (deleteRoles deleteNodeMetadata domainName roles store').1 with
      | error e => rw [hrest] at h; cases h
      | ok rest =>
        rw [hrest] at h
        cases h
        obtain ⟨hflags, hleft⟩ := hok rest hrest
        refine ⟨?_, fun t => (hleft t).trans ?_⟩
        · rw [hflags, hspec.removed hdel, List.map_cons]
          congr 1
          exact List.map_congr_left fun t ht => hkept domainName t (.inr fun he => hrole (he ▸ ht))
        · -- the first deletion empties the first role and keeps the others
          by_cases ht : t = role
          · subst ht; simp [hrole, hspec.deleted hdel]
          · simp [ht, hkept domainName t (.inr ht)]

/-- When the deletions fail, those before the failing one succeeded, the failing one
returned the error, and the metastore is as they left it. -/
theorem deleteRoles_eq_error {domainName : String} {err : E} :
    ∀ {roles : List NodeType} {store : σ}, (deleteRoles deleteNodeMetadata domainName roles store).1 = .error err →
      ∃ pre role post flags store', roles = pre ++ role :: post ∧
        deleteRoles deleteNodeMetadata domainName pre store = (.ok flags, store') ∧
        deleteNodeMetadata domainName role store' = .error err ∧
        (deleteRoles deleteNodeMetadata domainName roles store).2 = store'
  | [], _, h => nomatch h
  | role :: roles, store, h => by
    cases hdel : deleteNodeMetadata domainName role store with
    | error e =>
      rw [deleteRoles, hdel] at h ⊢
      cases h
      exact ⟨[], role, roles, [], store, rfl, rfl, hdel, rfl⟩
    | ok result =>
      obtain ⟨removed, store₁⟩ := result
      rw [deleteRoles, hdel] at h ⊢
      dsimp only at h ⊢
      cases hrest : deleteRoles deleteNodeMetadata domainName roles store₁ with
      | mk rest store₂ =>
        rw [hrest] at h
        cases rest with
        | ok flags => cases h
        | error e =>
          cases h
          obtain ⟨pre, role', post, flags, store', hroles, hpre, hfail, hleft⟩ :=
            deleteRoles_eq_error (show (deleteRoles deleteNodeMetadata domainName roles store₁).1 = .error err by
              rw [hrest])
          refine ⟨role :: pre, role', post, removed :: flags, store', by rw [hroles, List.cons_append], ?_, hfail, ?_⟩
          · rw [deleteRoles, hdel]
            dsimp only
            rw [hpre]
            rfl
          · rw [hrest] at hleft
            exact hleft

/-- Every role is among those remove_node deletes. -/
theorem mem_removeRoles (role : NodeType) : role ∈ removeRoles := by
  cases role <;> decide

/-- remove_node refuses a node probed live and leaves the metastore as it was. Otherwise it
keeps every record of other nodes, and either gets through the four deletions, leaving no
metadata of the node and replying success when it had some and "not found" when it had none,
or the deletions before some role succeed, the one under that role fails, and remove_node
returns its error with the metastore those deletions left: the roles before it deleted and
the others kept, so a failed removal can leave the node half removed. -/
theorem removeNode_outcome (hspec : DeleteSpec holds deleteNodeMetadata) (toUrlString : String → String)
    (checkLiveness : String → Bool) (fromMetastore : E → PostError) (nodeUrl : String) (store : σ) :
    (checkLiveness (toUrlString nodeUrl) = true →
      removeNode deleteNodeMetadata toUrlString checkLiveness fromMetastore nodeUrl store =
        (.error (.invalid "The node is currently live and cannot be removed"), store)) ∧
    (checkLiveness (toUrlString nodeUrl) = false →
      let result := removeNode deleteNodeMetadata toUrlString checkLiveness fromMetastore nodeUrl store
      (∀ d t, d ≠ toUrlString nodeUrl → holds result.2 d t = holds store d t) ∧
      (((∀ t, holds result.2 (toUrlString nodeUrl) t = false) ∧
          ((result.1 = .ok ("node " ++ toUrlString nodeUrl ++ " removed successfully", ⟨200⟩) ∧
              ∃ t, holds store (toUrlString nodeUrl) t = true) ∨
            (result.1 = .error (.invalid ("node " ++ toUrlString nodeUrl ++ " not found")) ∧
              ∀ t, holds store (toUrlString nodeUrl) t = false))) ∨
        ∃ err pre role post flags store', removeRoles = pre ++ role :: post ∧
          deleteRoles deleteNodeMetadata (toUrlString nodeUrl) pre store = (.ok flags, store') ∧
          deleteNodeMetadata (toUrlString nodeUrl) role store' = .error err ∧
          result = (.error (fromMetastore err), store') ∧
          ∀ t, holds store' (toUrlString nodeUrl) t =
            if t ∈ pre then false else holds store (toUrlString nodeUrl) t)) := by
  refine ⟨fun hlive => by simp only [removeNode, hlive, if_true], fun hdead => ?_⟩
  have hnodup : removeRoles.Nodup := by decide
  obtain ⟨hother, hok⟩ := deleteRoles_spec hspec (toUrlString nodeUrl) removeRoles store hnodup
  simp only [removeNode, hdead, Bool.false_eq_true, if_false]
  cases hdel : deleteRoles deleteNodeMetadata (toUrlString nodeUrl) removeRoles store with
  | mk outcome store' =>
    rw [hdel] at hother hok
    cases outcome with
    | error err =>
      -- the deletions before the failing one succeeded and left the metastore
      obtain ⟨pre, role, post, flags, store'', hroles, hpre, hfail, hleft⟩ :=
        deleteRoles_eq_error (show (deleteRoles deleteNodeMetadata (toUrlString nodeUrl) removeRoles store).1 =
          .error err by rw [hdel])
      rw [hdel] at hleft
      subst hleft
      have hpreNodup : pre.Nodup := (List.sublist_append_left pre (role :: post)).nodup (hroles ▸ hnodup)
      have hcleared := ((deleteRoles_spec hspec (toUrlString nodeUrl) pre store hpreNodup).2 flags
        (by rw [hpre])).2
      rw [hpre] at hcleared
      exact ⟨hother, .inr ⟨err, pre, role, post, flags, _, hroles, hpre, hfail, rfl, hcleared⟩⟩
    | ok removed =>
      obtain ⟨hflags, hleft⟩ := hok removed rfl
      have hnone : ∀ t, holds store' (toUrlString nodeUrl) t = false := fun t => by
        rw [hleft t, if_pos (mem_removeRoles t)]
      have hany : removed.any id = true ↔ ∃ t, holds store (toUrlString nodeUrl) t = true := by
        simp [hflags, mem_removeRoles]
      dsimp only
      by_cases h : removed.any id = true
      · rw [if_pos h]
        exact ⟨hother, .inl ⟨hnone, .inl ⟨rfl, hany.mp h⟩⟩⟩
      · rw [if_neg h]
        exact ⟨hother, .inl ⟨hnone, .inr ⟨rfl, fun t => Bool.eq_false_iff.mpr fun ht => h (hany.mpr ⟨t, ht⟩)⟩⟩⟩

end Remove

/-- A metastore of (domain, role) records whose deletions all succeed. -/
def listDelete (domainName : String) (role : NodeType) (store : List (String × NodeType)) :
    Except String (Bool × List (String × NodeType)) :=
  .ok (decide ((domainName, role) ∈ store), store.filter fun record => record ≠ (domainName, role))

/-- Whether the list metastore holds the record of a node under a role. -/
def listHolds (store : List (String × NodeType)) (domainName : String) (role : NodeType) : Bool :=
  decide ((domainName, role) ∈ store)

/-- The list metastore meets what remove_node needs of a deletion. -/
theorem listDelete_spec : DeleteSpec listHolds listDelete where
  removed h := by cases h; rfl
  deleted h := by cases h; simp [listHolds]
  kept h := by
    cases h
    intro d t hne
    simp only [listHolds, List.mem_filter, ne_eq, decide_eq_decide]
    constructor
    · exact fun h => h.1
    · intro h
      refine ⟨h, decide_eq_true fun he => ?_⟩
      cases he
      simp at hne

/-- An ingestor that is down, and a querier. -/
def twoNodeStore : List (String × NodeType) :=
  [("http://ingestor-b:8000/", .ingestor), ("http://querier-a:8000/", .querier)]

/-- Removing the ingestor that is down deletes its record only and replies success. -/
theorem removeNode_outcome_dead_ingestor :
    DeleteSpec listHolds listDelete ∧
      removeNode listDelete id (fun _ => false) .invalid "http://ingestor-b:8000/" twoNodeStore =
        (.ok ("node http://ingestor-b:8000/ removed successfully", ⟨200⟩), [("http://querier-a:8000/", .querier)]) ∧
      ∀ d t, d ≠ "http://ingestor-b:8000/" →
        listHolds (removeNode listDelete id (fun _ => false) .invalid "http://ingestor-b:8000/" twoNodeStore).2 d t =
          listHolds twoNodeStore d t :=
  ⟨listDelete_spec, rfl,
    ((removeNode_outcome listDelete_spec id (fun _ => false) .invalid "http://ingestor-b:8000/" twoNodeStore).2
      rfl).1⟩

end Parseable.NodeRequests

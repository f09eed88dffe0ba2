import Parseable.ClusterAbout

/-!
# Broadcasts to the live ingestors

for_each_live_ingestor loads the ingestors' metadata, probes each record in metadata
order, pushing the live ones, applies api_fn to every record pushed and awaits all the
applications with join_all, which keeps their order; it returns the first error in that
order, or Ok. Each application is modelled with what it sends, so what the broadcast
sends is what its applications sent. The sync_* broadcasts pass it a closure that sends
one request to the ingestor: a failed send is the broadcast's Network error, and a reply
of any status is Ok, a non-2xx one being only logged. So every live ingestor is sent the
request once, and a broadcast fails exactly when one of them could not be reached, with
the error of the first such ingestor in metadata order.

check_liveness, the outcome of each request and base_path_without_preceding_slash are
parameters. StreamError, RBACError and RoleError are declared outside the cluster
module; each broadcast takes the conversions it uses (From<anyhow::Error>, Network and,
for the role sync, InvalidSyncOperation and SerdeError) as parameters.
-/

namespace Parseable.Broadcast

open ClusterAbout

/-- The HTTP methods of the sync broadcasts. -/
inductive Method
  | put
  | post
  | patch
  | delete

/-- One request a broadcast sends to an ingestor. -/
structure Request where
  method : Method
  url : String
  /-- The headers in the order the builder sets them; `authorization` carries the
  ingestor's token. -/
  headers : List (String × String)
  body : Option String

section ForEach

variable {E : Type} (fromAnyhow : String → E)

/-- The loop of for_each_live_ingestor that pushes, in metadata order, the records
check_liveness finds live. -/
def liveIngestors (checkLiveness : String → Bool) (ingestorInfos : List NodeMetadata) : List NodeMetadata :=
  ingestorInfos.foldl (fun live ingestor => if checkLiveness ingestor.domainName then live ++ [ingestor] else live) []

/-- `for result in results { result?; }`, then `Ok(())`. -/
def collectResults : List (Except E Unit) → Except E Unit
  | [] => .ok ()
  | .ok () :: results => collectResults results
  | .error err :: _ => .error err

/-- `for_each_live_ingestor`, given what get_node_info returned. Each application of api_fn
returns what it sent and its result; join_all awaits one future per live record, in their
order, so the broadcast sends what the applications sent and returns the first error. -/
def forEachLiveIngestor {α : Type} (ingestorInfos : Except String (List NodeMetadata))
    (checkLiveness : String → Bool) (apiFn : NodeMetadata → List α × Except E Unit) : List α × Except E Unit :=
  match ingestorInfos with
  | .error err => ([], .error (fromAnyhow err))
  | .ok ingestorInfos =>
    let results := (liveIngestors checkLiveness ingestorInfos).map apiFn
    (results.flatMap Prod.fst, collectResults (results.map Prod.snd))

variable {α : Type} (ingestorInfos : List NodeMetadata) (checkLiveness : String → Bool)
  (apiFn : NodeMetadata → List α × Except E Unit)

end ForEach

/-! ## The sync broadcasts -/

section Sync

variable {E : Type} (fromAnyhow network : String → E) (send : Request → Except String StatusCode)

/-- The closure of every sync_* broadcast: send the request, which is all it sends; a
failed send is the Network error, a reply of any status is Ok, a non-2xx one being only
logged. -/
def forwardRequest (request : Request) : List Request × Except E Unit :=
  ([request], match send request with
    | .error err => .error (network err)
    | .ok _ => .ok ())

/-- A sync broadcast: for_each_live_ingestor with the closure that forwards
`request ingestor` to each live ingestor. -/
def syncWithIngestors (request : NodeMetadata → Request) (ingestorInfos : Except String (List NodeMetadata))
    (checkLiveness : String → Bool) : List Request × Except E Unit :=
  forEachLiveIngestor fromAnyhow ingestorInfos checkLiveness fun ingestor => forwardRequest network send (request ingestor)

variable (basePath : String)

/-- `sync_user_deletion_with_ingestors`. -/
def syncUserDeletionWithIngestors (userid : String) :
    Except String (List NodeMetadata) → (String → Bool) → List Request × Except E Unit :=
  syncWithIngestors fromAnyhow network send fun ingestor =>
    ⟨.delete, ingestor.domainName ++ basePath ++ "/user/" ++ userid ++ "/sync",
      [("authorization", ingestor.token)], none⟩

/-- `sync_user_creation_with_ingestors`; `userData` is what to_vec gave for the user,
its roles replaced by the given ones if any. -/
def syncUserCreationWithIngestors (serdeError : String → E) (userid : String) (userData : Except String String)
    (ingestorInfos : Except String (List NodeMetadata)) (checkLiveness : String → Bool) :
    List Request × Except E Unit :=
  match userData with
  | .error err => ([], .error (serdeError err))
  | .ok userData =>
    syncWithIngestors fromAnyhow network send (fun ingestor =>
      ⟨.post, ingestor.domainName ++ basePath ++ "/user/" ++ userid ++ "/sync",
        [("authorization", ingestor.token), ("content-type", "application/json")], some userData⟩)
      ingestorInfos checkLiveness

/-- `sync_password_reset_with_ingestors`. -/
def syncPasswordResetWithIngestors (username : String) :
    Except String (List NodeMetadata) → (String → Bool) → List Request × Except E Unit :=
  syncWithIngestors fromAnyhow network send fun ingestor =>
    ⟨.post, ingestor.domainName ++ basePath ++ "/user/" ++ username ++ "/generate-new-password/sync",
      [("authorization", ingestor.token), ("content-type", "application/json")], none⟩

/-- `sync_role_update_with_ingestors`; `privileges` is the JSON of the privilege list. -/
def syncRoleUpdateWithIngestors (name privileges : String) :
    Except String (List NodeMetadata) → (String → Bool) → List Request × Except E Unit :=
  syncWithIngestors fromAnyhow network send fun ingestor =>
    ⟨.put, ingestor.domainName ++ basePath ++ "/role/" ++ name ++ "/sync",
      [("authorization", ingestor.token), ("content-type", "application/json")], some privileges⟩

end Sync

end Parseable.Broadcast

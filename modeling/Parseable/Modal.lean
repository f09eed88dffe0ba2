import Mathlib.Algebra.Group.Int
import Mathlib.Order.Basic

/-!
# Node metadata and the values exchanged with peers

The records the cluster module receives from the metastore and from its peers.
Only the fields the modelled functions read are kept: a node's domain, token and
type. Instants are readings of the monotonic clock.
-/

namespace Parseable

/-- `NodeType`: the role under which the metastore keeps a node's metadata. -/
inductive NodeType
  | ingestor
  | indexer
  | querier
  | prism
  deriving DecidableEq, Repr

/-- The fields of `NodeMetadata` that the cluster module reads. -/
structure NodeMetadata where
  /-- `domain_name`: the node's base URL. -/
  domainName : String
  /-- `token`: sent as the `Authorization` header of every request to the node. -/
  token : String
  /-- `node_type()`, as billing events and cluster info print it. -/
  nodeType : String
  deriving DecidableEq, Repr

/-- `QuerierMetadata` is the metadata record of a querier. -/
abbrev QuerierMetadata := NodeMetadata

/-- `std::time::Instant`, as a reading of the monotonic clock. -/
abbrev Instant := Nat

/-- `chrono::NaiveDateTime`, as the instant it names. -/
abbrev NaiveDateTime := Int

/-- `serde_json::Value`. -/
inductive JsonValue
  | null
  | bool (b : Bool)
  | number (n : Int)
  | string (s : String)
  | array (items : List JsonValue)
  | object (fields : List (String × JsonValue))
  deriving Repr

/-- `Value::get(key)`: a field of an object; `None` for every other value. -/
def JsonValue.get (v : JsonValue) (key : String) : Option JsonValue :=
  match v with
  | .object fields => fields.lookup key
  | _ => none

/-- `Value::as_str()`. -/
def JsonValue.asStr : JsonValue → Option String
  | .string s => some s
  | _ => none

/-- `Value::as_object()`: an object's entries, in the map's iteration order. -/
def JsonValue.asObject : JsonValue → Option (List (String × JsonValue))
  | .object fields => some fields
  | _ => none

/-- `Value::as_u64()`: a number that fits a u64. -/
def JsonValue.asU64 : JsonValue → Option Nat
  | .number n => if 0 ≤ n ∧ n < 2 ^ 64 then some n.toNat else none
  | _ => none

end Parseable

import ExtensionSdkMongodb.Data.Json
import ExtensionSdkMongodb.Data.Text
import ExtensionSdkMongodb.Sdk.Error

/-!
# Decoding the responses of OpenSearch

The replica-set stage reads candidates by the text of their `_id`. The `_id` of a hit on mongos is
the JSON text of a document key; `MongoKey` is a key as `decodeHit` accepts it.
-/

set_option autoImplicit false

namespace ExtensionSdkMongodb.OpenSearch

/-- The error of a response with more hits than rows requested. -/
def tooManyHits (hits limit : ℕ) : String :=
  "OpenSearch returned more hits than requested (" ++ toString hits ++ " > " ++
    toString limit ++ ")"

/-! ## Candidates of the replica set -/

/-- The body of the loop of `decode_candidates`. -/
def decodeCandidate (scoreKey : String) (hit : Json) : Except String Document :=
  match (hit.get "_id").bind Json.asStr with
  | none => .error "OpenSearch hit missing _id"
  | some id =>
    let score := ((hit.get "_score").bind Json.asF64).getD ⟨0⟩
    .ok (Document.insert [("_id", .string id)] scoreKey (.double score))

/-- `decode_candidates`. -/
def decodeCandidates (value : Json) (scoreKey : String) (limit : ℕ) :
    Except String (List Document) :=
  match (value.pointer ["hits", "hits"]).bind Json.asArray with
  | none => .error "OpenSearch response missing hits.hits"
  | some hits =>
    if limit < hits.length then .error (tooManyHits hits.length limit)
    else hits.mapM (decodeCandidate scoreKey)

/-! ## Document keys of mongos -/

/-- `serde_json::from_str` and `Bson::try_from` on the key of a hit, with the texts of their
errors. -/
structure KeyReaders where
  fromStr : String → Except String Json
  tryFrom : Json → Except String Bson

/-- A component of a field path that MongoDB accepts. -/
def validPart (part : String) : Bool :=
  match part.toList with
  | [] => false
  | first :: rest => first != '$' && !(first :: rest).contains (Char.ofNat 0)

/-- A document key: it has an `_id`, and its fields are named by valid paths. -/
structure MongoKey where
  fields : Document
  hasId : fields.containsKey "_id" = true
  validPaths : ∀ path ∈ fields.keys, ∀ part ∈ splitAt '.' path, validPart part = true

/-- The value of the key's `_id`. -/
def MongoKey.id (key : MongoKey) : Bson := (key.fields.get "_id").get key.hasId

/-- `invalid`. -/
def invalid (message : String) : ExtensionError := .runtime message

/-- The key of `decode_hit`, from the text of the hit's `_id`. -/
def decodeKey (readers : KeyReaders) (raw : String) : Except ExtensionError MongoKey :=
  if 512 < raw.utf8ByteSize then
    .error (invalid "OpenSearch composite document key exceeds 512 UTF-8 bytes")
  else
    match readers.fromStr raw with
    | .error e => .error (invalid ("Invalid document key JSON: " ++ e))
    | .ok json =>
      match readers.tryFrom json with
      | .error e => .error (invalid ("Invalid document key BSON: " ++ e))
      | .ok (.document key) =>
        if valid : Document.containsKey key "_id" = true ∧
            ∀ path ∈ Document.keys key, ∀ part ∈ splitAt '.' path, validPart part = true then
          .ok ⟨key, valid.1, valid.2⟩
        else .error (invalid "Document key needs _id and valid MongoDB field paths")
      | .ok _ => .error (invalid "Document key must be an object")

/-- `decode_hit`. -/
def decodeHit (readers : KeyReaders) (hit : Json) : Except ExtensionError (MongoKey × Double) :=
  match (hit.get "_id").bind Json.asStr with
  | none => .error (invalid "OpenSearch hit missing string _id")
  | some raw => do
    let key ← decodeKey readers raw
    match ((hit.get "_score").bind Json.asF64).filter Double.isFinite with
    | none => .error (invalid "OpenSearch hit missing finite score")
    | some score => return (key, score)

/-- A response that covers only a part of the index. -/
def incomplete (value : Json) : Bool :=
  (value.get "timed_out").bind Json.asBool == some true ||
    0 < (((value.pointer ["_shards", "failed"]).bind Json.asU64).getD 0)

/-- `decode_response`. -/
def decodeResponse (readers : KeyReaders) (value : Json) (limit : ℕ) :
    Except ExtensionError (List (MongoKey × Double)) :=
  if incomplete value then .error (invalid "OpenSearch returned incomplete results")
  else
    match (value.pointer ["hits", "hits"]).bind Json.asArray with
    | none => .error (invalid "OpenSearch response missing hits.hits")
    | some hits =>
      if limit < hits.length then .error (invalid (tooManyHits hits.length limit))
      else hits.mapM (decodeHit readers)

end ExtensionSdkMongodb.OpenSearch

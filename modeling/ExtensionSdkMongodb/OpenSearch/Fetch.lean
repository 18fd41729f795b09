import ExtensionSdkMongodb.Library.Failover
import ExtensionSdkMongodb.OpenSearch.Response
import ExtensionSdkMongodb.OpenSearch.VectorSearch
import ExtensionSdkMongodb.SourceStage.Exec

/-!
# Fetching rows from the OpenSearch endpoints

Both vector search stages fetch their rows on the first call of `next`, by a failover over the
configured endpoints, and then hand them out one by one. They judge the responses differently:
for the replica set a response that does not decode is passed over, for mongos the first
response decides. `search_keeps_contract` says of both what their calls do under every behaviour of
the host and of the endpoints.
-/

set_option autoImplicit false

namespace ExtensionSdkMongodb.OpenSearch

open SourceStage (Next)

/-! ## The outside -/

/-- What has happened at the host and the endpoints so far. -/
abbrev FetchLog := List (Failover.Step String Duration (Except String Json) ExtensionError)

/-- What the host, the clock and the endpoints answer after what has happened so far. -/
structure World where
  checkInterrupt : FetchLog → Except ExtensionError Unit
  nowMs : FetchLog → Int64
  deadlineTimestampMs : FetchLog → Except ExtensionError (Option Int64)
  postSearch : FetchLog → String → Json → Duration → Except String Json

/-- `check_interrupt`. -/
def World.interrupt (world : World) (log : FetchLog) : Except ExtensionError Unit × FetchLog :=
  (world.checkInterrupt log, log ++ [.interrupt (world.checkInterrupt log)])

/-- `next_attempt_timeout`. -/
def nextAttemptTimeout (world : World) (max : Duration) (log : FetchLog) :
    Except ExtensionError Duration := do
  world.checkInterrupt log
  let deadline ← world.deadlineTimestampMs log
  requestTimeout deadline (world.nowMs log) max

/-- The outside of a fetch that sends one body to the URLs of the endpoints. -/
def World.outside (world : World) (url : String → String) (body : Json) (max : Duration) :
    Failover.Outside String Duration (Except String Json) ExtensionError where
  permit log := nextAttemptTimeout world max log
  attempt log endpoint timeout := world.postSearch log (url endpoint) body timeout
  interrupt := world.checkInterrupt

/-! ## The replica set -/

def scoreKey : String := "$vectorSearchScore"

/-- How `fetch_candidates` takes a response. -/
def candidatesPolicy (limit : ℕ) :
    Failover.Policy String (Except String Json) ExtensionError String (List Document) where
  verdict _ response :=
    match response.bind fun value => decodeCandidates value scoreKey limit with
    | .ok documents => .settled (.ok documents)
    | .error err => .passed err
  exhausted errors :=
    .runtime ("all OpenSearch endpoints failed: " ++ errors.getLast?.getD "no endpoint attempted")

/-- `limit as usize`. -/
def QueryArgs.limitUsize (args : QueryArgs) : ℕ := args.limit.toUInt64.toNat

/-- `fetch_candidates`. -/
def fetchCandidates (toValue : Bson → Option Json) (world : World) (state : SearchState)
    (log : FetchLog) : Except ExtensionError (List Document) × FetchLog :=
  let url endpoint := trimEndMatches (· == '/') endpoint ++ "/" ++ state.index ++ "/_search"
  Failover.run (world.outside url (opensearchBody toValue state.args) state.timeout)
    (candidatesPolicy state.args.limitUsize) state.config.endpoints [] log

/-- The state with the rows of a fetch. -/
def SearchState.load (state : SearchState) (documents : List Document) : SearchState :=
  { state with pending := documents, loaded := true }

/-- What `next_result` makes of a candidate. -/
def candidateNext (document : Document) : Next :=
  .advanced (document.erase scoreKey)
    ((document.get scoreKey).map fun score => [(scoreKey, score)])

/-- The end of `next_result`: the front of the pending rows. -/
def SearchState.popFront (state : SearchState) : Next × SearchState :=
  match state.pending with
  | document :: pending => (candidateNext document, { state with pending })
  | [] => (.eof, state)

/-- `next_result`. -/
def nextResult (toValue : Bson → Option Json) (world : World) :
    Machine (SearchState × FetchLog) Unit (Except ExtensionError Next) :=
  fun (state, log) _ =>
    match world.interrupt log with
    | (.error e, log) => (.error e, (state, log))
    | (.ok (), log) =>
      if state.loaded then (.ok state.popFront.1, (state.popFront.2, log))
      else
        match fetchCandidates toValue world state log with
        | (.error e, log) => (.error e, (state, log))
        | (.ok documents, log) =>
          (.ok (state.load documents).popFront.1, ((state.load documents).popFront.2, log))

/-! ## Mongos -/

/-- The state of an open search on mongos. -/
structure RouterState where
  args : QueryArgs
  index : String
  config : OpenSearchConfig
  rows : Option (List (MongoKey × Double))

/-- How `fetch` takes a response. -/
def hitsPolicy (readers : KeyReaders) (limit : ℕ) :
    Failover.Policy String (Except String Json) ExtensionError String
      (List (MongoKey × Double)) where
  verdict endpoint response :=
    match response with
    | .ok response => .settled (decodeResponse readers response limit)
    | .error e => .passed (endpoint ++ ": " ++ e)
  exhausted errors := invalid ("All OpenSearch endpoints failed: " ++ "; ".intercalate errors)

/-- `fetch`. -/
def fetch (readers : KeyReaders) (toValue : Bson → Option Json) (world : World)
    (state : RouterState) (log : FetchLog) :
    Except ExtensionError (List (MongoKey × Double)) × FetchLog :=
  let url endpoint :=
    trimEndMatches (· == '/') endpoint ++ "/" ++ state.index ++
      "/_search?allow_partial_search_results=false"
  Failover.run (world.outside url (opensearchBody toValue state.args) defaultTimeout)
    (hitsPolicy readers state.args.limitUsize) state.config.endpoints [] log

/-- What `RouterVectorSearch::next` makes of a key and its score. -/
def routerNext (row : MongoKey × Double) : Next :=
  .advanced
    [("_id", row.1.id),
      ("__mongoKey", .array (row.1.fields.map fun field =>
        .document [("k", .string field.1), ("v", field.2)]))]
    (some [(scoreKey, .double row.2)])

/-- The end of `RouterVectorSearch::next`: the front of the rows. -/
def popRow : List (MongoKey × Double) → Next × List (MongoKey × Double)
  | row :: rows => (routerNext row, rows)
  | [] => (.eof, [])

/-- `RouterVectorSearch::next`. -/
def routerNextResult (readers : KeyReaders) (toValue : Bson → Option Json) (world : World) :
    Machine (RouterState × FetchLog) Unit (Except ExtensionError Next) :=
  fun (state, log) _ =>
    match world.interrupt log with
    | (.error e, log) => (.error e, (state, log))
    | (.ok (), log) =>
      match state.rows with
      | some rows => (.ok (popRow rows).1, ({ state with rows := some (popRow rows).2 }, log))
      | none =>
        match fetch readers toValue world state log with
        | (.error e, log) => (.error e, (state, log))
        | (.ok rows, log) =>
          (.ok (popRow rows).1, ({ state with rows := some (popRow rows).2 }, log))

end ExtensionSdkMongodb.OpenSearch

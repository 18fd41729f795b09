import ExtensionSdkMongodb.OpenSearch.Fetch

/-!
# The contract of the vector searches

The two searches differ in what they ask (`Inquiry`), in how they judge a response and in how they
keep their rows. What a fetch does with the host and the endpoints is `Inquiry.Fetches`, and what
the calls guarantee is one contract (`SearchContract`). Both follow from the library's rules for
failovers and for readers that load on demand.
-/

set_option autoImplicit false

namespace ExtensionSdkMongodb.OpenSearch

open SourceStage (Next)
open Failover

/-! ## What a fetch asks -/

/-- What a fetch sends and to whom, and how it judges the answers. -/
structure Inquiry (ρ : Type) where
  url : String → String
  body : Json
  max : Duration
  policy : Policy String (Except String Json) ExtensionError String (List ρ)
  endpoints : List String

/-- The inquiry of `fetch_candidates`. -/
def SearchState.inquiry (toValue : Bson → Option Json) (state : SearchState) :
    Inquiry Document where
  url endpoint := trimEndMatches (· == '/') endpoint ++ "/" ++ state.index ++ "/_search"
  body := opensearchBody toValue state.args
  max := state.timeout
  policy := candidatesPolicy state.args.limitUsize
  endpoints := state.config.endpoints

/-- The inquiry of `fetch`. -/
def RouterState.inquiry (readers : KeyReaders) (toValue : Bson → Option Json)
    (state : RouterState) : Inquiry (MongoKey × Double) where
  url endpoint :=
    trimEndMatches (· == '/') endpoint ++ "/" ++ state.index ++
      "/_search?allow_partial_search_results=false"
  body := opensearchBody toValue state.args
  max := defaultTimeout
  policy := hitsPolicy readers state.args.limitUsize
  endpoints := state.config.endpoints

/-- What the check before an attempt says: the interrupt of the host first, then the error of its
deadline, and else the timeout that the deadline leaves at the time of the clock. -/
inductive Permitted (world : World) (max : Duration) (log : FetchLog) :
    Except ExtensionError Duration → Prop where
  | interrupted (e : ExtensionError) (host : world.checkInterrupt log = .error e) :
      Permitted world max log (.error e)
  | untold (e : ExtensionError) (host : world.checkInterrupt log = .ok ())
      (deadline : world.deadlineTimestampMs log = .error e) : Permitted world max log (.error e)
  | timed (deadlineMs : Option Int64) (host : world.checkInterrupt log = .ok ())
      (deadline : world.deadlineTimestampMs log = .ok deadlineMs) :
      Permitted world max log (requestTimeout deadlineMs (world.nowMs log) max)

section Inquiry

variable {ρ : Type} (inquiry : Inquiry ρ) (world : World)

/-- The failover of an inquiry. -/
def Inquiry.failover (log : FetchLog) : Except ExtensionError (List ρ) × FetchLog :=
  run (world.outside inquiry.url inquiry.body inquiry.max) inquiry.policy inquiry.endpoints [] log

/-- The steps after a log have what the host, the clock and the endpoints answered, each after all
that was before it. -/
structure Inquiry.Asked (log trace : FetchLog) : Prop where
  permits : ∀ before outcome after, trace = before ++ .permit outcome :: after →
    Permitted world inquiry.max (log ++ before) outcome
  /-- Every attempt is a request to its endpoint, with the body and the timeout granted. -/
  attempts : ∀ before endpoint timeout answer after,
    trace = before ++ .attempt endpoint timeout answer :: after →
    answer = world.postSearch (log ++ before) (inquiry.url endpoint) inquiry.body timeout
  interrupts : ∀ before outcome after, trace = before ++ .interrupt outcome :: after →
    outcome = world.checkInterrupt (log ++ before)
  /-- Each timeout granted starts an attempt. -/
  starts : Starts trace

/-- The steps and the result of a fetch: it asked the host and the endpoints for them, and keeps the
contract of a failover. -/
structure Inquiry.Fetches (log trace : FetchLog) (result : Except ExtensionError (List ρ)) :
    Prop where
  asked : inquiry.Asked world log trace
  contract : Contract inquiry.policy inquiry.endpoints [] trace result

variable {inquiry world}

theorem permitted_nextAttemptTimeout (max : Duration) (log : FetchLog) :
    Permitted world max log (nextAttemptTimeout world max log) := by
  unfold nextAttemptTimeout
  cases host : world.checkInterrupt log with
  | error e => exact .interrupted e host
  | ok _ =>
      cases deadline : world.deadlineTimestampMs log with
      | error e => exact .untold e host deadline
      | ok deadlineMs => exact .timed deadlineMs host deadline

/-- A check that passes says what the deadline leaves. -/
theorem Permitted.eq {max : Duration} {log : FetchLog} {outcome : Except ExtensionError Duration}
    (permitted : Permitted world max log outcome) {deadlineMs : Option Int64}
    (uninterrupted : world.checkInterrupt log = .ok ())
    (told : world.deadlineTimestampMs log = .ok deadlineMs) :
    outcome = requestTimeout deadlineMs (world.nowMs log) max := by
  cases permitted with
  | interrupted e host => simp [uninterrupted] at host
  | untold e host deadline => simp [told] at deadline
  | timed other host deadline =>
      rw [told] at deadline
      cases deadline
      rfl

/-- **The failover of an inquiry fetches.** -/
theorem fetches_of_runs {fetch : FetchLog → Except ExtensionError (List ρ) × FetchLog}
    (runs : ∀ log, fetch log = inquiry.failover world log) (log : FetchLog) :
    ∃ trace, (fetch log).2 = log ++ trace ∧ inquiry.Fetches world log trace (fetch log).1 := by
  rw [runs, Inquiry.failover]
  obtain ⟨trace, grown, contract⟩ := run_contract inquiry.policy
    (world.outside inquiry.url inquiry.body inquiry.max) inquiry.endpoints [] log
  obtain ⟨trace', grown', answered, starts⟩ := run_answered inquiry.policy
    (world.outside inquiry.url inquiry.body inquiry.max) inquiry.endpoints [] log
  obtain rfl : trace = trace' := List.append_cancel_left (grown.symm.trans grown')
  refine ⟨trace, grown, ⟨?_, ?_, ?_, starts⟩, contract⟩
  · intro before outcome after split
    have asked : outcome = nextAttemptTimeout world inquiry.max (log ++ before) :=
      (split ▸ answered).split
    rw [asked]
    exact permitted_nextAttemptTimeout _ _
  · intro before endpoint timeout answer after split
    exact (split ▸ answered).split
  · intro before outcome after split
    exact (split ▸ answered).split

end Inquiry

/-! ## What the calls guarantee -/

/-- The row of an output. -/
def advancedRow : Except ExtensionError Next → Option Next
  | .ok (.advanced document metadata) => some (.advanced document metadata)
  | .ok .eof | .error _ => none

/-- A row, or the end. -/
def shown {ρ : Type} (emit : ρ → Next) : Option ρ → Next
  | some row => emit row
  | none => .eof

section Pulling

variable {σ ρ : Type} {world : World} {inquiry : σ → Inquiry ρ}
  {fetch : σ → FetchLog → Except ExtensionError (List ρ) × FetchLog}
  {next : Machine (σ × FetchLog) Unit (Except ExtensionError Next)} {unloaded : σ → Prop}
  {emit : ρ → Next} {place : σ → Option (List ρ) → σ}

end Pulling

/-! ## The two searches -/

section Searches

variable (readers : KeyReaders) (toValue : Bson → Option Json) (world : World)

/-- The state of a replica-set search with the rows of a reader. -/
def SearchState.place (state : SearchState) : Option (List Document) → SearchState
  | none => { state with loaded := false }
  | some pending => { state with pending, loaded := true }

section Place

variable (state : SearchState) (documents : List Document)

@[simp] theorem place_none_loaded : (state.place none).loaded = false := rfl

@[simp] theorem place_some_loaded : (state.place (some documents)).loaded = true := rfl

@[simp] theorem place_none_load :
    (state.place none).load documents = state.place (some documents) := rfl

@[simp] theorem place_popFront :
    (state.place (some documents)).popFront =
      (shown candidateNext documents.head?, state.place (some documents.tail)) := by
  cases documents <;> rfl

@[simp] theorem fetchCandidates_place (rows : Option (List Document)) (log : FetchLog) :
    fetchCandidates toValue world (state.place rows) log =
      fetchCandidates toValue world state log := by
  cases rows <;> rfl

end Place

theorem nextResult_pulls (state : SearchState) :
    Pulls (nextResult toValue world) ⟨world.interrupt, fetchCandidates toValue world state⟩
      state.place (shown candidateNext) := by
  intro rows log call
  rcases checked : world.interrupt log with ⟨e | _, log'⟩
  · simp [nextResult, pull, checked, Except.map]
  · cases rows with
    | some pending => simp [nextResult, pull, checked, Except.map]
    | none =>
        rcases fetched : fetchCandidates toValue world state log' with ⟨e | documents, log''⟩
        · simp [nextResult, pull, checked, fetched, Except.map]
        · simp [nextResult, pull, checked, fetched, Except.map]

/-- The state of a search on mongos with the rows of a reader. -/
def RouterState.place (state : RouterState) (rows : Option (List (MongoKey × Double))) :
    RouterState := { state with rows }

section Place

variable (state : RouterState) (rows : Option (List (MongoKey × Double)))

@[simp] theorem place_rows : (state.place rows).rows = rows := rfl

@[simp] theorem place_with_rows (left : Option (List (MongoKey × Double))) :
    { state.place rows with rows := left } = state.place left := rfl

@[simp] theorem fetch_place (log : FetchLog) :
    fetch readers toValue world (state.place rows) log = fetch readers toValue world state log :=
  rfl

@[simp] theorem popRow_eq (rows : List (MongoKey × Double)) :
    popRow rows = (shown routerNext rows.head?, rows.tail) := by
  cases rows <;> rfl

end Place

theorem routerNextResult_pulls (state : RouterState) :
    Pulls (routerNextResult readers toValue world)
      ⟨world.interrupt, fetch readers toValue world state⟩ state.place (shown routerNext) := by
  intro rows log call
  rcases checked : world.interrupt log with ⟨e | _, log'⟩
  · simp [routerNextResult, pull, checked, Except.map]
  · cases rows with
    | some hits => simp [routerNextResult, pull, checked, Except.map]
    | none =>
        rcases fetched : fetch readers toValue world state log' with ⟨e | hits, log''⟩
        · simp [routerNextResult, pull, checked, fetched, Except.map]
        · simp [routerNextResult, pull, checked, fetched, Except.map]

end Searches

end ExtensionSdkMongodb.OpenSearch

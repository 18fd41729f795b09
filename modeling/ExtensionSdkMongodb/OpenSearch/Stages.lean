import ExtensionSdkMongodb.Library.Feeding
import ExtensionSdkMongodb.OpenSearch.Hits
import ExtensionSdkMongodb.OpenSearch.Lookup
import ExtensionSdkMongodb.OpenSearch.SearchUrl
import ExtensionSdkMongodb.SourceStage.Scripts

/-!
# The vector searches as source stages

Each search is a source stage with a table of its own. Opening it contacts nobody. Its calls fail,
by their check or by their fetch, until one of them fetches a response. From that call on the rows
of the response are handed out, except where a check fails, and then the end (`Unfolds`).

`vectorSearch_runs` and `routerVectorSearch_searches` say this of every run of a compiled stage.
-/

set_option autoImplicit false

namespace ExtensionSdkMongodb.OpenSearch

open SourceStage (Cursor Memory Next Setup SourceStageImpl SourceTable)
open Failover

/-! ## Searches that pull -/

section Pulling

variable {α σ ρ : Type}

/-- What a pull yields for an answer of `next`. -/
def contentsOf (codec : BsonCodec) : Next → Except Status Contents
  | .advanced document metadata => Cursor.rowContents codec document metadata
  | .eof => .ok SourceStage.endOfStream

/-- A stage whose states hold the rows of a fetch, and which hands them out as its reader does. -/
structure PullsRows (stage : SourceStageImpl α σ FetchLog) (world : World)
    (fetch : FetchLog → Except ExtensionError (List ρ) × FetchLog)
    (place : Option (List ρ) → σ) (emit : ρ → Next) : Prop where
  next : ∀ rows ctx log, stage.next (place rows) ctx log =
    let answer := pull ⟨world.interrupt, fetch⟩ (rows, log) ()
    ((attempt (answer.1.map (shown emit)), place answer.2.1), answer.2.2)
  drop : ∀ s log, stage.dropInPlace s log = (some (), log)
  rowOf : ∀ row, ∃ document metadata, emit row = .advanced document metadata

/-- A check of the host, whatever it answers. -/
def IsCheck (step : Step String Duration (Except String Json) ExtensionError) : Prop :=
  ∃ outcome, step = .interrupt outcome

/-- A call with rows that the host interrupts, and answers with the status. -/
def Interrupted (world : World) (log : FetchLog) (out : Except Status Contents)
    (log' : FetchLog) : Prop :=
  ∃ e, world.checkInterrupt log = .error e ∧ out = .error e.intoRawStatus ∧
    log' = log ++ [.interrupt (.error e)]

/-- A call with rows that the host lets pass. -/
def Passed (world : World) (log log' : FetchLog) : Prop :=
  world.checkInterrupt log = .ok () ∧ log' = log ++ [.interrupt (.ok ())]

/-- A call without rows that fails: the host interrupts it, or its fetch fails, which has asked the
host and the endpoints and kept its contract. -/
inductive Fails (world : World) (inquiry : Inquiry ρ)
    (fetch : FetchLog → Except ExtensionError (List ρ) × FetchLog) (log : FetchLog)
    (out : Except Status Contents) : FetchLog → Prop where
  | interrupted (e : ExtensionError) (checked : world.checkInterrupt log = .error e)
      (fails : out = .error e.intoRawStatus) : Fails world inquiry fetch log out
        (log ++ [.interrupt (.error e)])
  | fetched (e : ExtensionError) (trace : FetchLog) (checked : world.checkInterrupt log = .ok ())
      (failed : fetch (log ++ [.interrupt (.ok ())]) =
        (.error e, log ++ [.interrupt (.ok ())] ++ trace))
      (fetches : inquiry.Fetches world (log ++ [.interrupt (.ok ())]) trace (.error e))
      (fails : out = .error e.intoRawStatus) : Fails world inquiry fetch log out
        (log ++ [.interrupt (.ok ())] ++ trace)

/-- The outputs and the last log of an open search. First calls fail, each by its check or by its
fetch. If a call fetches a response that decodes, that call and the later ones hand its rows out.
Each of these is checked until the end is reached, and only checks happen any more. -/
def Unfolds (codec : BsonCodec) (world : World) (inquiry : Inquiry ρ)
    (fetch : FetchLog → Except ExtensionError (List ρ) × FetchLog)
    (decodes : Json → List ρ → Prop) (emit : ρ → Next) (log : FetchLog)
    (outputs : List (Except Status Contents)) (last : FetchLog) : Prop :=
  ∃ failures handed before, outputs = failures ++ handed ∧
    Feeding.Refused (Fails world inquiry fetch) log failures before ∧
    (handed = [] ∧ last = before ∨ ∃ trace endpoint response rows checks,
      world.checkInterrupt before = .ok () ∧
      fetch (before ++ [.interrupt (.ok ())]) =
        (.ok rows, before ++ [.interrupt (.ok ())] ++ trace) ∧
      inquiry.Fetches world (before ++ [.interrupt (.ok ())]) trace (.ok rows) ∧
      (answers trace).getLast? = some (endpoint, .ok response) ∧ decodes response rows ∧
      Feeding.Answers (fun row => contentsOf codec (emit row)) (.ok SourceStage.endOfStream)
        (Interrupted world) (Passed world) rows (before ++ [.interrupt (.ok ())] ++ trace) handed
        last ∧
      last = before ++ [.interrupt (.ok ())] ++ trace ++ checks ∧ ∀ step ∈ checks, IsCheck step)

section Steps

variable {codec : BsonCodec} {stage : SourceStageImpl α σ FetchLog} {setup : Setup} {world : World}
  {inquiry : Inquiry ρ} {fetch : FetchLog → Except ExtensionError (List ρ) × FetchLog}
  {place : Option (List ρ) → σ} {emit : ρ → Next}

/-- The log has grown by checks only. -/
def Grown (log log' : FetchLog) : Prop :=
  ∃ checks, log' = log ++ checks ∧ ∀ step ∈ checks, IsCheck step

theorem Grown.refl (log : FetchLog) : Grown log log := ⟨[], (List.append_nil log).symm, by simp⟩

theorem Grown.check {log log' : FetchLog} (grown : Grown log log')
    (outcome : Except ExtensionError Unit) : Grown log (log' ++ [.interrupt outcome]) := by
  obtain ⟨checks, rfl, all⟩ := grown
  refine ⟨checks ++ [.interrupt outcome], List.append_assoc .., ?_⟩
  intro step member
  rcases List.mem_append.mp member with member | member
  · exact all step member
  · exact ⟨outcome, List.mem_singleton.mp member⟩

theorem grown_of_answers {shown : ρ → Except Status Contents} {ended : Except Status Contents}
    {rows : List ρ} {log last : FetchLog} {outputs : List (Except Status Contents)}
    (answers : Feeding.Answers shown ended (Interrupted world) (Passed world) rows log outputs
      last) :
    Grown log last := by
  refine answers.invariant (Grown log) ?_ ?_ (.refl log)
  · rintro log' out _ ⟨e, _, _, rfl⟩ grown
    exact grown.check (.error e)
  · rintro log' _ ⟨_, rfl⟩ grown
    exact grown.check (.ok ())

variable (place) in
/-- A cursor of a search with rows left. -/
def Holding (rows : List ρ) (c : Cursor σ FetchLog) : Prop :=
  ∃ log, c = ⟨some (place (some rows)), false, log⟩

/-- A cursor of a search that reported its end. -/
def Finished (c : Cursor σ FetchLog) : Prop := c.finished = true

theorem deliver_none (pulls : PullsRows stage world fetch place emit) (log : FetchLog) :
    Cursor.deliver codec stage (.ok (shown emit ([] : List ρ).head?))
        ⟨some (place (some ([] : List ρ).tail)), false, log⟩ =
      (.ok SourceStage.endOfStream, ⟨none, true, log⟩) := by
  simp only [List.head?_nil, List.tail_nil, shown, Cursor.deliver, Cursor.ended, pulls.drop]

theorem deliver_row (pulls : PullsRows stage world fetch place emit) (log : FetchLog) (row : ρ)
    (rows : List ρ) :
    Cursor.deliver codec stage (.ok (shown emit (row :: rows).head?))
        ⟨some (place (some (row :: rows).tail)), false, log⟩ =
      (contentsOf codec (emit row), ⟨some (place (some rows)), false, log⟩) := by
  obtain ⟨document, metadata, isRow⟩ := pulls.rowOf row
  simp only [List.head?_cons, List.tail_cons, shown, isRow, Cursor.deliver_advanced, contentsOf]

/-- A cursor that delivers the next of its rows. -/
theorem deliver_rows (pulls : PullsRows stage world fetch place emit) (log : FetchLog)
    (rows : List ρ) :
    Feeding.Answer (fun row => contentsOf codec (emit row)) (.ok SourceStage.endOfStream)
      (Holding place) Finished rows
      (Cursor.deliver codec stage (.ok (shown emit rows.head?))
        ⟨some (place (some rows.tail)), false, log⟩) := by
  cases rows with
  | nil =>
      rw [deliver_none pulls]
      exact .ended rfl
  | cons row rows =>
      rw [deliver_row pulls]
      exact .handed ⟨log, rfl⟩

/-- It only delivers, and asks nobody. -/
theorem deliver_world (pulls : PullsRows stage world fetch place emit) (log : FetchLog)
    (rows : List ρ) :
    (Cursor.deliver codec stage (.ok (shown emit rows.head?))
      ⟨some (place (some rows.tail)), false, log⟩).2.world = log := by
  cases rows with
  | nil => rw [deliver_none pulls]
  | cons row rows => rw [deliver_row pulls]

/-- A pull of an open search asks its reader. -/
theorem pull_place (pulls : PullsRows stage world fetch place emit) {argsDoc : Document}
    (decoded : codec.decode setup.args = .ok argsDoc) (rows : Option (List ρ)) (log : FetchLog)
    (queryCtx : Option ℕ) :
    Cursor.pull codec stage setup ⟨some (place rows), false, log⟩ queryCtx =
      let answer := pull ⟨world.interrupt, fetch⟩ (rows, log) ()
      Cursor.deliver codec stage (attempt (answer.1.map (shown emit)))
        ⟨some (place answer.2.1), false, answer.2.2⟩ := by
  rw [SourceStage.pull_some decoded, pulls.next]

/-- **With its rows there, a search feeds.** -/
theorem feeds_rows (pulls : PullsRows stage world fetch place emit) {argsDoc : Document}
    (decoded : codec.decode setup.args = .ok argsDoc) :
    Feeding.Feeds (Cursor.pull codec stage setup) Cursor.world
      (fun row => contentsOf codec (emit row)) (.ok SourceStage.endOfStream) (Interrupted world)
      (Passed world) (Holding place) Finished where
  call := by
    rintro rows c queryCtx ⟨log, rfl⟩
    rw [pull_place pulls decoded]
    rcases checked : world.checkInterrupt log with e | _
    · left
      simp only [pull, World.interrupt, checked, Except.map, attempt_error, Cursor.deliver]
      exact ⟨⟨e, checked, rfl, rfl⟩, _, rfl⟩
    · right
      simp only [pull, World.interrupt, checked, Except.map, attempt_ok]
      exact ⟨⟨checked, deliver_world pulls _ rows⟩, deliver_rows pulls _ rows⟩
  rest := by
    intro c queryCtx finished
    exact Cursor.pull_of_finished finished

/-- **Until it has fetched its rows a search fails.** -/
theorem awaits_rows (pulls : PullsRows stage world fetch place emit)
    (fetches : ∀ log, ∃ trace, (fetch log).2 = log ++ trace ∧
      inquiry.Fetches world log trace (fetch log).1) {argsDoc : Document}
    (decoded : codec.decode setup.args = .ok argsDoc) :
    Feeding.Awaits (Cursor.pull codec stage setup) Cursor.world
      (fun row => contentsOf codec (emit row)) (.ok SourceStage.endOfStream)
      (Fails world inquiry fetch)
      (fun log rows log' => world.checkInterrupt log = .ok () ∧
        fetch (log ++ [.interrupt (.ok ())]) = (.ok rows, log'))
      (Interrupted world) (Passed world) (fun c => ∃ log, c = ⟨some (place none), false, log⟩)
      (Holding place) Finished where
  call := by
    rintro c queryCtx ⟨log, rfl⟩
    rw [pull_place pulls decoded]
    rcases checked : world.checkInterrupt log with e | _
    · left
      simp only [pull, World.interrupt, checked, Except.map, attempt_error, Cursor.deliver]
      exact ⟨.interrupted e checked rfl, _, rfl⟩
    · rcases fetched : fetch (log ++ [.interrupt (.ok ())]) with ⟨e | rows, log'⟩
      · left
        simp only [pull, World.interrupt, checked, fetched, Except.map, attempt_error,
          Cursor.deliver]
        obtain ⟨trace, grown, fetches⟩ := fetches (log ++ [.interrupt (.ok ())])
        rw [fetched] at grown fetches
        subst grown
        exact ⟨.fetched e trace checked fetched fetches rfl, _, rfl⟩
      · right
        simp only [pull, World.interrupt, checked, fetched, Except.map, attempt_ok]
        exact ⟨rows, ⟨trivial, by rw [deliver_world pulls]⟩, deliver_rows pulls log' rows⟩
  feeds := feeds_rows pulls decoded

/-- **An open search unfolds**, whatever the host, the clock and the endpoints answer. -/
theorem unfolds_of_pulls (pulls : PullsRows stage world fetch place emit)
    (fetches : ∀ log, ∃ trace, (fetch log).2 = log ++ trace ∧
      inquiry.Fetches world log trace (fetch log).1) {decodes : Json → List ρ → Prop}
    (judged : ∀ endpoint answer rows, inquiry.policy.verdict endpoint answer = .settled (.ok rows) →
      ∃ response, answer = .ok response ∧ decodes response rows)
    {log : FetchLog}
    (opens : SourceStage.openAttempt codec stage setup log = (.ok (place none), log))
    (ctxs : List (Option ℕ)) :
    Unfolds codec world inquiry fetch decodes emit log
      ((Cursor.pull codec stage setup).outputs (.start log) ctxs)
      ((Cursor.pull codec stage setup).after (.start log) ctxs).world := by
  obtain ⟨argsDoc, decoded⟩ := SourceStage.decode_of_openAttempt opens
  obtain ⟨outputs, last⟩ := SourceStage.run_opened opens ctxs
  rw [outputs, last]
  obtain ⟨failures, handed, before, whole, refused, rest⟩ :=
    (awaits_rows pulls fetches decoded).run ⟨log, rfl⟩ ctxs
  refine ⟨failures, handed, before, whole, refused, ?_⟩
  rcases rest with none | ⟨rows, got, ⟨checked, fetched⟩, answered⟩
  · exact .inl none
  · right
    obtain ⟨trace, grown, asked⟩ := fetches (before ++ [.interrupt (.ok ())])
    rw [fetched] at grown asked
    subst grown
    obtain ⟨earlier, endpoint, answer, settled, -, verdict⟩ := asked.contract.settles
    obtain ⟨response, rfl, decodes⟩ := judged endpoint answer rows verdict
    obtain ⟨checks, same, all⟩ := grown_of_answers answered
    refine ⟨trace, endpoint, response, rows, checks, checked, fetched, asked, ?_, decodes, answered,
      same, all⟩
    rw [settled, List.getLast?_concat]

end Steps

/-- The runs of a compiled search. It never calls its upstream. If it cannot be opened, every call
fails alike and nobody is contacted. Otherwise its replies unfold. -/
def SearchRuns (codec : BsonCodec) (world : World) (opening : Except ExtensionError σ)
    (inquiry : σ → Inquiry ρ) (fetch : σ → FetchLog → Except ExtensionError (List ρ) × FetchLog)
    (decodes : σ → Json → List ρ → Prop) (emit : ρ → Next) (log : FetchLog) (replies : List Reply)
    (last : FetchLog) (taken : ℕ) : Prop :=
  ∃ outputs, List.Forall₂ SourceStage.Shows replies outputs ∧ taken = 0 ∧
    match opening with
    | .error e => outputs = List.replicate replies.length (.error e.intoRawStatus) ∧ last = log
    | .ok s => Unfolds codec world (inquiry s) (fetch s) (decodes s) emit log outputs last

/-- **A search with a table of its own runs as a search.** -/
theorem searchRuns_of_pulls {codec : BsonCodec} (stage : SourceStageImpl α σ FetchLog)
    {ops : SourceStage.SourceOps (Memory σ FetchLog)} {setup : Setup} {world : World}
    {opening : Except ExtensionError σ} {inquiry : σ → Inquiry ρ}
    {fetch : σ → FetchLog → Except ExtensionError (List ρ) × FetchLog}
    {place : σ → Option (List ρ) → σ} {emit : ρ → Next} {decodes : σ → Json → List ρ → Prop}
    (exported : { ops with staticPropertiesDoc := stage.sdkSourceStaticProperties } =
      stage.sdkSourceOps.toSourceOps)
    (alone : SourceStage.requiresInput ops = some false)
    (opens : ∀ log, SourceStage.openAttempt codec stage setup log = (attempt opening, log))
    (pulls : ∀ s, PullsRows stage world (fetch s) (place s) emit)
    (fresh : ∀ s, opening = .ok s → place s none = s)
    (runs : ∀ s log, fetch s log = (inquiry s).failover world log)
    (judged : ∀ s endpoint answer rows,
      (inquiry s).policy.verdict endpoint answer = .settled (.ok rows) →
        ∃ response, answer = .ok response ∧ decodes s response rows)
    (drops : stage.DropsQuietly) (log : FetchLog) (source : Option Upstream)
    (frames : List Frame) :
    SearchRuns codec world opening inquiry fetch decodes emit log
      ((SourceStage.execGetNext codec ops).outputs (setup.compiled ⟨.empty, log⟩ source) frames)
      ((SourceStage.execGetNext codec ops).after
        (setup.compiled ⟨.empty, log⟩ source) frames).hooks.world
      ((SourceStage.execGetNext codec ops).after
        (setup.compiled ⟨.empty, log⟩ source) frames).pulls := by
  obtain ⟨shows, last, taken⟩ := (SourceStage.runsAs_cursor_with codec stage drops setup log source
    frames exported).generates (.inl alone)
  refine ⟨_, shows, taken, ?_⟩
  rw [last]
  cases opening with
  | error e =>
      have tells : SourceStage.Tells codec stage setup log (.refused (.error e) id) :=
        .refused opens
      obtain ⟨outputs, world⟩ := tells.run (frames.map Frame.queryCtx)
      rw [outputs, world]
      refine ⟨?_, ?_⟩
      · have always : SourceStage.Script.pulled codec
            (.refused (.error e) id : SourceStage.Script FetchLog) =
              fun _ => .error e.intoRawStatus := by
          funext k
          rfl
        rw [SourceStage.Script.pulls, always, List.map_const', List.length_range, List.length_map,
          Machine.length_outputs]
      · cases frames.map Frame.queryCtx with
        | nil => rfl
        | cons q ctxs => simp [SourceStage.Script.world]
  | ok s =>
      apply unfolds_of_pulls (pulls s) (fetches_of_runs (runs s)) (judged s)
      rw [opens, fresh s rfl]
      rfl

end Pulling

/-! ## The replica set -/

section ReplicaSet

variable (unicode : UnicodeTables) (codec : BsonCodec)
variable (readers : OptionReaders) (options : Option Bytes)
variable (toValue : Bson → Option Json) (world : World)

/-- The properties of both stages: they take no documents from another stage. -/
def searchProperties : StageProperties :=
  { StageProperties.sourceStageDefault with requiresInput := false }

/-- The field that both tables add to their properties. -/
def providesScore (properties : Document) : Document :=
  properties.insert "providedMetadataFields" (.array [.string "vectorSearchScore"])

/-- `OpenSearchVectorSearch`. -/
def openSearchVectorSearch : SourceStageImpl QueryArgs SearchState FetchLog where
  name := vectorSearchName
  parse := fun args => attempt (parseVectorSearchArgs unicode args)
  openArgs := fun args ctx log => (attempt (openState readers options args ctx), log)
  next := fun state _ log =>
    let answer := nextResult toValue world (state, log) ()
    ((attempt answer.1, answer.2.1), answer.2.2)
  dropInPlace := fun _ log => (some (), log)
  expand := fun args => some (idLookupExpansion vectorSearchName args)
  properties := some searchProperties

/-- `vector_static_properties`. -/
def vectorStaticProperties : Document := providesScore searchProperties.toDocument

/-- `VECTOR_SEARCH_OPS`. -/
def vectorSearchOps : SourceTable (Memory SearchState FetchLog) where
  openFromDoc := (openSearchVectorSearch unicode readers options toValue world).sdkSourceOpen
  dropState := (openSearchVectorSearch unicode readers options toValue world).sdkSourceDrop
  next := (openSearchVectorSearch unicode readers options toValue world).sdkSourceNext
  staticPropertiesDoc := some vectorStaticProperties
  name := vectorSearchName
  expectEmpty := false
  expandInner := vectorExpandInner unicode
  mergingPipeline := none
  onExtensionInitialized := none

/-- The response decodes to the rows, and each row shows its hit. -/
def DecodesCandidates (limit : ℕ) (response : Json) (rows : List Document) : Prop :=
  decodeCandidates response scoreKey limit = .ok rows ∧ rows.length ≤ limit ∧
    ∃ hits, (response.pointer ["hits", "hits"]).bind Json.asArray = some hits ∧
      List.Forall₂ CandidateRow hits (rows.map candidateNext)

variable {unicode codec readers options toValue world}

theorem openSearch_pulls (state : SearchState) :
    PullsRows (openSearchVectorSearch unicode readers options toValue world) world
      (fetchCandidates toValue world state) state.place candidateNext where
  next := by
    intro rows ctx log
    simp only [openSearchVectorSearch, nextResult_pulls toValue world state rows log ()]
  drop := fun _ _ => rfl
  rowOf := fun _ => ⟨_, _, rfl⟩

theorem openAttempt_vectorOpen (setup : Setup) (log : FetchLog) :
    SourceStage.openAttempt codec (openSearchVectorSearch unicode readers options toValue world)
        setup log =
      (attempt (vectorOpen unicode codec readers options setup.args setup.openContext), log) := by
  simp only [SourceStage.openAttempt, vectorOpen, openSearchVectorSearch]
  cases codec.decode setup.args with
  | error e => rfl
  | ok d =>
      simp only
      cases parseVectorSearchArgs unicode d with
      | error e => rfl
      | ok args => rfl

/-- A search that was just opened has fetched nothing. -/
theorem vectorOpen_fresh {raw : Bytes} {ctx : StageContext} {state : SearchState}
    (opened : vectorOpen unicode codec readers options raw ctx = .ok state) :
    state.place none = state := by
  unfold vectorOpen at opened
  cases decoded : codec.decode raw with
  | error e => simp [decoded] at opened
  | ok d =>
      simp only [decoded] at opened
      obtain ⟨args, _, opened⟩ := bind_ok.mp opened
      unfold openState at opened
      split at opened
      · cases opened
      · obtain ⟨config, _, same⟩ := bind_ok.mp opened
        cases same
        rfl

theorem decodesCandidates_of_judged {limit : ℕ} {endpoint : String} {answer : Except String Json}
    {rows : List Document}
    (verdict : (candidatesPolicy limit).verdict endpoint answer = .settled (.ok rows)) :
    ∃ response, answer = .ok response ∧ DecodesCandidates limit response rows := by
  obtain ⟨response, hits, same, decoded, found, rowsOf, atMost⟩ := candidates_judged verdict
  exact ⟨response, same, decoded, atMost, hits, found, rowsOf⟩

variable (unicode codec readers options toValue world)

/-- **The runs of `$vectorSearch` on a replica set**, for every behaviour of the host, the clock and
the endpoints and every number of calls: when it can be opened it fails until one of its calls has a
response that decodes, and then it shows one row for each hit, in order, and the end. -/
theorem vectorSearch_runs (setup : Setup) (log : FetchLog) (source : Option Upstream)
    (frames : List Frame) :
    let ops := (vectorSearchOps unicode readers options toValue world).toSourceOps
    let last := (SourceStage.execGetNext codec ops).after (setup.compiled ⟨.empty, log⟩ source)
      frames
    SearchRuns codec world (vectorOpen unicode codec readers options setup.args setup.openContext)
      (SearchState.inquiry toValue) (fetchCandidates toValue world)
      (fun s => DecodesCandidates s.args.limitUsize) candidateNext log
      ((SourceStage.execGetNext codec ops).outputs (setup.compiled ⟨.empty, log⟩ source) frames)
      last.hooks.world last.pulls := by
  apply searchRuns_of_pulls (openSearchVectorSearch unicode readers options toValue world)
  · rfl
  · rfl
  · exact openAttempt_vectorOpen setup
  · exact openSearch_pulls
  · exact fun s opened => vectorOpen_fresh opened
  · exact fun _ _ => rfl
  · exact fun _ _ _ _ verdict => decodesCandidates_of_judged verdict
  · exact fun _ _ => rfl

end ReplicaSet

/-! ## Mongos -/

section Mongos

variable (unicode : UnicodeTables) (codec : BsonCodec)
variable (optionReaders : OptionReaders) (options : Option Bytes)
variable (readers : KeyReaders) (toValue : Bson → Option Json) (world : World)

/-- `matches!(limit, Bson::Int32(_) | Bson::Int64(_))`. -/
def isInteger : Bson → Bool
  | .int32 _ | .int64 _ => true
  | _ => false

/-- A text field at the top of a document that is no field of the index itself. -/
def projectedFlatTextField (path : String) : Bool :=
  path.toList.head? != some '_' && !path.toList.contains '.' &&
    !"_embedding".toList.isSuffixOf path.toList

/-- `RouterVectorSearch::parse`. -/
def routerParse (args : Document) : Except ExtensionError QueryArgs :=
  match args.keys.find? fun name => !(["path", "query", "limit", "filter"].contains name) with
  | some name => .error (.badValue ("Unsupported vectorSearch argument: " ++ name))
  | none =>
    if (args.get "limit").any fun limit => !isInteger limit then
      .error (.badValue "limit must be an integer")
    else do
      let parsed ← parseVectorSearchArgs unicode args
      if projectedFlatTextField parsed.path then return parsed
      else .error (.badValue "path must be a projected flat text field")

/-- `RouterVectorSearch`. -/
def routerVectorSearch : SourceStageImpl QueryArgs RouterState FetchLog where
  name := vectorSearchName
  parse := fun args => attempt (routerParse unicode args)
  openArgs := fun args ctx log => (attempt (routerOpen optionReaders options args ctx), log)
  next := fun state _ log =>
    let answer := routerNextResult readers toValue world (state, log) ()
    ((attempt answer.1, answer.2.1), answer.2.2)
  dropInPlace := fun _ log => (some (), log)
  properties := some searchProperties
  hostType := some .router
  mergingPipeline := fun _ catalog => attempt ((lookupPipeline catalog).map some)

/-- `properties` of `mongos.rs`. -/
def routerProperties : Document :=
  providesScore (searchProperties.toDocumentWithHostType .router)

/-- `expand` of `mongos.rs`. -/
def routerExpand (args : Document) : HookOutcome ExtensionError Expansion := do
  let _ ← attempt (routerParse unicode args)
  return .selfStage

/-- `merging`. -/
def routerMerging (args : Document) (catalog : Option CatalogContext) :
    HookOutcome ExtensionError (Option (List Document)) := do
  let _ ← attempt (routerParse unicode args)
  attempt ((lookupPipeline catalog).map some)

/-- `OPS`. -/
def routerOps : SourceTable (Memory RouterState FetchLog) where
  openFromDoc :=
    (routerVectorSearch unicode optionReaders options readers toValue world).sdkSourceOpen
  dropState :=
    (routerVectorSearch unicode optionReaders options readers toValue world).sdkSourceDrop
  next := (routerVectorSearch unicode optionReaders options readers toValue world).sdkSourceNext
  staticPropertiesDoc := some routerProperties
  name := vectorSearchName
  expectEmpty := false
  expandInner := routerExpand unicode
  mergingPipeline := some (routerMerging unicode)
  onExtensionInitialized := none

/-- Opening a search from the encoded arguments of its stage. -/
def routerOpenRaw (raw : Bytes) (ctx : StageContext) : Except ExtensionError RouterState :=
  match codec.decode raw with
  | .error e => .error (.failedToParse e)
  | .ok d => do
    let args ← routerParse unicode d
    routerOpen optionReaders options args ctx

/-- The response is an answer, and the rows are those of its hits. -/
def DecodesHits (limit : ℕ) (response : Json) (rows : List (MongoKey × Double)) : Prop :=
  ∃ hits, Answers readers response limit hits ∧ List.Forall₂ (HitOf readers) hits rows

variable {unicode codec optionReaders options readers toValue world}

theorem router_pulls (state : RouterState) :
    PullsRows (routerVectorSearch unicode optionReaders options readers toValue world) world
      (fetch readers toValue world state) state.place routerNext where
  next := by
    intro rows ctx log
    simp only [routerVectorSearch, routerNextResult_pulls readers toValue world state rows log ()]
  drop := fun _ _ => rfl
  rowOf := fun _ => ⟨_, _, rfl⟩

theorem openAttempt_routerOpenRaw (setup : Setup) (log : FetchLog) :
    SourceStage.openAttempt codec
        (routerVectorSearch unicode optionReaders options readers toValue world) setup log =
      (attempt (routerOpenRaw unicode codec optionReaders options setup.args setup.openContext),
        log) := by
  simp only [SourceStage.openAttempt, routerOpenRaw, routerVectorSearch]
  cases codec.decode setup.args with
  | error e => rfl
  | ok d =>
      simp only
      cases routerParse unicode d with
      | error e => rfl
      | ok args => rfl

/-- Only on mongos a search opens. It has its own arguments and namespace, and nothing is
fetched. -/
theorem routerOpenRaw_ok {raw : Bytes} {ctx : StageContext} {state : RouterState}
    (opened : routerOpenRaw unicode codec optionReaders options raw ctx = .ok state) :
    ∃ d args c config, codec.decode raw = .ok d ∧ routerParse unicode d = .ok args ∧
      ctx.catalog = some c ∧ c.inRouter = true ∧ parseConfig optionReaders options = .ok config ∧
      state = ⟨args, "mongodb." ++ c.namespaceText, config, none⟩ := by
  unfold routerOpenRaw at opened
  cases decoded : codec.decode raw with
  | error e => simp [decoded] at opened
  | ok d =>
      simp only [decoded] at opened
      obtain ⟨args, parsed, opened⟩ := bind_ok.mp opened
      unfold routerOpen at opened
      cases bound : ctx.catalog.filter fun c => c.inRouter with
      | none => simp [bound] at opened
      | some c =>
          simp only [bound] at opened
          obtain ⟨config, configured, same⟩ := bind_ok.mp opened
          obtain ⟨catalog, onRouter⟩ := Option.filter_eq_some_iff.mp bound
          cases same
          exact ⟨d, args, c, config, rfl, parsed, catalog, onRouter, configured, rfl⟩

theorem decodesHits_of_judged {limit : ℕ} {endpoint : String} {answer : Except String Json}
    {rows : List (MongoKey × Double)}
    (verdict : (hitsPolicy readers limit).verdict endpoint answer = .settled (.ok rows)) :
    ∃ response, answer = .ok response ∧ DecodesHits readers limit response rows := by
  obtain ⟨response, _, same, decoded, _⟩ := hits_judged readers verdict
  exact ⟨response, same, decodeResponse_ok_iff.mp decoded⟩

variable (unicode codec optionReaders options readers toValue world)

/-- **The runs of `$vectorSearch` on mongos**, for every behaviour of the host, the clock and the
endpoints and every number of calls. When it can be opened it fails until one of its calls has a
response that decodes, and then it shows the key and the score of each hit, in order, and the
end. -/
theorem routerVectorSearch_searches (setup : Setup) (log : FetchLog) (source : Option Upstream)
    (frames : List Frame) :
    let ops := (routerOps unicode optionReaders options readers toValue world).toSourceOps
    let last := (SourceStage.execGetNext codec ops).after (setup.compiled ⟨.empty, log⟩ source)
      frames
    SearchRuns codec world
      (routerOpenRaw unicode codec optionReaders options setup.args setup.openContext)
      (RouterState.inquiry readers toValue) (fetch readers toValue world)
      (fun s => DecodesHits readers s.args.limitUsize) routerNext log
      ((SourceStage.execGetNext codec ops).outputs (setup.compiled ⟨.empty, log⟩ source) frames)
      last.hooks.world last.pulls := by
  apply searchRuns_of_pulls (routerVectorSearch unicode optionReaders options readers toValue world)
  · rfl
  · rfl
  · exact openAttempt_routerOpenRaw setup
  · exact router_pulls
  · intro s opened
    obtain ⟨_, _, _, _, _, _, _, _, _, rfl⟩ := routerOpenRaw_ok opened
    rfl
  · exact fun _ _ => rfl
  · exact fun _ _ _ _ verdict => decodesHits_of_judged verdict
  · exact fun _ _ => rfl

end Mongos

end ExtensionSdkMongodb.OpenSearch

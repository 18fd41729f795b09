import ExtensionSdkMongodb.Aggregation.Pipeline
import ExtensionSdkMongodb.OpenSearch.Stages

/-!
# The results of a search on mongos

On mongos the rows of the search go through the merging pipeline that the stage has planned. It
looks up the document of each candidate and leaves nothing else. So an aggregation that succeeds
returns, hit for hit, the stored documents with the whole key of the hit (`router_search_results`).
-/

set_option autoImplicit false

namespace ExtensionSdkMongodb.OpenSearch

open Aggregation
open Failover (answers)
open SourceStage (Cursor Setup)

/-! ## The merging pipeline on rows -/

/-- Whether a stored document has the whole key. A value that is missing counts as null. -/
def hasKey (equal : Value → Value → Bool) (key : MongoKey) (stored : Document) : Bool :=
  key.fields.all fun field =>
    equal (some (ifNull (some (walkName field.1 stored)))) (some field.2)

/-- The document of a row. -/
def rowDocument (row : MongoKey × Double) : Document :=
  [("_id", row.1.id), ("__mongoKey", .array (row.1.fields.map keyPart))]

theorem routerNext_eq (row : MongoKey × Double) :
    routerNext row = .advanced (rowDocument row) (some [(scoreKey, .double row.2)]) := rfl

/-- The stages that a pipeline of `lookupPipeline` says. -/
theorem parseStage_planned {catalog : Option CatalogContext} {stages : List Document}
    (planned : lookupPipeline catalog = .ok stages) :
    ∃ c, catalog = some c ∧ stages.mapM parseStage = some
      [.lookup c.collectionName "_id" "_id" [("documentKey", .string "$__mongoKey")]
        (some keyMatches) "__mongoDocument", .unwind "__mongoDocument",
        .replaceWith (.string "$__mongoDocument")] := by
  unfold lookupPipeline at planned
  cases bound : catalog.filter fun c => c.inRouter with
  | none => simp [bound] at planned
  | some c =>
      simp only [bound, Except.ok.injEq] at planned
      subst planned
      exact ⟨c, (Option.filter_eq_some_iff.mp bound).1, rfl⟩

section Merging

variable {db : Database}
  (named : ∀ value, db.equal (some (.string (typeName value))) (some (.string "object")) =
    isDocument value)
  (joins : ∀ value stored, db.equal (some (ifNull stored)) (some value) = true →
    db.joined (some value) stored = true)

include named in
/-- The condition of the lookup accepts the documents with the key of the row. -/
theorem accepts_rowDocument (row : MongoKey × Double) (stored : Document) :
    accepts db [("documentKey", .string "$__mongoKey")] (some keyMatches) (rowDocument row) stored =
      some (hasKey db.equal row.1 stored) := by
  have carried : evaluate db.equal (.string "$__mongoKey") (Env.root (rowDocument row)) =
      some (some (.array (row.1.fields.map keyPart))) := rfl
  have condition := evaluate_keyMatches named row.1.fields stored
  simp only [accepts, bindAll, carried, condition, Option.bind_eq_bind, Option.bind_some]
  rfl

/-- The `_id` of a document with the key compares equal to the one of the key. -/
theorem equal_id_of_hasKey {key : MongoKey} {stored : Document}
    (has : hasKey db.equal key stored = true) :
    db.equal (some (ifNull (Document.get stored "_id"))) (some key.id) = true := by
  have member : ("_id", key.id) ∈ key.fields :=
    Document.mem_of_get (Option.some_get key.hasId).symm
  have equal := List.all_eq_true.mp has _ member
  have walked : ifNull (some (walkName "_id" stored)) = ifNull (Document.get stored "_id") := by
    have parts : splitAt '.' "_id" = ["_id"] := by decide
    rw [walkName, parts]
    simp only [walkFrom]
    cases Document.get stored "_id" with
    | none => rfl
    | some value => rfl
  rwa [walked] at equal

include named joins in
/-- **The merging pipeline returns the documents of the keys.** -/
theorem runPipeline_rows {catalog : Option CatalogContext} {stages : List Document}
    (planned : lookupPipeline catalog = .ok stages) (rows : List (MongoKey × Double)) :
    ∃ c, catalog = some c ∧ runPipeline db stages (rows.map rowDocument) =
      some (rows.flatMap fun row =>
        (db.documents c.collectionName).filter (hasKey db.equal row.1)) := by
  obtain ⟨c, bound, parsed⟩ := parseStage_planned planned
  refine ⟨c, bound, ?_⟩
  let matching (row : Document) : Option (List Document) :=
    selected (accepts db [("documentKey", .string "$__mongoKey")] (some keyMatches) row)
      ((db.documents c.collectionName).filter fun stored =>
        db.joined (row.get "_id") (stored.get "_id"))
  have matches_ : ∀ row ∈ rows, matching (rowDocument row) =
      some ((db.documents c.collectionName).filter (hasKey db.equal row.1)) := by
    intro row _
    have id : Document.get (rowDocument row) "_id" = some row.1.id := rfl
    rw [show matching (rowDocument row) = selected _ _ from rfl,
      selected_of_each fun stored _ => accepts_rowDocument named row stored, List.filter_filter, id]
    congr 2
    funext stored
    cases has : hasKey db.equal row.1 stored with
    | false => rfl
    | true => rw [joins _ _ (equal_id_of_hasKey has), Bool.and_true]
  have run : runStages db
      [.lookup c.collectionName "_id" "_id" [("documentKey", .string "$__mongoKey")]
        (some keyMatches) "__mongoDocument", .unwind "__mongoDocument",
        .replaceWith (.string "$__mongoDocument")] (rows.map rowDocument) =
          some ((rows.map rowDocument).flatMap fun row => (matching row).getD []) := by
    apply runStages_join
    · exact fun d => rfl
    · intro row member
      obtain ⟨candidate, inside, rfl⟩ := List.mem_map.mp member
      change matching (rowDocument candidate) = _
      rw [matches_ candidate inside, Option.getD_some]
  rw [runPipeline, parsed, Option.bind_eq_bind, Option.bind_some, run, List.flatMap_map]
  congr 1
  apply List.flatMap_congr
  intro row member
  rw [matches_ row member, Option.getD_some]

end Merging

/-! ## What the host reads -/

section Read

variable (codec : BsonCodec)

/-- The document of a result that has one. -/
def hostRow : Except Status Contents → Option Document
  | .ok ⟨.advanced, document, _⟩ => (codec.decode document).toOption
  | .ok _ | .error _ => none

/-- The documents that the host reads off results, in order. -/
def hostRows (outputs : List (Except Status Contents)) : List Document :=
  outputs.filterMap (hostRow codec)

variable {codec}

/-- A row that was encoded is read as it was. -/
theorem hostRow_rowContents {document : Document} {metadata : Option Document} {contents : Contents}
    (roundTrips : ∀ bytes, codec.encode document = .ok bytes → codec.decode bytes = .ok document)
    (shown : Cursor.rowContents codec document metadata = .ok contents) :
    hostRow codec (.ok contents) = some document ∧ contents ≠ SourceStage.endOfStream := by
  have encoded := mapError_ok.mp shown
  have code := SourceStage.encodeRow_code encoded
  obtain ⟨bytes, first, rest⟩ := bind_ok.mp encoded
  have same : contents.document = bytes := by
    cases metadata with
    | none =>
        cases rest
        rfl
    | some d =>
        obtain ⟨metaBytes, -, last⟩ := bind_ok.mp rest
        cases last
        rfl
  obtain ⟨code', document', metadata'⟩ := contents
  subst code same
  refine ⟨?_, ?_⟩
  · simp only [hostRow, roundTrips _ first]
    rfl
  · intro ended
    cases ended

/-- Results of rows that all succeed are read as the rows. -/
theorem hostRows_of_shown {ρ : Type} (document : ρ → Document) (metadata : ρ → Option Document)
    {rows : List ρ} (roundTrips : ∀ row ∈ rows, ∀ bytes,
      codec.encode (document row) = .ok bytes → codec.decode bytes = .ok (document row))
    (fine : ∀ row ∈ rows, ∃ contents,
      Cursor.rowContents codec (document row) (metadata row) = .ok contents) (count : ℕ) :
    hostRows codec ((rows.map fun row => Cursor.rowContents codec (document row) (metadata row)) ++
      List.replicate count (.ok SourceStage.endOfStream)) = rows.map document := by
  have ends : hostRows codec (List.replicate count (.ok SourceStage.endOfStream)) = [] := by
    rw [hostRows, List.filterMap_eq_nil_iff]
    intro out member
    rw [(List.mem_replicate.mp member).2]
    rfl
  rw [hostRows, List.filterMap_append, ← hostRows, ← hostRows, ends, List.append_nil, hostRows,
    List.filterMap_map]
  induction rows with
  | nil => rfl
  | cons row rows ih =>
      obtain ⟨contents, shown⟩ := fine row List.mem_cons_self
      have first : (hostRow codec ∘ fun row =>
          Cursor.rowContents codec (document row) (metadata row)) row = some (document row) := by
        rw [Function.comp_apply, shown]
        exact (hostRow_rowContents (roundTrips row List.mem_cons_self) shown).1
      rw [List.filterMap_cons_some first, List.map_cons,
        ih (fun other member => roundTrips other (List.mem_cons_of_mem _ member))
          fun other member => fine other (List.mem_cons_of_mem _ member)]

end Read

/-! ## The whole search -/

/-- What a successful aggregation on mongos has done: one fetch of an answer, whose hits gave the
rows, and the lookup of their documents in the collection of the search. -/
def Answered (codec : BsonCodec) (readers : KeyReaders) (toValue : Bson → Option Json)
    (world : World) (db : Database) (stages : List Document) (catalog : Option CatalogContext)
    (state : RouterState) (outputs : List (Except Status Contents)) : Prop :=
  ∃ c before trace endpoint response hits rows,
    catalog = some c ∧ fetch readers toValue world state before = (.ok rows, before ++ trace) ∧
    (answers trace).getLast? = some (endpoint, .ok response) ∧
    Answers readers response state.args.limitUsize hits ∧ List.Forall₂ (HitOf readers) hits rows ∧
    runPipeline db stages (hostRows codec outputs) = some (rows.flatMap fun row =>
      (db.documents c.collectionName).filter (hasKey db.equal row.1))

section Search

variable {db : Database}
  (named : ∀ value, db.equal (some (.string (typeName value))) (some (.string "object")) =
    isDocument value)
  (joins : ∀ value stored, db.equal (some (ifNull stored)) (some value) = true →
    db.joined (some value) stored = true)
variable {unicode : UnicodeTables} {codec : BsonCodec}
  {optionReaders : OptionReaders} {options : Option Bytes}
  {readers : KeyReaders} {toValue : Bson → Option Json} {world : World}

include named joins in
/-- Results that all succeed and reach the end are those of an answer. -/
theorem answered_of_unfolds {catalog : Option CatalogContext} {stages : List Document}
    (planned : lookupPipeline catalog = .ok stages)
    (roundTrips : ∀ row bytes, codec.encode (rowDocument row) = .ok bytes →
      codec.decode bytes = .ok (rowDocument row))
    {state : RouterState} {log last : FetchLog} {outputs : List (Except Status Contents)}
    (unfolds : Unfolds codec world (state.inquiry readers toValue)
      (fetch readers toValue world state) (DecodesHits readers state.args.limitUsize) routerNext
      log outputs last)
    (fine : ∀ out ∈ outputs, ∃ contents, out = .ok contents)
    (ends : .ok SourceStage.endOfStream ∈ outputs) :
    Answered codec readers toValue world db stages catalog state outputs := by
  obtain ⟨failures, handed, before, rfl, refused, rest⟩ := unfolds
  obtain rfl : failures = [] := by
    cases refused with
    | start _ => rfl
    | @call _ _ _ out outputs fails _ =>
        obtain ⟨contents, fine⟩ := fine out (List.mem_append_left _ List.mem_cons_self)
        rcases fails with ⟨e, _, failed⟩ | ⟨e, _, _, _, _, failed⟩
        · cases fine.symm.trans failed
        · cases fine.symm.trans failed
  rw [List.nil_append] at fine ends ⊢
  rcases rest with ⟨rfl, _⟩ | ⟨trace, endpoint, response, rows, checks, _, fetched, _, answered,
    ⟨hits, answer, each⟩, shows, _⟩
  · cases ends
  · have uninterrupted : ∀ out ∈ handed, ∀ log log', ¬ Interrupted world log out log' := by
      rintro out member log log' ⟨e, _, rfl, _⟩
      obtain ⟨contents, impossible⟩ := fine _ member
      cases impossible
    have apart : ∀ row ∈ rows, contentsOf codec (routerNext row) ≠ .ok SourceStage.endOfStream := by
      intro row _ same
      rw [routerNext_eq, contentsOf] at same
      exact (hostRow_rowContents (roundTrips row) same).2 rfl
    obtain ⟨count, rfl⟩ := shows.complete uninterrupted apart ends
    obtain ⟨c, bound, merged⟩ := runPipeline_rows named joins planned rows
    refine ⟨c, _, trace, endpoint, response, hits, rows, bound, fetched, answered, answer, each, ?_⟩
    have read := hostRows_of_shown rowDocument (fun row => some [(scoreKey, .double row.2)])
      (fun row _ => roundTrips row)
      (fun row member => fine _ (List.mem_append_left _ (List.mem_map_of_mem member))) count
    rw [← merged]
    exact congrArg (runPipeline db stages) read

variable (unicode codec optionReaders options readers toValue world)

include named joins in
/-- **A search on mongos returns the documents of its hits.** In every run of the compiled stage,
whatever the host, the clock and the endpoints answer, the stage calls no upstream; it fails alike
without contacting anybody when it cannot be opened, and else it unfolds. When all results succeed
up to the end, the merging pipeline that the stage planned makes of them the stored documents with
the keys of the hits of one answer, in their order. -/
theorem router_search_results (setup : Setup) {argsDoc : Document} {stages : List Document}
    (planned : routerMerging unicode argsDoc setup.catalog = .ok (some stages))
    (roundTrips : ∀ row bytes, codec.encode (rowDocument row) = .ok bytes →
      codec.decode bytes = .ok (rowDocument row)) (log : FetchLog) (source : Option Upstream)
    (frames : List Frame) :
    let ops := (routerOps unicode optionReaders options readers toValue world).toSourceOps
    let replies := (SourceStage.execGetNext codec ops).outputs
      (setup.compiled ⟨.empty, log⟩ source) frames
    let last := (SourceStage.execGetNext codec ops).after
      (setup.compiled ⟨.empty, log⟩ source) frames
    ∃ outputs, List.Forall₂ SourceStage.Shows replies outputs ∧ last.pulls = 0 ∧
      match routerOpenRaw unicode codec optionReaders options setup.args setup.openContext with
      | .error e =>
        outputs = List.replicate replies.length (.error e.intoRawStatus) ∧ last.hooks.world = log
      | .ok state =>
        Unfolds codec world (state.inquiry readers toValue) (fetch readers toValue world state)
            (DecodesHits readers state.args.limitUsize) routerNext log outputs last.hooks.world ∧
          ((∀ out ∈ outputs, ∃ contents, out = .ok contents) →
            .ok SourceStage.endOfStream ∈ outputs →
              Answered codec readers toValue world db stages setup.catalog state outputs) := by
  intro ops replies last
  obtain ⟨outputs, shows, taken, opened⟩ := routerVectorSearch_searches unicode codec optionReaders
    options readers toValue world setup log source frames
  refine ⟨outputs, shows, taken, ?_⟩
  have lookup : lookupPipeline setup.catalog = .ok stages := by
    obtain ⟨_, _, merged⟩ := bind_ok.mp planned
    cases looked : lookupPipeline setup.catalog with
    | error e => simp [looked, Except.map] at merged
    | ok stages' =>
        rw [looked] at merged
        cases merged
        rfl
  cases opening :
      routerOpenRaw unicode codec optionReaders options setup.args setup.openContext with
  | error e =>
      rw [opening] at opened
      exact opened
  | ok state =>
      rw [opening] at opened
      exact ⟨opened, answered_of_unfolds named joins lookup roundTrips opened⟩

end Search

section Run

/-- A collection with one document, and values that compare as `plainEqual` says. -/
def shop : Database where
  equal := plainEqual
  joined := fun value stored => plainEqual (some (ifNull stored)) value
  documents := fun _ => [[("_id", .string "a"), ("title", .string "Rain")]]

def rainArgs : Document := [("path", .string "title"), ("query", .string "rain")]

/-- The BSON of the arguments. -/
def rainArgsBytes : Bytes :=
  [37, 0, 0, 0, 2, 112, 97, 116, 104, 0, 6, 0, 0, 0, 116, 105, 116, 108, 101, 0, 2, 113, 117, 101,
    114, 121, 0, 5, 0, 0, 0, 114, 97, 105, 110, 0, 0]

/-- The BSON of the candidate. -/
def rainRowBytes : Bytes :=
  [61, 0, 0, 0, 2, 95, 105, 100, 0, 2, 0, 0, 0, 97, 0, 4, 95, 95, 109, 111, 110, 103, 111, 75,
    101, 121, 0, 33, 0, 0, 0, 3, 48, 0, 25, 0, 0, 0, 2, 107, 0, 4, 0, 0, 0, 95, 105, 100, 0, 2,
    118, 0, 2, 0, 0, 0, 97, 0, 0, 0, 0]

/-- The BSON of its score. -/
def rainScoreBytes : Bytes :=
  [33, 0, 0, 0, 1, 36, 118, 101, 99, 116, 111, 114, 83, 101, 97, 114, 99, 104, 83, 99, 111, 114,
    101, 0, 0, 0, 0, 0, 0, 0, 240, 63, 0]

/-- The BSON codec on these documents. -/
def rainCodec : BsonCodec where
  encode d :=
    match d with
    | [("_id", .string "a"),
        ("__mongoKey", .array [.document [("k", .string "_id"), ("v", .string "a")]])] =>
      .ok rainRowBytes
    | [("$vectorSearchScore", .double ⟨0x3FF0000000000000⟩)] => .ok rainScoreBytes
    | _ => .error "not encoded"
  decode bytes :=
    if bytes = rainArgsBytes then .ok rainArgs
    else .ok [("_id", .string "a"),
      ("__mongoKey", .array [.document [("k", .string "_id"), ("v", .string "a")]])]

def rainOptions : OptionReaders where
  fromUtf8 _ := .ok "endpoints: http://a:9200"
  fromStr _ := .error "expected value at line 1 column 1"

def rainSetup : Setup := ⟨rainArgsBytes, some ⟨"shop", "items", none, true, 0⟩, none⟩

/-- The first call fetches the rows, and no call is interrupted. -/
theorem rain_answers {rows : List (MongoKey × Double)} {log' : FetchLog}
    (fetched : fetch rainReaders Bson.image rainWorld rainState [.interrupt (.ok ())] =
      (.ok rows, log'))
    {outputs : List (Except Status Contents)} {last : FetchLog} (two : outputs.length = 2)
    (unfolds : Unfolds rainCodec rainWorld (rainState.inquiry rainReaders Bson.image)
      (fetch rainReaders Bson.image rainWorld rainState)
      (DecodesHits rainReaders rainState.args.limitUsize) routerNext [] outputs last) :
    Feeding.Answers (fun row => contentsOf rainCodec (routerNext row))
      (.ok SourceStage.endOfStream) (Interrupted rainWorld) (Passed rainWorld) rows log' outputs
      last := by
  obtain ⟨failures, handed, before, rfl, refused, rest⟩ := unfolds
  cases refused with
  | @call _ _ _ out outputs fails _ =>
      rcases fails with ⟨e, checked, _⟩ | ⟨e, trace, _, failed, _, _⟩
      · cases checked
      · cases failed.symm.trans fetched
  | start _ =>
      rw [List.nil_append] at two ⊢
      rcases rest with ⟨rfl, _⟩ |
        ⟨trace, endpoint, response, rows', checks, _, fetched', _, _, _, shows, _⟩
      · cases two
      · cases fetched'.symm.trans fetched
        exact shows

/-- Two calls: the candidate, and the end. -/
theorem router_search_results_shop :
    let ops := (routerOps .ascii rainOptions (some []) rainReaders Bson.image rainWorld).toSourceOps
    ∃ stages outputs, lookupPipeline rainSetup.catalog = .ok stages ∧
      List.Forall₂ SourceStage.Shows ((SourceStage.execGetNext rainCodec ops).outputs
        (rainSetup.compiled ⟨.empty, []⟩ none) [.blank, .blank]) outputs ∧
      (∀ out ∈ outputs, ∃ contents, out = .ok contents) ∧ .ok SourceStage.endOfStream ∈ outputs ∧
      Answered rainCodec rainReaders Bson.image rainWorld shop stages rainSetup.catalog rainState
        outputs := by
  intro ops
  obtain ⟨stages, looked⟩ : ∃ stages, lookupPipeline rainSetup.catalog = .ok stages := ⟨_, rfl⟩
  have planned : routerMerging .ascii rainArgs rainSetup.catalog = .ok (some stages) := by
    have parsed : routerParse .ascii rainArgs = .ok ⟨"title", "rain", 10, none⟩ := by rfl
    simp only [routerMerging, parsed, looked]
    rfl
  have roundTrips : ∀ row bytes, rainCodec.encode (rowDocument row) = .ok bytes →
      rainCodec.decode bytes = .ok (rowDocument row) := by
    intro row bytes encoded
    have other : rainRowBytes ≠ rainArgsBytes := by decide
    simp only [rainCodec] at encoded ⊢
    split at encoded
    · next same =>
      cases encoded
      rw [if_neg other, same]
    · next same =>
      have first : (rowDocument row).length = 2 := rfl
      rw [same] at first
      cases first
    · cases encoded
  have opened : routerOpenRaw .ascii rainCodec rainOptions (some []) rainSetup.args
      rainSetup.openContext = .ok rainState := by
    rfl
  have named : ∀ value, shop.equal (some (.string (typeName value))) (some (.string "object")) =
      isDocument value := plainEqual_named
  have joins : ∀ value stored, shop.equal (some (ifNull stored)) (some value) = true →
      shop.joined (some value) stored = true := fun _ _ same => same
  obtain ⟨outputs, shows, -, rest⟩ := router_search_results named joins .ascii rainCodec rainOptions
    (some []) rainReaders Bson.image rainWorld rainSetup planned roundTrips [] none [.blank, .blank]
  rw [opened] at rest
  have two : outputs.length = 2 := shows.length_eq.symm
  obtain ⟨rows, log', fetched, one⟩ : ∃ rows log', fetch rainReaders Bson.image rainWorld rainState
      [.interrupt (.ok ())] = (.ok rows, log') ∧
        ∃ row contents, rows = [row] ∧ contentsOf rainCodec (routerNext row) = .ok contents :=
    ⟨_, _, rfl, _, _, rfl, rfl⟩
  obtain ⟨row, contents, rfl, shown⟩ := one
  have whole : outputs = [.ok contents, .ok SourceStage.endOfStream] := by
    cases rain_answers fetched two rest.1 with
    | handed later =>
        rw [shown]
        cases later with
        | begun rows t => cases two
        | failed now later =>
            obtain ⟨e, checked, _⟩ := now
            cases checked
        | ended now count =>
            obtain rfl : count = 0 := by simpa using two
            rfl
  have fine : ∀ out ∈ outputs, ∃ contents, out = .ok contents := by
    rw [whole]
    simp
  have ends : .ok SourceStage.endOfStream ∈ outputs := by
    rw [whole]
    simp
  exact ⟨stages, outputs, looked, shows, fine, ends, rest.2 fine ends⟩

end Run

end ExtensionSdkMongodb.OpenSearch

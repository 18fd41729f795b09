import ExtensionSdkMongodb.OpenSearch.Args
import ExtensionSdkMongodb.OpenSearch.Config
import ExtensionSdkMongodb.OpenSearch.Deadline
import ExtensionSdkMongodb.Sdk.Expansion
import ExtensionSdkMongodb.Sdk.StageContext

/-!
# The replica-set vector search, from its arguments to its request

The stage expands to a candidate stage, whose arguments are the parsed ones written as a document,
and the host's id lookup. The executable candidate stage parses them again when it opens, and its
request to OpenSearch is built from what it parsed then. `parsed_args_reach_request` follows the
arguments along this path.
-/

set_option autoImplicit false

namespace ExtensionSdkMongodb

/-- `CatalogContext::namespace`. -/
def CatalogContext.namespaceText (c : CatalogContext) : String :=
  c.databaseName ++ "." ++ c.collectionName

namespace OpenSearch

/-! ## Expansion -/

/-- `OpenSearchVectorSearch::NAME`. -/
def vectorSearchName : String := "$vectorSearch"

/-- The stage document of the host's id lookup. -/
def idLookupStage (limit : Int64) : Document :=
  [("$_internalSearchIdLookup", .document [("limit", .int64 limit)])]

/-- `id_lookup_expansion`. -/
def idLookupExpansion (stageName : String) (args : QueryArgs) : Expansion :=
  .withHostIdLookup [(stageName, .document (innerArgs args))] (idLookupStage args.limit)

/-- `vector_expand_inner`. -/
def vectorExpandInner (unicode : UnicodeTables) (d : Document) :
    HookOutcome ExtensionError Expansion :=
  match parseVectorSearchArgs unicode d with
  | .error e => .error (.error e)
  | .ok args => .ok (idLookupExpansion vectorSearchName args)

/-! ## Opening -/

/-- The state of an open search. -/
structure SearchState where
  args : QueryArgs
  index : String
  config : OpenSearchConfig
  timeout : Duration
  pending : List Document
  loaded : Bool

/-- `default_timeout`. -/
def defaultTimeout : Duration := .fromMillis 2000

/-- `open_state`, given the extension options. -/
def openState (readers : OptionReaders) (options : Option Bytes) (args : QueryArgs)
    (ctx : StageContext) : Except ExtensionError SearchState :=
  match ctx.catalog with
  | none =>
    .error (.badValue "OpenSearch search stages require collection catalog context")
  | some catalog => do
    let config ← parseConfig readers options
    return {
      args
      index := "mongodb." ++ catalog.namespaceText
      config
      timeout := defaultTimeout
      pending := []
      loaded := false }

/-- `vector_open` on the encoded arguments of an executable stage. -/
def vectorOpen (unicode : UnicodeTables) (codec : BsonCodec) (readers : OptionReaders)
    (options : Option Bytes) (raw : Bytes) (ctx : StageContext) :
    Except ExtensionError SearchState :=
  match codec.decode raw with
  | .error e => .error (.failedToParse e)
  | .ok d => do
    let args ← parseVectorSearchArgs unicode d
    openState readers options args ctx

theorem openState_args {readers : OptionReaders} {options : Option Bytes} {args : QueryArgs}
    {ctx : StageContext} {state : SearchState}
    (opened : openState readers options args ctx = .ok state) : state.args = args := by
  unfold openState at opened
  split at opened
  · cases opened
  · obtain ⟨config, _, same⟩ := bind_ok.mp opened
    cases same
    rfl

/-! ## The request -/

/-- `bson_doc_to_json`, over `serde_json::to_value`. -/
def bsonDocToJson (toValue : Bson → Option Json) (d : Document) : Json :=
  (toValue (.document d)).getD .null

/-- `opensearch_body`. -/
def opensearchBody (toValue : Bson → Option Json) (args : QueryArgs) : Json :=
  let neural := [("query_text", Json.string args.query), ("k", .int args.limit)]
  let neural :=
    match args.filter with
    | none => neural
    | some filter => neural ++ [("filter", bsonDocToJson toValue filter)]
  .object [("size", .int args.limit), ("_source", .bool false),
    ("query", .object [("neural", .object [(args.path ++ "_embedding", .object neural)])])]

/-! ## The image of a filter -/

theorem scalar_hasImage {value : Bson} (scalar : Scalar value) : value.HasImage := by
  cases scalar with
  | string s => exact ⟨_, rfl⟩
  | boolean b => exact ⟨_, rfl⟩
  | int32 n => exact ⟨_, rfl⟩
  | int64 n => exact ⟨_, rfl⟩
  | double v finite => exact Bson.hasImage_double finite

theorem minimum_hasImage {value : Bson} (minimum : Minimum value) : value.HasImage := by
  cases minimum <;> exact ⟨_, rfl⟩

/-- A document of values with images has an image. -/
theorem document_hasImage {d : Document} (images : ∀ field ∈ d, Bson.HasImage field.2) :
    Bson.HasImage (.document d) := by
  obtain ⟨fields, image⟩ := Bson.exists_image_document images
  exact ⟨_, image⟩

/-- The document with one field. -/
theorem singleton_hasImage {key : String} {value : Bson} (image : value.HasImage) :
    ∀ field ∈ [(key, value)], Bson.HasImage field.2 := by
  intro field member
  cases List.mem_singleton.mp member
  exact image

theorem bound_hasImage {op : String} {value : Bson} (bound : Bound op value) : value.HasImage := by
  cases bound with
  | scalar known scalar => exact scalar_hasImage scalar
  | format s => exact ⟨_, rfl⟩

theorem leaf_hasImage {kind : String} {body : Document} (leaf : Leaf kind body) :
    ∀ field ∈ body, Bson.HasImage field.2 := by
  unfold Leaf at leaf
  split at leaf
  · cases leaf with
    | plain _ scalar => exact singleton_hasImage (scalar_hasImage scalar)
    | value _ scalar =>
        exact singleton_hasImage (document_hasImage (singleton_hasImage (scalar_hasImage scalar)))
  · obtain ⟨_, _, scalars⟩ := leaf
    exact singleton_hasImage
      (Bson.hasImage_array fun v member => scalar_hasImage (scalars v member))
  · obtain ⟨_, bounded⟩ := leaf
    exact singleton_hasImage
      (document_hasImage fun bound member => bound_hasImage (bounded bound member))
  · obtain ⟨_⟩ := leaf
    exact singleton_hasImage ⟨_, rfl⟩
  · obtain ⟨_, strings⟩ := leaf
    refine singleton_hasImage (Bson.hasImage_array ?_)
    intro v member
    obtain ⟨s, rfl⟩ := strings v member
    exact ⟨_, rfl⟩
  · exact leaf.elim

mutual

/-- Every value of a clause has a JSON image. -/
theorem clause_hasImage {h n : ℕ} {filter : Document} :
    Clause h n filter → ∀ field ∈ filter, Bson.HasImage field.2
  | .leaf leaf => singleton_hasImage (document_hasImage (leaf_hasImage leaf))
  | .bool options => singleton_hasImage (document_hasImage (options_hasImage options))

theorem options_hasImage {h n : ℕ} {body : List (String × Bson)} :
    Options h n body → ∀ field ∈ body, Bson.HasImage field.2
  | .nil => by simp
  | .cons option options => by
      intro field member
      rcases List.mem_cons.mp member with rfl | member
      · exact option_hasImage option
      · exact options_hasImage options field member

theorem option_hasImage {h n : ℕ} {occur : String} {value : Bson} :
    BoolOption h n occur value → value.HasImage
  | .clause _ clause => document_hasImage (clause_hasImage clause)
  | .clauses _ items => Bson.hasImage_array (items_hasImage items)
  | .minimum minimum => minimum_hasImage minimum

theorem items_hasImage {h n : ℕ} {items : List Bson} :
    Items h n items → ∀ item ∈ items, item.HasImage
  | .nil => by simp
  | .cons clause items => by
      intro item member
      rcases List.mem_cons.mp member with rfl | member
      · exact document_hasImage (clause_hasImage clause)
      · exact items_hasImage items item member

end

/-- An accepted filter has a JSON image, which is an object. -/
theorem accepted_image {unicode : UnicodeTables} {filter : Document}
    (accepted : ∃ total, validateFilterClause unicode filter 1 0 = .ok total) :
    ∃ fields, Bson.image (.document filter) = some (.object fields) := by
  obtain ⟨total, valid⟩ := accepted
  obtain ⟨h, n, clause, _⟩ := (validateFilterClause_iff filter 1 0 total).mp valid
  exact Bson.exists_image_document (clause_hasImage clause)

/-! ## From the arguments to the request -/

/-- Opening encoded well-formed arguments opens those arguments. -/
theorem vectorOpen_innerArgs {unicode : UnicodeTables} {codec : BsonCodec} {blob : Bytes}
    {q : QueryArgs} (wellFormed : q.WellFormed unicode)
    (decoded : codec.decode blob = .ok (innerArgs q))
    (readers : OptionReaders) (options : Option Bytes) (ctx : StageContext) :
    vectorOpen unicode codec readers options blob ctx = openState readers options q ctx := by
  simp only [vectorOpen, decoded, parseVectorSearchArgs_innerArgs wellFormed]
  rfl

theorem vectorExpandInner_ok {unicode : UnicodeTables} {d : Document} {q : QueryArgs}
    (parsed : parseVectorSearchArgs unicode d = .ok q) :
    vectorExpandInner unicode d = .ok (idLookupExpansion vectorSearchName q) := by
  simp [vectorExpandInner, parsed]

/-- The request of well-formed arguments: the filter in it is the image of the given one. -/
theorem opensearchBody_eq {unicode : UnicodeTables} {toValue : Bson → Option Json}
    (faithful : ∀ value json, Bson.image value = some json → toValue value = some json)
    {q : QueryArgs} (wellFormed : q.WellFormed unicode) :
    ∃ filter : Option (List (String × Json)),
      (q.filter.map fun d => Bson.image (.document d)) =
          (filter.map fun fields => some (.object fields)) ∧
      opensearchBody toValue q =
        .object [("size", .int q.limit), ("_source", .bool false),
          ("query", .object [("neural", .object [(q.path ++ "_embedding", .object
            ([("query_text", .string q.query), ("k", .int q.limit)] ++
              (filter.map fun fields => ("filter", Json.object fields)).toList))])])] := by
  cases given : q.filter with
  | none => exact ⟨none, rfl, by simp [opensearchBody, given]⟩
  | some d =>
      obtain ⟨fields, image⟩ := accepted_image (wellFormed.filter d given)
      refine ⟨some fields, by simp [image], ?_⟩
      simp [opensearchBody, given, bsonDocToJson, faithful _ _ image]

/-- **The arguments a user gave are the ones that are searched for.** Expanding accepted arguments
gives the candidate stage and the id lookup with the same limit. The candidate stage opens with
exactly the arguments of the first parse, and its own arguments expand to the same two stages
again. Its request carries them field by field: the limit, which is between 1 and 1000, and a
filter if and only if one was given, which is then an object, the image of the given filter. -/
theorem parsed_args_reach_request {η : Type} (unicode : UnicodeTables) (codec : BsonCodec)
    (factory : Option (Bytes → FactoryReply η)) (readers : OptionReaders)
    (toValue : Bson → Option Json)
    (faithful : ∀ value json, Bson.image value = some json → toValue value = some json)
    {raw : Bytes} {args : Document} {q : QueryArgs} (received : codec.decode raw = .ok args)
    (accepted : parseVectorSearchArgs unicode args = .ok q)
    (roundTrips : codec.RoundTrips (innerArgs q)) :
    ∃ blob : Bytes,
      parseExpand codec factory vectorSearchName (vectorExpandInner unicode) raw =
        (createIdLookupAst codec factory (idLookupStage q.limit)).map
          (fun node => [.extension blob, .host node]) ∧
      parseExpand codec factory vectorSearchName (vectorExpandInner unicode) blob =
        parseExpand codec factory vectorSearchName (vectorExpandInner unicode) raw ∧
      (∀ options ctx,
        vectorOpen unicode codec readers options blob ctx = openState readers options q ctx ∧
        ∀ state, vectorOpen unicode codec readers options blob ctx = .ok state → state.args = q) ∧
      1 ≤ q.limit ∧ q.limit ≤ 1000 ∧
      ∃ filter : Option (List (String × Json)),
        (args.get "filter").map Bson.image = (filter.map fun fields => some (.object fields)) ∧
        opensearchBody toValue q =
          .object [("size", .int q.limit), ("_source", .bool false),
            ("query", .object [("neural", .object [(q.path ++ "_embedding", .object
              ([("query_text", .string q.query), ("k", .int q.limit)] ++
                (filter.map fun fields => ("filter", Json.object fields)).toList))])])] := by
  obtain ⟨wellFormed, given⟩ := parseVectorSearchArgs_ok accepted
  obtain ⟨blob, encoded, decoded⟩ := roundTrips
  have expands : ∀ {source : Bytes} {d : Document}, codec.decode source = .ok d →
      parseVectorSearchArgs unicode d = .ok q →
      parseExpand codec factory vectorSearchName (vectorExpandInner unicode) source =
        (createIdLookupAst codec factory (idLookupStage q.limit)).map
          (fun node => [.extension blob, .host node]) := by
    intro source d sourceDecoded parsed
    exact parseExpand_withHostIdLookup codec factory vectorSearchName sourceDecoded
      (vectorExpandInner_ok parsed) encoded
  have first := expands received accepted
  have again := expands decoded (parseVectorSearchArgs_innerArgs wellFormed)
  refine ⟨blob, first, again.trans first.symm, ?_, wellFormed.positive, wellFormed.bounded, ?_⟩
  · intro options ctx
    have opens := vectorOpen_innerArgs wellFormed decoded readers options ctx
    exact ⟨opens, fun state opened => openState_args (opens ▸ opened)⟩
  · obtain ⟨filter, images, body⟩ := opensearchBody_eq faithful wellFormed
    refine ⟨filter, ?_, body⟩
    rw [given, Option.map_map]
    exact images

section Run

/-- Arguments with blanks around the path and a fractional limit. -/
def plotArgs : Document :=
  [("path", .string " plot"), ("query", .string "rain"), ("limit", .double ⟨0x4016000000000000⟩),
    ("filter", .document [("term", .document [("color", .string "red")])])]

def plotQuery : QueryArgs :=
  ⟨"plot", "rain", 5, some [("term", .document [("color", .string "red")])]⟩

/-- The BSON of `plotArgs`. -/
def plotArgsBytes : Bytes :=
  [91, 0, 0, 0, 2, 112, 97, 116, 104, 0, 6, 0, 0, 0, 32, 112, 108, 111, 116, 0, 2, 113, 117, 101,
    114, 121, 0, 5, 0, 0, 0, 114, 97, 105, 110, 0, 1, 108, 105, 109, 105, 116, 0, 0, 0, 0, 0, 0,
    0, 22, 64, 3, 102, 105, 108, 116, 101, 114, 0, 31, 0, 0, 0, 3, 116, 101, 114, 109, 0, 20, 0,
    0, 0, 2, 99, 111, 108, 111, 114, 0, 4, 0, 0, 0, 114, 101, 100, 0, 0, 0, 0]

/-- The BSON of the arguments of the candidate stage. -/
def plotQueryBytes : Bytes :=
  [90, 0, 0, 0, 2, 112, 97, 116, 104, 0, 5, 0, 0, 0, 112, 108, 111, 116, 0, 2, 113, 117, 101,
    114, 121, 0, 5, 0, 0, 0, 114, 97, 105, 110, 0, 18, 108, 105, 109, 105, 116, 0, 5, 0, 0, 0, 0,
    0, 0, 0, 3, 102, 105, 108, 116, 101, 114, 0, 31, 0, 0, 0, 3, 116, 101, 114, 109, 0, 20, 0, 0,
    0, 2, 99, 111, 108, 111, 114, 0, 4, 0, 0, 0, 114, 101, 100, 0, 0, 0, 0]

/-- The BSON of the id lookup. -/
def plotLookupBytes : Bytes :=
  [51, 0, 0, 0, 3, 36, 95, 105, 110, 116, 101, 114, 110, 97, 108, 83, 101, 97, 114, 99, 104, 73,
    100, 76, 111, 111, 107, 117, 112, 0, 20, 0, 0, 0, 18, 108, 105, 109, 105, 116, 0, 5, 0, 0, 0,
    0, 0, 0, 0, 0, 0]

/-- The BSON codec on these documents. -/
def plotCodec : BsonCodec where
  encode d :=
    if d.containsKey "$_internalSearchIdLookup" then .ok plotLookupBytes else .ok plotQueryBytes
  decode bytes :=
    if bytes = plotArgsBytes then .ok plotArgs
    else if bytes = plotQueryBytes then .ok (innerArgs plotQuery)
    else .error "unexpected end of file"

/-- A host whose nodes are the stage documents they were made from. -/
def plotFactory (spec : Bytes) : FactoryReply Bytes := ⟨some statusOk, some spec⟩

/-- Readers of options in the line form. -/
def plotReaders : OptionReaders where
  fromUtf8 bytes := .ok (.ofList (bytes.map fun b => Char.ofNat b.toNat))
  fromStr _ := .error "expected value at line 1 column 1"

theorem parseVectorSearchArgs_plotArgs : parseVectorSearchArgs .ascii plotArgs = .ok plotQuery := by
  rfl

theorem plotCodec_roundTrips : plotCodec.RoundTrips (innerArgs plotQuery) := by
  refine ⟨plotQueryBytes, rfl, ?_⟩
  have other : plotQueryBytes ≠ plotArgsBytes := by decide
  simp [plotCodec, other]

theorem parsed_args_reach_request_plot :
    ∃ blob : Bytes,
      parseExpand plotCodec (some plotFactory) vectorSearchName (vectorExpandInner .ascii)
          plotArgsBytes =
        .ok [.extension blob, .host plotLookupBytes] ∧
      parseExpand plotCodec (some plotFactory) vectorSearchName (vectorExpandInner .ascii) blob =
        .ok [.extension blob, .host plotLookupBytes] ∧
      opensearchBody Bson.image plotQuery =
        .object [("size", .int 5), ("_source", .bool false),
          ("query", .object [("neural", .object [("plot_embedding", .object
            [("query_text", .string "rain"), ("k", .int 5),
              ("filter", .object [("term", .object [("color", .string "red")])])])])])] := by
  obtain ⟨blob, expands, again, _⟩ :=
    parsed_args_reach_request .ascii plotCodec (some plotFactory) plotReaders Bson.image
      (fun _ _ image => image) (show plotCodec.decode plotArgsBytes = .ok plotArgs from rfl)
      parseVectorSearchArgs_plotArgs
      plotCodec_roundTrips
  have nodes : (createIdLookupAst plotCodec (some plotFactory) (idLookupStage plotQuery.limit)).map
      (fun node => [AstNode.extension blob, .host node]) =
        .ok [.extension blob, .host plotLookupBytes] := rfl
  exact ⟨blob, expands.trans nodes, again.trans (expands.trans nodes), rfl⟩

end Run

end OpenSearch

end ExtensionSdkMongodb

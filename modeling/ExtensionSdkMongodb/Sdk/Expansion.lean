import ExtensionSdkMongodb.Data.Bson
import ExtensionSdkMongodb.Sdk.Error

/-!
# Expansion of a parsed stage

A parse node expands to AST nodes: to itself, to a pipeline of stages of its own name, or to a
candidate stage followed by the host's id lookup. Stage documents travel as encoded arguments,
so `pipelineStageArgBlobs` checks and encodes them.
-/

set_option autoImplicit false

namespace ExtensionSdkMongodb

/-- The result of an `expand` hook. -/
inductive Expansion where
  | selfStage
  | pipeline (stages : List Document)
  | withHostIdLookup (extensionStage idLookup : Document)

/-! ## Encoded arguments -/

/-- The text of the crate's error for a value that is not a document. -/
def unexpectedType : String := "field does not have the expected type"

section Blobs

variable (codec : BsonCodec) (stageName : String)

/-- One step of the loop of `pipeline_stage_arg_blobs`. -/
def stageArgBlob : Document → Except ExtensionError Bytes
  | [] => .error (.badValue "empty stage document")
  | _ :: _ :: _ => .error (.badValue "stage document must have exactly one field")
  | [(k, value)] =>
    if k = stageName then
      match value.asDocument with
      | none => .error (.badValue unexpectedType)
      | some inner => (codec.encode inner).mapError .failedToParse
    else
      .error (.badValue
        ("expanded pipeline stages must use operator " ++ stageName ++ ", got " ++ k))

/-- The loop of `pipeline_stage_arg_blobs`. -/
def stageArgBlobs : List Document → Except ExtensionError (List Bytes)
  | [] => .ok []
  | d :: pipeline => do
    let blob ← stageArgBlob codec stageName d
    let blobs ← stageArgBlobs pipeline
    return blob :: blobs

/-- `pipeline_stage_arg_blobs`. -/
def pipelineStageArgBlobs (pipeline : List Document) : Except ExtensionError (List Bytes) :=
  if pipeline.isEmpty then .error (.badValue "expanded pipeline must not be empty")
  else stageArgBlobs codec stageName pipeline

theorem stageArgBlob_ok {inner : Document} {blob : Bytes}
    (encoded : codec.encode inner = .ok blob) :
    stageArgBlob codec stageName [(stageName, .document inner)] = .ok blob := by
  simp [stageArgBlob, Bson.asDocument, encoded, Except.mapError]

end Blobs

/-! ## The host's id lookup -/

/-- What a factory of the host answers: a status, and the node it wrote. Null is `none`. -/
structure FactoryReply (η : Type) where
  status : Option Status
  node : Option η

/-- `create_id_lookup_ast`; without host services there is no factory. -/
def createIdLookupAst {η : Type} (codec : BsonCodec) (factory : Option (Bytes → FactoryReply η))
    (spec : Document) : Except ExtensionError η :=
  match factory with
  | none => .error (.runtime "host services not initialized")
  | some create =>
    match codec.encode spec with
    | .error e => .error (.failedToParse e)
    | .ok raw =>
      let reply := create raw
      match reply.status with
      | none => .error (.runtime "null status from create_id_lookup")
      | some st =>
        if st.isOk then
          match reply.node with
          | none => .error (.runtime "create_id_lookup returned null AST node")
          | some node => .ok node
        else
          .error (.hostError st.code
            (if st.reason = "" then "create_id_lookup failed" else st.reason))

/-! ## The expansion of a parse node -/

/-- An AST node of an expanded array: of the extension, with its arguments, or of the host. -/
inductive AstNode (η : Type) where
  | extension (args : Bytes)
  | host (node : η)

section ParseExpand

variable {η : Type} (codec : BsonCodec) (factory : Option (Bytes → FactoryReply η))
  (stageName : String)

/-- The nodes of an expansion. -/
def expansionNodes (args : Bytes) : Expansion → Except ExtensionError (List (AstNode η))
  | .selfStage => .ok [.extension args]
  | .pipeline docs => do
    let blobs ← pipelineStageArgBlobs codec stageName docs
    return blobs.map .extension
  | .withHostIdLookup extensionStage idLookup => do
    match ← pipelineStageArgBlobs codec stageName [extensionStage] with
    | [] => .error (.badValue "missing extension stage")
    | blob :: _ =>
      let node ← createIdLookupAst codec factory idLookup
      return [.extension blob, .host node]

/-- The closure of `parse_expand`. -/
def expandClosure (expandInner : Document → HookOutcome ExtensionError Expansion) (args : Bytes) :
    HookOutcome ExtensionError (List (AstNode η)) :=
  match codec.decode args with
  | .error e => .error (.error (.failedToParse e))
  | .ok argsDoc =>
    match expandInner argsDoc with
    | .error fault => .error fault
    | .ok ex => (expansionNodes codec factory stageName args ex).mapError .error

/-- `parse_expand`, up to the container of the nodes. -/
def parseExpand (expandInner : Document → HookOutcome ExtensionError Expansion) (args : Bytes) :
    Except ExtensionError (List (AstNode η)) :=
  (ffiBoundary (expandClosure codec factory stageName expandInner args)).getD
    (.error (.runtime "panic during expand"))

/-- A candidate stage that encodes expands to its node and the host's, or fails as the host's
factory does. -/
theorem parseExpand_withHostIdLookup
    {expandInner : Document → HookOutcome ExtensionError Expansion} {args blob : Bytes}
    {argsDoc inner idLookup : Document} (decoded : codec.decode args = .ok argsDoc)
    (expanded : expandInner argsDoc =
      .ok (.withHostIdLookup [(stageName, .document inner)] idLookup))
    (encoded : codec.encode inner = .ok blob) :
    parseExpand codec factory stageName expandInner args =
      (createIdLookupAst codec factory idLookup).map fun node =>
        [.extension blob, .host node] := by
  have blobs : pipelineStageArgBlobs codec stageName [[(stageName, .document inner)]] =
      .ok [blob] := by
    simp [pipelineStageArgBlobs, stageArgBlobs, stageArgBlob_ok codec stageName encoded, bind,
      Except.bind, pure, Except.pure]
  have nodes : expandClosure codec factory stageName expandInner args =
      ((createIdLookupAst codec factory idLookup).map fun node =>
        [.extension blob, .host node]).mapError .error := by
    simp only [expandClosure, decoded, expanded, expansionNodes, blobs, bind, Except.bind]
    cases createIdLookupAst codec factory idLookup <;> rfl
  rw [parseExpand, nodes]
  cases createIdLookupAst codec factory idLookup <;> rfl

end ParseExpand

end ExtensionSdkMongodb

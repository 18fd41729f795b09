import ExtensionSdkMongodb.SourceStage.Exec
import ExtensionSdkMongodb.Sdk.ParseExpand

/-!
# The nodes of a source stage

The functions on parse, AST and logical nodes of source stages. They report errors as typed
`ExtensionError`s.
-/

set_option autoImplicit false

namespace ExtensionSdkMongodb.SourceStage

/-- A source's whole table: the hooks of its executable stage, and what the planner's functions
read. -/
structure SourceTable (ω : Type) extends SourceOps ω where
  name : String
  expectEmpty : Bool
  expandInner : Document → HookOutcome ExtensionError Expansion
  mergingPipeline :
    Option (Document → Option CatalogContext → HookOutcome ExtensionError (Option (List Document)))
  onExtensionInitialized : Option (HookOutcome ExtensionError Unit)

variable {ω : Type}

/-- The part of the table that the functions on nodes read. -/
def SourceTable.stage (table : SourceTable ω) : StageTable ExtensionError where
  name := table.name
  expectEmpty := table.expectEmpty
  expand := some table.expandInner

section Nodes

variable (codec : BsonCodec) (table : SourceTable ω)

/-- `desc_parse`. -/
def descParse (stageBson : Bytes) : Delivery ParseObj :=
  Reporting.typed.descParse codec table.stage stageBson

/-- `parse_get_query_shape`. -/
def parseGetQueryShape (p : ParseObj) : Delivery Bytes :=
  Reporting.typed.parseGetQueryShape codec table.stage p

/-- `parse_to_bson_for_log`. -/
def parseToBsonForLog (p : ParseObj) : Delivery Bytes :=
  Reporting.typed.parseToBsonForLog codec table.stage p

/-- `log_serialize`, on the arguments of a logical stage. -/
def logSerialize (args : Bytes) : Delivery Bytes :=
  Reporting.typed.logSerialize codec table.stage args

end Nodes

/-! ## Expansion -/

section Expand

variable {η : Type} (codec : BsonCodec) (factory : Option (Bytes → FactoryReply η))
  (table : SourceTable ω)

/-- The `WithHostIdLookup` branch of `parse_expand`. -/
def expandLookup : LookupBranch ExtensionError η :=
  fun extensionStage idLookup w =>
    match pipelineStageArgBlobs codec table.name [extensionStage] with
    | .error e => (.error e, w)
    | .ok [] => (.error (.badValue "missing extension stage"), w)
    | .ok (blob :: _) =>
      let (extensionAst, w) := astAlloc blob w
      match receiveIdLookup codec factory idLookup w with
      -- The candidate node is a raw pointer here, so nothing destroys it.
      | (.error e, w) => (.error e, w)
      | (.ok idLookupAst, w) => (.ok (expandedMulti [extensionAst, idLookupAst]), w)

/-- `parse_expand`. -/
def parseExpand (p : ParseObj) : Delivery (Expanded ℕ) × NodeWorld η :=
  Reporting.typed.parseExpand codec table.stage (expandLookup codec factory table) p

end Expand

/-- `exp_transfer` and `exp_multi_transfer`. -/
def expTransfer {ν : Type} : Expanded ν → ℕ → Status × List ν × Expanded ν :=
  Reporting.typed.expTransfer

/-- A container as a machine over the host's calls. -/
def operateArray {ν : Type} : Machine (ArrayState ν) ArrayCall (ArrayReply ν) :=
  Reporting.typed.operateArray

/-! ## Logical stages -/

/-- A logical stage. -/
structure LogicalObj where
  args : Bytes
  catalog : Option CatalogContext
  planApplied : Bool
  deriving DecidableEq, Repr

/-- `logical_alloc`. -/
def logicalAlloc (args : Bytes) (catalog : Option CatalogContext) : LogicalObj where
  args := args
  catalog := catalog
  planApplied := false

/-- `ast_bind`, with the catalog read from its context. -/
def astBind (catalog : Option CatalogContext) (a : AstObj) : Delivery LogicalObj :=
  ⟨statusOk, some (logicalAlloc a.args catalog)⟩

/-- `log_clone`. -/
def logClone (l : LogicalObj) : Delivery LogicalObj :=
  ⟨statusOk, some { logicalAlloc l.args l.catalog with planApplied := l.planApplied }⟩

end ExtensionSdkMongodb.SourceStage

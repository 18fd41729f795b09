import ExtensionSdkMongodb.MapTransform.Exec
import ExtensionSdkMongodb.Sdk.ParseExpand

/-!
# The nodes of a map stage

The functions on parse, AST and logical nodes of map stages. They report errors by their texts.
-/

set_option autoImplicit false

namespace ExtensionSdkMongodb.MapTransform

/-- A map stage's whole globals: the callbacks of its executable stage, and what the planner's
functions read. -/
structure MapTable extends MapStageGlobals where
  name : String
  expectEmpty : Bool
  onExtensionInitialized : Option (HookOutcome String Unit)
  /-- `none` when the hook panics. -/
  staticPropertiesDoc : Option Document
  expandFromArgsDoc : Option (Document → HookOutcome String Expansion)

/-- The part of the globals that the functions on nodes read. -/
def MapTable.stage (table : MapTable) : StageTable String where
  name := table.name
  expectEmpty := table.expectEmpty
  expand := table.expandFromArgsDoc

section Nodes

variable (codec : BsonCodec) (table : MapTable)

/-- `desc_parse`. -/
def descParse (stageBson : Bytes) : Delivery ParseObj :=
  Reporting.text.descParse codec table.stage stageBson

/-- `parse_get_query_shape`. -/
def parseGetQueryShape (p : ParseObj) : Delivery Bytes :=
  Reporting.text.parseGetQueryShape codec table.stage p

/-- `parse_to_bson_for_log`. -/
def parseToBsonForLog (p : ParseObj) : Delivery Bytes :=
  Reporting.text.parseToBsonForLog codec table.stage p

/-- `log_serialize`, on the arguments of a logical stage. -/
def logSerialize (args : Bytes) : Delivery Bytes :=
  Reporting.text.logSerialize codec table.stage args

/-- `parse_expand`. -/
def parseExpand {η : Type} (p : ParseObj) : Delivery (Expanded ℕ) × NodeWorld η :=
  Reporting.text.parseExpand codec table.stage
    (Reporting.rejectLookup "WithHostIdLookup expansion is only supported by source stages") p

end Nodes

/-- `exp_transfer` and `exp_multi_transfer`. -/
def expTransfer {ν : Type} : Expanded ν → ℕ → Status × List ν × Expanded ν :=
  Reporting.text.expTransfer

/-- A container as a machine over the host's calls. -/
def operateArray {ν : Type} : Machine (ArrayState ν) ArrayCall (ArrayReply ν) :=
  Reporting.text.operateArray

/-! ## Logical stages -/

/-- A logical stage. -/
structure LogicalObj where
  args : Bytes
  deriving DecidableEq, Repr

/-- `ast_bind`, which looks at no context. -/
def astBind (a : AstObj) : Delivery LogicalObj := ⟨statusOk, some ⟨a.args⟩⟩

/-- `log_clone`. -/
def logClone (l : LogicalObj) : Delivery LogicalObj := ⟨statusOk, some ⟨l.args⟩⟩

end ExtensionSdkMongodb.MapTransform

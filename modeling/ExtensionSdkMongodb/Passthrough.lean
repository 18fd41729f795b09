import ExtensionSdkMongodb.Sdk.ParseExpand
import ExtensionSdkMongodb.Sdk.Upstream

/-!
# Passthrough stages

An executable passthrough stage hands the host what its upstream answers, and reports the end when
it has no upstream. The functions on parse, AST and logical nodes report errors by their texts, as
map stages do.
-/

set_option autoImplicit false

namespace ExtensionSdkMongodb.Passthrough

/-! ## The executable stage -/

/-- The executable stage object. -/
structure ExecObj where
  args : Bytes
  source : Option Upstream

/-- `exec_alloc`. -/
def execAlloc (args : Bytes) : ExecObj := ⟨args, none⟩

/-- A stage with the number of answers taken from upstream. -/
structure Stage where
  exec : ExecObj
  pulls : ℕ

/-- `exec_set_source`. -/
def execSetSource (s : Stage) (source : Option Upstream) : Stage := { s with exec.source := source }

/-- `exec_get_next`. -/
def execGetNext : Machine Stage Frame Reply :=
  fun s frame =>
    match s.exec.source with
    | none => (⟨statusOk, .setEofEmpty⟩, s)
    | some up => ((up s.pulls).reply frame.result, { s with pulls := s.pulls + 1 })

/-! ## Nodes -/

/-- `StageGlobals`, as far as the functions on nodes read it. -/
structure StageGlobals where
  name : String
  expectEmpty : Bool
  expandFromArgsDoc : Option (Document → HookOutcome String Expansion)

/-- The globals as a table. -/
def StageGlobals.stage (globals : StageGlobals) : StageTable String where
  name := globals.name
  expectEmpty := globals.expectEmpty
  expand := globals.expandFromArgsDoc

section Nodes

variable (codec : BsonCodec) (globals : StageGlobals)

/-- `desc_parse`. -/
def descParse (stageBson : Bytes) : Delivery ParseObj :=
  Reporting.text.descParse codec globals.stage stageBson

/-- `parse_get_query_shape`. -/
def parseGetQueryShape (p : ParseObj) : Delivery Bytes :=
  Reporting.text.parseGetQueryShape codec globals.stage p

/-- `parse_to_bson_for_log`. -/
def parseToBsonForLog (p : ParseObj) : Delivery Bytes :=
  Reporting.text.parseToBsonForLog codec globals.stage p

/-- `parse_expand`. -/
def parseExpand {η : Type} (p : ParseObj) : Delivery (Expanded ℕ) × NodeWorld η :=
  Reporting.text.parseExpand codec globals.stage
    (Reporting.rejectLookup "WithHostIdLookup expansion is only supported by source stages") p

end Nodes

/-- `exp_transfer` and `exp_multi_transfer`. -/
def expTransfer {ν : Type} : Expanded ν → ℕ → Status × List ν × Expanded ν :=
  Reporting.text.expTransfer

/-- A container as a machine over the host's calls. -/
def operateArray {ν : Type} : Machine (ArrayState ν) ArrayCall (ArrayReply ν) :=
  Reporting.text.operateArray

end ExtensionSdkMongodb.Passthrough

import ExtensionSdkMongodb.Data.Bson
import ExtensionSdkMongodb.Library.Machine
import ExtensionSdkMongodb.Sdk.Error

/-!
# Distributed plans

A source with a merging pipeline hands the host a plan: a container with the merger's stages and
possibly one with the shards' stages. The host extracts the containers, and moves the stages of
a container into an array of its own. A stage is owned through an `OwnedStage`, an optional
element whose drop destroys the element, and a container owns its stages until they are taken.

The host can call these operations in any order, on any plan or container it was handed and has
not destroyed (`operate`).
-/

set_option autoImplicit false

namespace ExtensionSdkMongodb.DistributedPlan

/-! ## Elements and the world -/

/-- `MongoExtensionDPLArrayElementType`. -/
inductive ElementType where
  | parse
  | logical
  deriving DecidableEq, Repr

/-- `MongoExtensionDPLArrayElement`: a stage or a parse node, by its identity. -/
structure Element where
  type : ElementType
  node : ℕ
  deriving DecidableEq, Repr

/-- The clone of the source that a plan is built with. -/
def sourceNode : Element := ⟨.logical, 0⟩

/-- The parse node the host created for the plan at a position. -/
def parseNode (i : ℕ) : Element := ⟨.parse, i + 1⟩

/-- What happened to nodes outside the plan: the documents the host made parse nodes of, in order,
and the elements the extension destroyed. -/
structure World where
  specs : List Document
  destroyed : List Element

/-- A world with the source's clone only. -/
def World.start : World := ⟨[], []⟩

/-- Every node created for the plan. -/
def World.created (w : World) : List Element :=
  sourceNode :: (List.range w.specs.length).map parseNode

/-- The host's answers to `create_host_agg_stage_parse_node`, by the number of nodes it created
before. A failing call hands over no node. -/
abbrev Host := ℕ → Document → Except ExtensionError Unit

/-- `create_host_parse_node`. -/
def createHostParseNode (host : Host) (spec : Document) (w : World) :
    Except ExtensionError Element × World :=
  match host w.specs.length spec with
  | .error e => (.error e, w)
  | .ok () => (.ok (parseNode w.specs.length), { w with specs := w.specs ++ [spec] })

/-! ## Owned stages, containers and plans -/

/-- `OwnedStage`. -/
abbrev OwnedStage := Option Element

/-- The drop of owned stages: each element still in its slot is destroyed. -/
def World.drop (w : World) (stages : List OwnedStage) : World :=
  { w with destroyed := w.destroyed ++ stages.reduceOption }

/-- `Container`. -/
structure Container where
  stages : Option (List OwnedStage)

/-- The drop of a container. -/
def World.dropContainer (w : World) (c : Container) : World := w.drop (c.stages.getD [])

/-- `Plan`. -/
structure Plan where
  merger : Option Container
  shards : Option Container
  shardsExtracted : Bool

/-- The drop of a plan: its fields in order. -/
def World.dropPlan (w : World) (p : Plan) : World :=
  let w := p.merger.elim w w.dropContainer
  p.shards.elim w w.dropContainer

/-! ## Building a plan -/

/-- A suffix document is one operator. -/
def singleOperator (spec : Document) : Bool :=
  match spec with
  | [(key, _)] => key.toList.head? == some '$'
  | _ => false

/-- The loop of `build_merger`. A failure drops the stages pushed so far. -/
def pushSuffix (host : Host) :
    List OwnedStage → List Document → World → Except ExtensionError (List OwnedStage) × World
  | stages, [], w => (.ok stages, w)
  | stages, spec :: suffix, w =>
    if singleOperator spec then
      match createHostParseNode host spec w with
      | (.error e, w) => (.error e, w.drop stages)
      | (.ok node, w) => pushSuffix host (stages ++ [some node]) suffix w
    else
      (.error (.badValue "DPL suffix must contain single-operator stage documents"), w.drop stages)

/-- The pipeline of suppressed shards. -/
def constantFalse : Document := [("$match", .document [("$expr", .boolean false)])]

/-- `build_merger`. -/
def buildMerger (host : Host) (source : OwnedStage) (suffix : List Document) (suppressInput : Bool)
    (w : World) : Except ExtensionError Plan × World :=
  match pushSuffix host [source] suffix w with
  | (.error e, w) => (.error e, w)
  | (.ok stages, w) =>
    let merger : Container := ⟨some stages⟩
    if suppressInput then
      match createHostParseNode host constantFalse w with
      | (.error e, w) => (.error e, w.dropContainer merger)
      | (.ok node, w) => (.ok ⟨some merger, some ⟨some [some node]⟩, false⟩, w)
    else (.ok ⟨some merger, none, false⟩, w)

/-! ## The host's operations -/

/-- The plan's part a container comes from. -/
inductive Origin where
  | merger
  | shards
  deriving DecidableEq, Repr

/-- A container the host was handed; `none` once it destroyed it. -/
structure Handed where
  origin : Origin
  live : Option Container

/-- A plan with everything that came out of it. -/
structure System where
  plan : Option Plan
  containers : List Handed
  arrays : List (List Element)
  world : World

/-- A plan just built. -/
def System.built (p : Plan) (w : World) : System := ⟨some p, [], [], w⟩

/-- A live container by its handle. -/
def System.container (sys : System) (handle : ℕ) : Option Container :=
  sys.containers[handle]?.bind Handed.live

def System.setContainer (sys : System) (handle : ℕ) (live : Option Container) : System :=
  { sys with containers := sys.containers.modify handle fun h => { h with live } }

/-- `MongoExtensionDPLArray`, as the host passes it to a transfer. -/
structure OutArray where
  size : ℕ
  elementsNull : Bool
  deriving DecidableEq, Repr

/-- A call of the host. A null pointer is `none`. -/
inductive Operation where
  | extractShards
  | extractMerger
  | size (handle : ℕ)
  | transfer (handle : Option ℕ) (out : Option OutArray)
  | destroyContainer (handle : Option ℕ)
  | destroyPlan

/-- What a call returns. -/
inductive Response where
  /-- An OK status, with the handle written to the output pointer. -/
  | accepted (out : Option ℕ)
  | rejected (e : ExtensionError)
  | size (n : ℕ)
  | done
  /-- A panic in a function that cannot unwind. -/
  | aborted
  /-- The object was destroyed before, so the call is not one the host can make. -/
  | dangling
  deriving DecidableEq, Repr

/-- The elements of stages that are all in their slots; the loop of a transfer panics at an empty
slot. -/
def takeAll : List OwnedStage → Option (List Element)
  | [] => some []
  | none :: _ => none
  | some element :: stages => (takeAll stages).map (element :: ·)

/-- `extract_shards`. -/
def extractShards (sys : System) (p : Plan) : Response × System :=
  if p.shardsExtracted then (.rejected (.badValue "DPL shards already extracted"), sys)
  else
    let p' : Plan := { p with shardsExtracted := true, shards := none }
    match p.shards with
    | none => (.accepted none, { sys with plan := some p' })
    | some c =>
      (.accepted (some sys.containers.length),
        { sys with plan := some p', containers := sys.containers ++ [⟨.shards, some c⟩] })

/-- `extract_merger`. -/
def extractMerger (sys : System) (p : Plan) : Response × System :=
  match p.merger with
  | none => (.rejected (.badValue "DPL merger already extracted"), sys)
  | some c =>
    (.accepted (some sys.containers.length),
      { sys with
        plan := some { p with merger := none }
        containers := sys.containers ++ [⟨.merger, some c⟩] })

/-- `container_transfer` of a container, with an array to write to. -/
def containerTransfer (sys : System) (handle : ℕ) (c : Container) (out : OutArray) :
    Response × System :=
  match c.stages with
  | none => (.rejected (.badValue "DPL container already transferred"), sys)
  | some stages =>
    if out.size ≠ stages.length ∨ (stages.isEmpty = false ∧ out.elementsNull = true) then
      (.rejected (.badValue "invalid DPL output array"), sys)
    else
      match takeAll stages with
      | none => (.aborted, sys)
      | some elements =>
        (.accepted none,
          { sys.setContainer handle (some ⟨none⟩) with arrays := sys.arrays ++ [elements] })

/-- A plan and its containers as a machine over the host's calls. -/
def operate : Machine System Operation Response
  | sys, .extractShards =>
    match sys.plan with
    | none => (.dangling, sys)
    | some p => extractShards sys p
  | sys, .extractMerger =>
    match sys.plan with
    | none => (.dangling, sys)
    | some p => extractMerger sys p
  | sys, .size handle =>
    match sys.container handle with
    | none => (.dangling, sys)
    | some c => (.size (c.stages.getD []).length, sys)
  | sys, .transfer (some handle) (some out) =>
    match sys.container handle with
    | none => (.dangling, sys)
    | some c => containerTransfer sys handle c out
  | sys, .transfer _ _ => (.rejected (.badValue "null DPL transfer argument"), sys)
  | sys, .destroyContainer none => (.done, sys)
  | sys, .destroyContainer (some handle) =>
    match sys.container handle with
    | none => (.dangling, sys)
    | some c =>
      (.done, { sys.setContainer handle none with world := sys.world.dropContainer c })
  | sys, .destroyPlan =>
    match sys.plan with
    | none => (.dangling, sys)
    | some p => (.done, { sys with plan := none, world := sys.world.dropPlan p })

end ExtensionSdkMongodb.DistributedPlan

import ExtensionSdkMongodb.Data.Bson

/-!
# Static properties of stages

What a stage tells the planner about itself: whether it streams, where it stands in the pipeline,
whether it takes documents from another stage, and where in a sharded cluster it runs. The planner
reads a document, and nothing is lost in it (`toDocumentWithHostType_inj`).
-/

set_option autoImplicit false

namespace ExtensionSdkMongodb

inductive StreamType where
  | streaming
  | blocking
  deriving DecidableEq, Repr

/-- `as_idl_str`. -/
def StreamType.asIdlStr : StreamType → String
  | .streaming => "streaming"
  | .blocking => "blocking"

inductive StagePosition where
  | anywhere
  | first
  | last
  deriving DecidableEq, Repr

/-- `as_idl_str`. -/
def StagePosition.asIdlStr : StagePosition → String
  | .anywhere => "none"
  | .first => "first"
  | .last => "last"

/-- Where a stage runs in a sharded cluster. -/
inductive HostTypeRequirement where
  | none
  | router
  deriving DecidableEq, Repr

structure StageProperties where
  streamType : StreamType
  position : StagePosition
  requiresInput : Bool
  deriving DecidableEq, Repr

namespace StageProperties

/-- `transform_stage_default`, which is also `default`. -/
def transformStageDefault : StageProperties := ⟨.streaming, .anywhere, true⟩

/-- `source_stage_default`. -/
def sourceStageDefault : StageProperties := ⟨.streaming, .first, true⟩

/-- `to_document`. -/
def toDocument (p : StageProperties) : Document :=
  [("streamType", .string p.streamType.asIdlStr), ("position", .string p.position.asIdlStr),
    ("requiresInputDocSource", .boolean p.requiresInput)]

/-- `to_document_with_host_type`. -/
def toDocumentWithHostType (p : StageProperties) (hostType : HostTypeRequirement) : Document :=
  if hostType = .router then p.toDocument.insert "hostType" (.string "router") else p.toDocument

end StageProperties

/-- `default_map_stage_static_properties`. -/
def defaultMapStageStaticProperties : Document := StageProperties.transformStageDefault.toDocument

/-- The execution model of a stage. -/
inductive ExecutionModel where
  | streaming
  | blocking
  deriving DecidableEq, Repr

structure StagePlan where
  properties : StageProperties
  execution : ExecutionModel
  deriving DecidableEq, Repr

namespace StagePlan

/-- `source_default`. -/
def sourceDefault : StagePlan := ⟨.sourceStageDefault, .streaming⟩

/-- `transform_streaming_default`. -/
def transformStreamingDefault : StagePlan := ⟨.transformStageDefault, .streaming⟩

end StagePlan

/-! ## Reading the document -/

namespace StageProperties

/-- The keys of the document are distinct and known, so each is found at once. -/
theorem get_toDocumentWithHostType (p : StageProperties) (hostType : HostTypeRequirement) :
    (p.toDocumentWithHostType hostType).get "streamType" =
        some (.string p.streamType.asIdlStr) ∧
      (p.toDocumentWithHostType hostType).get "position" = some (.string p.position.asIdlStr) ∧
      (p.toDocumentWithHostType hostType).get "requiresInputDocSource" =
        some (.boolean p.requiresInput) ∧
      (p.toDocumentWithHostType hostType).get "hostType" =
        if hostType = .router then some (.string "router") else none := by
  cases hostType with
  | none => simp [toDocumentWithHostType, toDocument]
  | router => simp [toDocumentWithHostType, toDocument, Document.get_insert]

/-- **Stages that tell the planner the same have the same properties and placement.** -/
theorem toDocumentWithHostType_inj {p q : StageProperties} {placement other : HostTypeRequirement}
    (same : p.toDocumentWithHostType placement = q.toDocumentWithHostType other) :
    p = q ∧ placement = other := by
  obtain ⟨streamType, position, requires, placed⟩ := get_toDocumentWithHostType p placement
  rw [same] at streamType position requires placed
  obtain ⟨streamType', position', requires', placed'⟩ := get_toDocumentWithHostType q other
  rw [streamType] at streamType'
  rw [position] at position'
  rw [requires] at requires'
  rw [placed] at placed'
  obtain ⟨stream, place, input⟩ := p
  obtain ⟨stream', place', input'⟩ := q
  obtain rfl : input = input' := by simpa using requires'
  obtain rfl : stream = stream' := by
    cases stream <;> cases stream' <;> simp [StreamType.asIdlStr] at streamType' ⊢
  obtain rfl : place = place' := by
    cases place <;> cases place' <;> simp [StagePosition.asIdlStr] at position' ⊢
  obtain rfl : placement = other := by
    cases placement <;> cases other <;> simp at placed' ⊢
  exact ⟨rfl, rfl⟩

end StageProperties

end ExtensionSdkMongodb

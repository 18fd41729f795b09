import ExtensionSdkMongodb.MapTransform.Nodes
import ExtensionSdkMongodb.MapTransform.Runs
import ExtensionSdkMongodb.Sdk.StageProperties

/-!
# Exported transform stages

The author of a transform implements a trait with an argument type of its own. The export makes the
table of a map stage of it, whose row function parses the arguments again for every row and reports
errors by their texts (`typedTable`).

A compiled stage maps its rows by the author's function on its own argument, once the arguments
parse (`mappedRow_typedTable`). They do for every stage that the host expanded to itself
(`parses_of_expanded`).
-/

set_option autoImplicit false

namespace ExtensionSdkMongodb.MapTransform

/-! ## Exported functions -/

/-- The table that `export_map_transform_stage!` makes; its last two arguments may be left out. -/
def exportMapTransformStage (name : String) (expectEmpty : Bool)
    (transform : Document → Document → HookOutcome String Document)
    (onEof : Option (Document → HookOutcome String Document))
    (onInit : Option (HookOutcome String Unit)) : MapTable where
  transform := transform
  onEofNoRows := onEof
  name := name
  expectEmpty := expectEmpty
  onExtensionInitialized := onInit
  staticPropertiesDoc := some defaultMapStageStaticProperties
  expandFromArgsDoc := none

/-! ## The trait -/

/-- An implementation of the trait `TransformStage`, with arguments `α`. The functions without an
error result return or panic (`none`). -/
structure TransformStageImpl (α : Type) where
  name : String
  parse : Document → HookOutcome ExtensionError α
  transform : Document → α → StageContext → HookOutcome ExtensionError Document
  expand : α → Option Expansion := fun _ => some .selfStage
  properties : Option StageProperties := some StagePlan.transformStreamingDefault.properties

/-- `map_err(|e| e.to_string())`. -/
def toText {α : Type} (outcome : HookOutcome ExtensionError α) : HookOutcome String α :=
  outcome.mapError fun
    | .error e => .error e.message
    | .panic => .panic

namespace TransformStageImpl

variable {α : Type} (stage : TransformStageImpl α)

/-- `__typed_transform_row`. -/
def typedTransformRow (row args : Document) : HookOutcome String Document := do
  let parsed ← toText (stage.parse args)
  toText (stage.transform row parsed .new)

/-- `__typed_transform_static_properties`. -/
def typedTransformStaticProperties : Option Document :=
  stage.properties.map StageProperties.toDocument

/-- `__typed_transform_expand`. -/
def typedTransformExpand (args : Document) : HookOutcome String Expansion := do
  let a ← toText (stage.parse args)
  match stage.expand a with
  | none => .error .panic
  | some expansion => .ok expansion

/-- The table that `export_transform_stage_type!` makes. -/
def typedTable (expectEmpty : Bool) : MapTable where
  transform := stage.typedTransformRow
  onEofNoRows := none
  name := stage.name
  expectEmpty := expectEmpty
  onExtensionInitialized := none
  staticPropertiesDoc := stage.typedTransformStaticProperties
  expandFromArgsDoc := some stage.typedTransformExpand

/-! ## Rows of a compiled stage -/

variable (codec : BsonCodec)

/-- The author's own argument, for the argument bytes of an executable stage. -/
def argument (args : Bytes) : HookOutcome String α := do
  let d ← fallible (codec.decode args)
  toText (stage.parse d)

/-- The author's function on a row. -/
def apply (args : Bytes) (row : Document) : HookOutcome String Document := do
  let a ← stage.argument codec args
  toText (stage.transform row a .new)

variable {codec stage}

/-- The table's row function is the author's, on the parsed argument. -/
theorem mappedRow_typedTable {expectEmpty : Bool} {args : Bytes} {container : ByteContainer}
    {row : Document} (decoded : documentFromByteContainer codec container = .ok row) :
    mappedRow codec (stage.typedTable expectEmpty).toMapStageGlobals args container =
      (do
        let out ← stage.apply codec args row
        fallible (codec.encode out)) := by
  simp only [mappedRow, decoded, typedTable, typedTransformRow, apply, argument]
  cases codec.decode args with
  | error e => rfl
  | ok d => rfl

/-- A stage that the host expanded has an argument of its author's type. -/
theorem argument_of_expanded {expectEmpty : Bool} {p : ParseObj} {c : Expanded ℕ}
    (expanded :
      (parseExpand (η := ℕ) codec (stage.typedTable expectEmpty) p).1.out = some c) :
    ∃ a, stage.argument codec p.args = .ok a := by
  unfold parseExpand at expanded
  cases decoded : codec.decode p.args with
  | error e =>
      rw [parseExpand_undecoded _ _ _ _ decoded] at expanded
      cases expanded
  | ok d =>
      have argued : stage.argument codec p.args = toText (stage.parse d) := by
        simp only [argument, decoded]
        rfl
      have expands :
          (stage.typedTable expectEmpty).stage.expands d = stage.typedTransformExpand d :=
        rfl
      rw [parseExpand_eq _ _ _ _ decoded, expands] at expanded
      rw [argued]
      cases parsed : toText (stage.parse d) with
      | ok a => exact ⟨a, rfl⟩
      | error fault =>
          have failed : stage.typedTransformExpand d = .error fault := by
            simp only [typedTransformExpand, parsed]
            rfl
          rw [failed] at expanded
          cases fault with
          | panic => cases expanded
          | error e => cases expanded

end TransformStageImpl

end ExtensionSdkMongodb.MapTransform

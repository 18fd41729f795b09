import ExtensionSdkMongodb.MapTransform.Nodes
import ExtensionSdkMongodb.Sdk.Boundary

/-!
# The entries of a map stage

Every function in the vtables of a map stage, with the boundaries it sets around its callbacks
(`runEntry`). They return what the models of their functions return (`execGetNextEntry_spec`,
`parseExpandEntry_value`).

An entry guards its callbacks unless it calls one outside every boundary (`guards_runEntry_iff`),
which `ast_get_properties` alone does.
-/

set_option autoImplicit false

namespace ExtensionSdkMongodb.MapTransform

open Unwinding (callback boundary Contained contained_pure contained_callback_bind_iff
  contained_boundary_callback_bind)

/-! ## `exec_get_next` -/

section GetNext

variable (codec : BsonCodec) (mg : MapStageGlobals)

/-- The advanced branch with its boundary. -/
def advancedRowEntry (res : GetNextResult) (s : Stage) : Unwinding (Reply × Stage) := do
  let upstreamDoc := res.resultDocument
  let res := { res with resultDocument := .empty }
  let row := documentFromByteContainer codec upstreamDoc
  let heap := s.heap.releaseByteContainer upstreamDoc
  match ← boundary (callback (ffiBoundary (mapRow codec mg s.exec.args row heap))) with
  | some (.ok (raw, heap)) =>
    return (⟨statusOk, { res with resultDocument := .byteBuf (some raw) }⟩, { s with heap })
  | some (.error e) =>
    let (heap, res) := releaseOwnedMetadata heap res
    return (⟨newErrorStatus (-1) e, res⟩, { s with heap })
  | none =>
    let (heap, res) := releaseOwnedMetadata heap res
    return (⟨newErrorStatus (-1) "panic during map transform", res⟩, { s with heap })

/-- The end branch with its boundary. -/
def syntheticRowEntry (onEof : Document → HookOutcome String Document) (res : GetNextResult)
    (s : Stage) : Unwinding (Reply × Stage) := do
  match ← boundary (callback (ffiBoundary (synthesize codec onEof s.exec.args s.heap))) with
  | some (.ok (raw, heap)) =>
    let (heap, _) := releaseOwnedMetadata heap res
    return (⟨statusOk, ⟨.advanced, .byteBuf (some raw), .empty⟩⟩,
      { s with heap, exec.emittedEofSynthetic := true })
  | some (.error e) =>
    let (heap, res) := releaseOwnedMetadata s.heap res
    return (⟨newErrorStatus (-1) e, res⟩, { s with heap })
  | none =>
    let (heap, res) := releaseOwnedMetadata s.heap res
    return (⟨newErrorStatus (-1) "panic during on_eof_no_rows", res⟩, { s with heap })

/-- What the stage makes of a result of its upstream, with its boundaries. -/
def mapResultEntry (res : GetNextResult) (s : Stage) : Unwinding (Reply × Stage) :=
  match res.code with
  | .advanced => advancedRowEntry codec mg res { s with exec.sawUpstreamAdvanced := true }
  | .eof =>
    if s.exec.sawUpstreamAdvanced || s.exec.emittedEofSynthetic then return (⟨statusOk, res⟩, s)
    else
      match mg.onEofNoRows with
      | some onEof => syntheticRowEntry codec onEof res s
      | none => return (⟨statusOk, res⟩, s)
  | .pauseExecution => return (⟨statusOk, res⟩, s)

/-- `exec_get_next` with its boundaries. -/
def execGetNextEntry (s : Stage) (frame : Frame) : Unwinding (Reply × Stage) :=
  match s.exec.source with
  | none => return (⟨statusOk, .setEofEmpty⟩, s)
  | some up =>
    let pulled := { s with pulls := s.pulls + 1 }
    match up s.pulls with
    | .failure status _ written => return (⟨status, written.getD frame.result⟩, pulled)
    | .success _ _ res _ => mapResultEntry codec mg res pulled

/-- The failure of a reply's call. -/
def ReplyFails (reply : Reply × Stage) : Prop := reply.1.status.isOk = false

/-- The advanced branch returns what it returns without its boundary, and guards `transform`. -/
theorem advancedRowEntry_spec (res : GetNextResult) (s : Stage) :
    (advancedRowEntry codec mg res s).value = some (advancedRow codec mg res s) ∧
      Contained ReplyFails (advancedRowEntry codec mg res s) := by
  unfold advancedRowEntry advancedRow
  dsimp only
  refine ⟨?_, ?_⟩
  · rcases mapRow codec mg s.exec.args (documentFromByteContainer codec res.resultDocument)
      (s.heap.releaseByteContainer res.resultDocument) with (e | _) | ⟨raw, heap⟩
    · rfl
    · rfl
    · rfl
  · apply contained_boundary_callback_bind
    · intro result _
      rcases result with e | ⟨raw, heap⟩
      · exact contained_pure _
      · exact contained_pure _
    · exact ⟨_, rfl, rfl⟩

/-- The end branch returns what it returns without its boundary, and guards `on_eof`. -/
theorem syntheticRowEntry_spec (onEof : Document → HookOutcome String Document)
    (res : GetNextResult) (s : Stage) :
    (syntheticRowEntry codec onEof res s).value = some (syntheticRow codec onEof res s) ∧
      Contained ReplyFails (syntheticRowEntry codec onEof res s) := by
  unfold syntheticRowEntry syntheticRow
  refine ⟨?_, ?_⟩
  · rcases synthesize codec onEof s.exec.args s.heap with (e | _) | ⟨raw, heap⟩
    · rfl
    · rfl
    · rfl
  · apply contained_boundary_callback_bind
    · intro result _
      rcases result with e | ⟨raw, heap⟩
      · exact contained_pure _
      · exact contained_pure _
    · exact ⟨_, rfl, rfl⟩

theorem mapResultEntry_spec (res : GetNextResult) (s : Stage) :
    (mapResultEntry codec mg res s).value = some (mapResult codec mg res s) ∧
      Contained ReplyFails (mapResultEntry codec mg res s) := by
  unfold mapResultEntry mapResult
  cases res.code with
  | advanced => exact advancedRowEntry_spec codec mg res _
  | pauseExecution => exact ⟨rfl, contained_pure _⟩
  | eof =>
      simp only
      split
      · exact ⟨rfl, contained_pure _⟩
      · cases mg.onEofNoRows with
        | none => exact ⟨rfl, contained_pure _⟩
        | some onEof => exact syntheticRowEntry_spec codec onEof res s

/-- **With its boundaries `exec_get_next` returns what it returns without, and guards the
callbacks.** -/
theorem execGetNextEntry_spec (s : Stage) (frame : Frame) :
    (execGetNextEntry codec mg s frame).value = some (execGetNext codec mg s frame) ∧
      Contained ReplyFails (execGetNextEntry codec mg s frame) := by
  unfold execGetNextEntry execGetNext
  cases s.exec.source with
  | none => exact ⟨rfl, contained_pure _⟩
  | some up =>
      simp only
      cases up s.pulls with
      | failure status bad written => exact ⟨rfl, contained_pure _⟩
      | success status okay res exclusive => exact mapResultEntry_spec codec mg res _

end GetNext

/-! ## Entries of the other vtables -/

section Entries

variable (codec : BsonCodec) (table : MapTable)

/-- `ast_get_properties`. -/
def astGetProperties : Unwinding (Delivery Bytes) := do
  let doc ← callback table.staticPropertiesDoc
  return Reporting.text.writeDocument codec doc

/-- `log_compile`. -/
def logCompile (l : LogicalObj) : Delivery ExecObj := ⟨statusOk, some (execAlloc l.args)⟩

/-- `exec_explain`. -/
def execExplain : Delivery Bytes := Reporting.text.writeDocument codec []

/-- `met_serialize`. -/
def metSerialize : Delivery Bytes := Reporting.text.writeDocument codec []

/-- The closure of `ext_init`. `register` is the host's code for the stage, if it returned a
status. -/
def initExtension (register : String → Option Int32) (installed : Bool) :
    HookOutcome String Unit := do
  table.onExtensionInitialized.getD (.ok ())
  if installed then
    match register table.name with
    | none => .error (.error "null status from register_stage_descriptor")
    | some code =>
      if code = statusOkCode then .ok () else .error (.error "register_stage_descriptor failed")
  else .error (.error "extension object not installed")

/-- A call of a function in a vtable of the stage. -/
inductive Entry where
  | quiet (entry : QuietEntry)
  | descParse (stageBson : Bytes)
  | parseGetQueryShape (p : ParseObj)
  | parseExpand (p : ParseObj)
  | parseClone (p : ParseObj)
  | parseToBsonForLog (p : ParseObj)
  | astGetProperties
  | astBind (a : AstObj)
  | astClone (a : AstObj)
  | logSerialize (l : LogicalObj)
  | logExplain (l : LogicalObj)
  | logCompile (l : LogicalObj)
  | logDpl
  | logClone (l : LogicalObj)
  | execDestroy
  | execGetNext (s : Stage) (frame : Frame)
  | execExplain
  | metSerialize
  | extInit (register : String → Option Int32) (installed : Bool)

/-- The status an entry returns, with where its callbacks' panics go. -/
def runEntry : Entry → Unwinding (Option Status)
  | .quiet entry => return entry.status
  | .descParse stageBson => return some (descParse codec table stageBson).status
  | .parseGetQueryShape p => return some (parseGetQueryShape codec table p).status
  | .parseExpand p =>
    Reporting.text.deliverEntry "panic during expand"
      (Reporting.text.expandClosure (η := ℕ) codec table.stage
        (Reporting.rejectLookup "WithHostIdLookup expansion is only supported by source stages") p
        .empty).1
  | .parseClone p => return some (parseClone p).status
  | .parseToBsonForLog p => return some (parseToBsonForLog codec table p).status
  | .astGetProperties => do
    let delivery ← astGetProperties codec table
    return some delivery.status
  | .astBind a => return some (astBind a).status
  | .astClone a => return some (astClone a).status
  -- `log_explain` is `log_serialize`.
  | .logSerialize l | .logExplain l => return some (logSerialize codec table l.args).status
  | .logCompile l => return some (logCompile l).status
  | .logDpl => return some statusOk
  | .logClone l => return some (logClone l).status
  | .execDestroy => return none
  | .execGetNext s frame => do
    let reply ← execGetNextEntry codec table.toMapStageGlobals s frame
    return some reply.1.status
  | .execExplain => return some (execExplain codec).status
  | .metSerialize => return some (metSerialize codec).status
  | .extInit register installed =>
    Reporting.text.deliverEntry "panic during extension initialize"
      (initExtension table register installed)

/-- The callback an entry calls outside every boundary panics. -/
def Entry.Exposed (table : MapTable) : Entry → Prop
  | .astGetProperties => table.staticPropertiesDoc = none
  | _ => False

/-- What `parse_expand` returns. -/
theorem parseExpandEntry_value (p : ParseObj) :
    (runEntry codec table (.parseExpand p)).value =
      some (some (parseExpand (η := ℕ) codec table p).1.status) :=
  Reporting.text.deliverEntry_value _ _

/-- **An entry of a map stage guards its callbacks exactly when it is not exposed to a panic.** -/
theorem guards_runEntry_iff (entry : Entry) :
    Guards (runEntry codec table entry) ↔ ¬ entry.Exposed table := by
  cases entry with
  | astGetProperties =>
      simp only [runEntry, astGetProperties, bind_assoc, pure_bind]
      exact contained_callback_bind_iff _ _
  | execGetNext s frame =>
      refine iff_of_true ?_ id
      obtain ⟨-, contained⟩ := execGetNextEntry_spec codec table.toMapStageGlobals s frame
      apply contained.map
      intro reply failed
      exact ⟨_, rfl, failed⟩
  | parseExpand p => exact iff_of_true (Reporting.guards_deliverEntry _ _ _) id
  | extInit register installed => exact iff_of_true (Reporting.guards_deliverEntry _ _ _) id
  | _ => exact iff_of_true (guards_pure _) id

end Entries

end ExtensionSdkMongodb.MapTransform

import ExtensionSdkMongodb.Sdk.Upstream

/-!
# The executable map stage

A map stage asks its upstream once per call. It maps a row by the user's transform, and turns
the end of an upstream without rows into one row of the user's `on_eof_no_rows`. Two flags
remember whether a row was seen and whether that row was emitted.
-/

set_option autoImplicit false

namespace ExtensionSdkMongodb.MapTransform

/-! ## Globals and state -/

/-- `MapStageGlobals`, the two callbacks of `get_next`. -/
structure MapStageGlobals where
  transform : Document → Document → HookOutcome String Document
  onEofNoRows : Option (Document → HookOutcome String Document)

/-- The executable stage object. -/
structure ExecObj where
  args : Bytes
  source : Option Upstream
  sawUpstreamAdvanced : Bool
  emittedEofSynthetic : Bool

/-- `exec_alloc`. -/
def execAlloc (args : Bytes) : ExecObj where
  args := args
  source := none
  sawUpstreamAdvanced := false
  emittedEofSynthetic := false

/-- A stage with the number of answers taken from upstream and the heap. -/
structure Stage where
  exec : ExecObj
  pulls : ℕ
  heap : Heap

/-- A stage just compiled. -/
def Stage.compiled (exec : ExecObj) : Stage := ⟨exec, 0, .fresh⟩

/-- `exec_set_source`. -/
def execSetSource (s : Stage) (source : Option Upstream) : Stage := { s with exec.source := source }

/-- `exec_open`. -/
def execOpen (s : Stage) : Status × Stage := (statusOk, s)

/-- `exec_reopen`. -/
def execReopen (s : Stage) : Status × Stage := (statusOk, s)

/-- `exec_close`. -/
def execClose (s : Stage) : Status × Stage := (statusOk, s)

/-! ## Rows -/

section Rows

variable (codec : BsonCodec)

/-- `document_from_byte_container`. -/
def documentFromByteContainer : ByteContainer → Except String Document
  | .byteView bytes => decoded (bytes.getD [])
  | .byteBuf none => .error "null bytebuf in result_document"
  | .byteBuf (some buf) => decoded buf.data
where
  decoded (bytes : Bytes) : Except String Document :=
    (codec.decode bytes).mapError ("decode result_document: " ++ ·)

/-- A `Result` with a text inside a closure. -/
def fallible {α : Type} (result : Except String α) : HookOutcome String α :=
  result.mapError Fault.error

/-- The closure of the advanced branch, up to the new buffer. -/
def mapRow (mg : MapStageGlobals) (argsBytes : Bytes) (row : Except String Document) (heap : Heap) :
    HookOutcome String (ByteBuf × Heap) := do
  let row ← fallible row
  let args ← fallible (codec.decode argsBytes)
  let out ← mg.transform row args
  fallible (heap.fromBson codec out)

/-- The closure of the end branch. -/
def synthesize (onEof : Document → HookOutcome String Document) (argsBytes : Bytes) (heap : Heap) :
    HookOutcome String (ByteBuf × Heap) := do
  let args ← fallible (codec.decode argsBytes)
  let out ← onEof args
  fallible (heap.fromBson codec out)

end Rows

/-- The status of a closure's failure; `panicText` is the text for a panic. -/
def faultStatus (panicText : String) : Fault String → Status
  | .panic => newErrorStatus (-1) panicText
  | .error e => newErrorStatus (-1) e

/-- `release_owned_metadata`: destroys the metadata's buffer and clears the slot; a view stays. -/
def releaseOwnedMetadata (heap : Heap) (res : GetNextResult) : Heap × GetNextResult :=
  match res.resultMetadata with
  | .byteBuf buf =>
    (heap.releaseByteContainer (.byteBuf buf), { res with resultMetadata := .empty })
  | .byteView _ => (heap, res)

/-! ## `get_next` -/

section GetNext

variable (codec : BsonCodec) (mg : MapStageGlobals)

/-- The advanced branch. The document leaves its slot, is read and released, and then the closure
runs; a failure of the closure releases the metadata. -/
def advancedRow (res : GetNextResult) (s : Stage) : Reply × Stage :=
  let upstreamDoc := res.resultDocument
  let res := { res with resultDocument := .empty }
  let row := documentFromByteContainer codec upstreamDoc
  let heap := s.heap.releaseByteContainer upstreamDoc
  match mapRow codec mg s.exec.args row heap with
  | .ok (raw, heap) =>
    (⟨statusOk, { res with resultDocument := .byteBuf (some raw) }⟩, { s with heap })
  | .error fault =>
    let (heap, res) := releaseOwnedMetadata heap res
    (⟨faultStatus "panic during map transform" fault, res⟩, { s with heap })

/-- The end branch, for an upstream that ended without rows. -/
def syntheticRow (onEof : Document → HookOutcome String Document) (res : GetNextResult)
    (s : Stage) : Reply × Stage :=
  match synthesize codec onEof s.exec.args s.heap with
  | .ok (raw, heap) =>
    let (heap, _) := releaseOwnedMetadata heap res
    (⟨statusOk, ⟨.advanced, .byteBuf (some raw), .empty⟩⟩,
      { s with heap, exec.emittedEofSynthetic := true })
  | .error fault =>
    let (heap, res) := releaseOwnedMetadata s.heap res
    (⟨faultStatus "panic during on_eof_no_rows" fault, res⟩, { s with heap })

/-- What the stage makes of a result of its upstream. -/
def mapResult (res : GetNextResult) (s : Stage) : Reply × Stage :=
  match res.code with
  | .advanced => advancedRow codec mg res { s with exec.sawUpstreamAdvanced := true }
  | .eof =>
    if s.exec.sawUpstreamAdvanced || s.exec.emittedEofSynthetic then (⟨statusOk, res⟩, s)
    else
      match mg.onEofNoRows with
      | some onEof => syntheticRow codec onEof res s
      | none => (⟨statusOk, res⟩, s)
  | .pauseExecution => (⟨statusOk, res⟩, s)

/-- `exec_get_next`. -/
def execGetNext : Machine Stage Frame Reply :=
  fun s frame =>
    match s.exec.source with
    | none => (⟨statusOk, .setEofEmpty⟩, s)
    | some up =>
      let pulled := { s with pulls := s.pulls + 1 }
      match up s.pulls with
      | .failure status _ written => (⟨status, written.getD frame.result⟩, pulled)
      | .success _ _ res _ => mapResult codec mg res pulled

end GetNext

end ExtensionSdkMongodb.MapTransform

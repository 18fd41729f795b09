import ExtensionSdkMongodb.Sdk.Upstream

/-!
# The executable source stage

A compiled source stage starts undecided (`Mode.init`). It becomes a generator when its static
properties do not require input, when no upstream is attached, or when the upstream ends before
any row; it becomes a passthrough when the upstream hands over a row. `execGetNext` is the
stage's `get_next`. Hooks act on a world of their own, and the stage's record of their calls
(`HookCall`) is what its lifecycle is stated about.

`execGetNext_eq` says once what a call does: it finds the route of the call from the state and
the frame, and each route is one equation. Later modules argue by routes only.
-/

set_option autoImplicit false

namespace ExtensionSdkMongodb.SourceStage

/-! ## Hooks -/

/-- The state pointer of a generator; null is `none`. -/
abbrev StatePtr := Option ℕ

/-- `Next`: one row, or the end of the stream. -/
inductive Next where
  | advanced (document : Document) (metadata : Option Document)
  | eof

/-- The hooks of a source stage that its executable stage calls. They act on a world `ω`, which
holds the memory behind the state pointers and everything else a hook can read. The hooks
without an error result either return or panic (`none`). -/
structure SourceOps (ω : Type) where
  openFromDoc : Document → StageContext → ω → HookOutcome ExtensionError StatePtr × ω
  dropState : StatePtr → ω → Option Unit × ω
  next : StatePtr → StageContext → ω → HookOutcome ExtensionError Next × ω
  staticPropertiesDoc : Option Document

/-- A call of a hook, as the stage observes it. -/
inductive HookCall where
  /-- `open_from_doc` returned a pointer, or failed. -/
  | openFromDoc (returned : Option StatePtr)
  /-- `next` on a pointer; `eof` when it returned the end of the stream. -/
  | next (state : StatePtr) (eof : Bool)
  | dropState (state : StatePtr)
  deriving DecidableEq, Repr

/-- `next` returned the end of the stream. -/
def returnedEof : HookOutcome ExtensionError Next → Bool
  | .ok .eof => true
  | .ok (.advanced ..) | .error _ => false

/-! ## State -/

/-- `MODE_INIT`, `MODE_PASSTHROUGH` and `MODE_GENERATOR`. -/
inductive Mode where
  | init
  | passthrough
  | generator
  deriving DecidableEq, Repr

/-- The executable stage object. -/
structure ExecObj where
  args : Bytes
  catalog : Option CatalogContext
  source : Option Upstream
  state : StatePtr
  generatorDone : Bool
  mode : Mode
  sawUpstreamAdvanced : Bool
  metrics : Option ℕ

/-- `exec_alloc`. -/
def execAlloc (args : Bytes) (catalog : Option CatalogContext) : ExecObj where
  args := args
  catalog := catalog
  source := none
  state := none
  generatorDone := false
  mode := .init
  sawUpstreamAdvanced := false
  metrics := none

/-- A stage with what surrounds it: the hooks' world, the number of answers taken from
upstream, the hook calls so far, and the heap. -/
structure Stage (ω : Type) where
  exec : ExecObj
  hooks : ω
  pulls : ℕ
  calls : List HookCall
  heap : Heap

variable {ω : Type}

/-- A stage just compiled. -/
def Stage.compiled (exec : ExecObj) (hooks : ω) : Stage ω := ⟨exec, hooks, 0, [], .fresh⟩

def Stage.setMode (s : Stage ω) (mode : Mode) : Stage ω := { s with exec.mode := mode }

/-- The stage after its upstream answered once more. -/
def Stage.pulled (s : Stage ω) : Stage ω := { s with pulls := s.pulls + 1 }

/-- `exec_set_source`. -/
def execSetSource (s : Stage ω) (source : Option Upstream) : Stage ω :=
  { s with exec.source := source }

/-- `exec_open`. -/
def execOpen (s : Stage ω) : Status × Stage ω := (statusOk, s)

/-- `exec_reopen`. -/
def execReopen (s : Stage ω) : Status × Stage ω := (statusOk, s)

/-- `exec_close`. -/
def execClose (s : Stage ω) : Status × Stage ω := (statusOk, s)

/-! ## The generator -/

section Generate

variable (codec : BsonCodec) (ops : SourceOps ω)

/-- The call of `open_from_doc`, made only without a state. -/
def openState (argsDoc : Document) (s : Stage ω) : HookOutcome ExtensionError Unit × Stage ω :=
  match s.exec.state with
  | some _ => (.ok (), s)
  | none =>
    match ops.openFromDoc argsDoc (StageContext.new.bindCatalog s.exec.catalog) s.hooks with
    | (.error fault, hooks) =>
      (.error fault, { s with hooks, calls := s.calls ++ [.openFromDoc none] })
    | (.ok state, hooks) =>
      (.ok (),
        { s with exec.state := state, hooks, calls := s.calls ++ [.openFromDoc (some state)] })

/-- The call of `next`. -/
def callNext (queryCtx : Option ℕ) (s : Stage ω) : HookOutcome ExtensionError Next × Stage ω :=
  let sctx := (StageContext.new.bindCatalog s.exec.catalog).bindExecution queryCtx s.exec.metrics
  let answer := ops.next s.exec.state sctx s.hooks
  (answer.1,
    { s with hooks := answer.2, calls := s.calls ++ [.next s.exec.state (returnedEof answer.1)] })

/-- The part of the generator's closure that runs the hooks. -/
def runHooks (queryCtx : Option ℕ) (s : Stage ω) : HookOutcome ExtensionError Next × Stage ω :=
  match codec.decode s.exec.args with
  | .error e => (.error (.error (.failedToParse e)), s)
  | .ok argsDoc =>
    match openState ops argsDoc s with
    | (.error fault, s) => (.error fault, s)
    | (.ok (), s) => callNext ops queryCtx s

/-- The `Next::Eof` branch: the state goes before the slots are written, and a panic of
`drop_state` leaves the pointer in place. -/
def finish (s : Stage ω) : HookOutcome ExtensionError GetNextResult × Stage ω :=
  match ops.dropState s.exec.state s.hooks with
  | (none, hooks) =>
    (.error .panic, { s with hooks, calls := s.calls ++ [.dropState s.exec.state] })
  | (some (), hooks) =>
    (.ok .setEofEmpty,
      { s with
        exec.state := none
        exec.generatorDone := true
        hooks
        calls := s.calls ++ [.dropState s.exec.state] })

/-- The `Next::Advanced` branch: two encodings, then the slots. -/
def writeRow (document : Document) (metadata : Option Document) (s : Stage ω) :
    HookOutcome ExtensionError GetNextResult × Stage ω :=
  match s.heap.fromBson codec document with
  | .error e => (.error (.error (.failedToParse e)), s)
  | .ok (raw, heap) =>
    match metadata with
    | none => (.ok ⟨.advanced, .byteBuf (some raw), .empty⟩, { s with heap })
    | some metaDoc =>
      match heap.fromBson codec metaDoc with
      | .error e => (.error (.error (.failedToParse e)), { s with heap })
      | .ok (mbuf, heap) =>
        (.ok ⟨.advanced, .byteBuf (some raw), .byteBuf (some mbuf)⟩, { s with heap })

/-- The part of the closure after the hooks. -/
def deliver (outcome : HookOutcome ExtensionError Next) (s : Stage ω) :
    HookOutcome ExtensionError GetNextResult × Stage ω :=
  match outcome with
  | .error fault => (.error fault, s)
  | .ok .eof => finish ops s
  | .ok (.advanced document metadata) => writeRow codec document metadata s

/-- The closure of `exec_get_next` that generates a result. The slots are written last, so a
closure that fails leaves them as they were. -/
def generate (queryCtx : Option ℕ) (s : Stage ω) :
    HookOutcome ExtensionError GetNextResult × Stage ω :=
  let (outcome, s) := runHooks codec ops queryCtx s
  deliver codec ops outcome s

/-- The status of a closure's failure. -/
def faultStatus : Fault ExtensionError → Status
  | .panic => (ExtensionError.runtime "panic during source stage get_next").intoRawStatus
  | .error e => e.intoRawStatus

/-- The reply of a generating call: a result under the OK status, or the failure's status over
the slots as they were. -/
def closureReply (res : GetNextResult) : HookOutcome ExtensionError GetNextResult → Reply
  | .error fault => ⟨faultStatus fault, res⟩
  | .ok res => ⟨statusOk, res⟩

/-- `exec_get_next` from `MODE_GENERATOR` on, with the slots as they are then. -/
def getNextGenerator (queryCtx : Option ℕ) (res : GetNextResult) (s : Stage ω) : Reply × Stage ω :=
  if s.exec.generatorDone then (⟨statusOk, .setEofEmpty⟩, s)
  else
    let (outcome, s) := generate codec ops queryCtx s
    (closureReply res outcome, s)

end Generate

/-! ## `get_next` -/

/-- What the static properties say of `requiresInputDocSource`; `none` when the hook panics. -/
def requiresInput (ops : SourceOps ω) : Option Bool :=
  ops.staticPropertiesDoc.map fun d => (d.getBool "requiresInputDocSource").getD true

/-- The status of a panic in the properties hook. -/
def propertiesPanic : Status :=
  (ExtensionError.runtime "panic during source properties").intoRawStatus

/-- The first block of `exec_get_next`: in `MODE_INIT` the properties can make the stage a
generator. -/
def propertiesGate (ops : SourceOps ω) (s : Stage ω) : Option (Stage ω) :=
  if s.exec.mode = .init then
    (requiresInput ops).map fun required => if required then s else s.setMode .generator
  else some s

/-- `exec_get_next`. -/
def execGetNext (codec : BsonCodec) (ops : SourceOps ω) : Machine (Stage ω) Frame Reply :=
  fun s frame =>
    match propertiesGate ops s with
    | none => (⟨propertiesPanic, frame.result⟩, s)
    | some s =>
      match s.exec.mode, s.exec.source with
      | .passthrough, some up => ((up s.pulls).reply frame.result, s.pulled)
      | .init, some up =>
        match up s.pulls with
        | .failure status _ written => (⟨status, written.getD frame.result⟩, s.pulled)
        | .success _ _ res _ =>
          match res.code with
          | .advanced =>
            (⟨statusOk, res⟩,
              { s.pulled with exec.sawUpstreamAdvanced := true, exec.mode := .passthrough })
          | .eof =>
            if s.exec.sawUpstreamAdvanced then (⟨statusOk, res⟩, s.pulled)
            -- Fall through to the generator; the slots hold the upstream's end.
            else getNextGenerator codec ops frame.queryCtx res (s.pulled.setMode .generator)
          | .pauseExecution => (⟨statusOk, res⟩, s.pulled)
      | .init, none =>
        getNextGenerator codec ops frame.queryCtx frame.result (s.setMode .generator)
      -- Not a generator and nothing to forward: no slot is written.
      | .passthrough, none => (⟨statusOk, frame.result⟩, s)
      | .generator, _ => getNextGenerator codec ops frame.queryCtx frame.result s

/-- `exec_destroy`: the hooks' world and the calls once the stage is gone. -/
def execDestroy (ops : SourceOps ω) (s : Stage ω) : ω × List HookCall :=
  match s.exec.state with
  | none => (s.hooks, s.calls)
  | some ptr => ((ops.dropState (some ptr) s.hooks).2, s.calls ++ [.dropState (some ptr)])

end ExtensionSdkMongodb.SourceStage

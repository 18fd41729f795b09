import ExtensionSdkMongodb.Sdk.Boundary
import ExtensionSdkMongodb.SourceStage.Planning

/-!
# The entries of a source stage

Every function in the vtables of a source stage, with the boundaries it sets around its hooks
(`runEntry`). The entries return what the models of their functions return
(`execGetNextEntry_spec`, `parseExpandEntry_value`, `logDplEntry_value`); what is added here is
where a panic of a hook goes.

An entry guards its hooks unless it calls one outside every boundary (`guards_runEntry_iff`):
`ast_get_properties` calls the properties hook so, and `exec_destroy` drops a state so.
-/

set_option autoImplicit false

namespace ExtensionSdkMongodb.SourceStage

open DistributedPlan (Host)
open Unwinding (callback boundary Contained contained_pure contained_bind
  contained_callback_bind_iff contained_boundary_callback_bind)

variable {ω : Type}

/-! ## `exec_get_next` -/

section GetNext

variable (codec : BsonCodec) (ops : SourceOps ω)

/-- The first block of `exec_get_next` with its boundary. -/
def propertiesGateEntry (s : Stage ω) : Unwinding (Option (Stage ω)) :=
  if s.exec.mode = .init then do
    let required ← boundary (callback (requiresInput ops))
    return required.map fun required => if required then s else s.setMode .generator
  else return some s

/-- `exec_get_next` from `MODE_GENERATOR` on, with its boundary. -/
def getNextGeneratorEntry (queryCtx : Option ℕ) (res : GetNextResult) (s : Stage ω) :
    Unwinding (Reply × Stage ω) :=
  if s.exec.generatorDone then return (⟨statusOk, .setEofEmpty⟩, s)
  else do
    let last := (generate codec ops queryCtx s).2
    match ← boundary (callback (ffiBoundary (generate codec ops queryCtx s).1)) with
    | none =>
      return (⟨(ExtensionError.runtime "panic during source stage get_next").intoRawStatus, res⟩,
        last)
    | some (.error e) => return (⟨e.intoRawStatus, res⟩, last)
    | some (.ok written) => return (⟨statusOk, written⟩, last)

/-- `exec_get_next` behind its first block, with its boundary. -/
def decidedEntry (frame : Frame) (s : Stage ω) : Unwinding (Reply × Stage ω) :=
  match s.exec.mode, s.exec.source with
  | .passthrough, some up => return ((up s.pulls).reply frame.result, s.pulled)
  | .init, some up =>
    match up s.pulls with
    | .failure status _ written => return (⟨status, written.getD frame.result⟩, s.pulled)
    | .success _ _ res _ =>
      match res.code with
      | .advanced =>
        return (⟨statusOk, res⟩,
          { s.pulled with exec.sawUpstreamAdvanced := true, exec.mode := .passthrough })
      | .eof =>
        if s.exec.sawUpstreamAdvanced then return (⟨statusOk, res⟩, s.pulled)
        else getNextGeneratorEntry codec ops frame.queryCtx res (s.pulled.setMode .generator)
      | .pauseExecution => return (⟨statusOk, res⟩, s.pulled)
  | .init, none =>
    getNextGeneratorEntry codec ops frame.queryCtx frame.result (s.setMode .generator)
  | .passthrough, none => return (⟨statusOk, frame.result⟩, s)
  | .generator, _ => getNextGeneratorEntry codec ops frame.queryCtx frame.result s

/-- `exec_get_next` with its boundaries. -/
def execGetNextEntry (s : Stage ω) (frame : Frame) : Unwinding (Reply × Stage ω) := do
  match ← propertiesGateEntry ops s with
  | none => return (⟨propertiesPanic, frame.result⟩, s)
  | some s => decidedEntry codec ops frame s

/-- The failure of a reply's call. -/
def ReplyFails (reply : Reply × Stage ω) : Prop := reply.1.status.isOk = false

/-- The first block returns what it returns without its boundary, and refuses the call when the
properties hook panics. -/
theorem propertiesGateEntry_spec (s : Stage ω) :
    (propertiesGateEntry ops s).value = some (propertiesGate ops s) ∧
      ((propertiesGateEntry ops s).panicked = true → propertiesGate ops s = none) := by
  unfold propertiesGateEntry propertiesGate
  split
  · cases requiresInput ops with
    | none => exact ⟨rfl, fun _ => rfl⟩
    | some required => exact ⟨rfl, fun panicked => by cases panicked⟩
  · exact ⟨rfl, fun panicked => by cases panicked⟩

/-- A generating call returns what it returns without its boundary, and guards its hooks. -/
theorem getNextGeneratorEntry_spec (queryCtx : Option ℕ) (res : GetNextResult) (s : Stage ω) :
    (getNextGeneratorEntry codec ops queryCtx res s).value =
        some (getNextGenerator codec ops queryCtx res s) ∧
      Contained ReplyFails (getNextGeneratorEntry codec ops queryCtx res s) := by
  unfold getNextGeneratorEntry getNextGenerator
  split
  · exact ⟨rfl, contained_pure _⟩
  · refine ⟨?_, ?_⟩
    · rcases generate codec ops queryCtx s with ⟨(e | _) | written, last⟩
      · rfl
      · rfl
      · rfl
    · apply contained_boundary_callback_bind
      · intro result _
        cases result with
        | error e => exact contained_pure _
        | ok written => exact contained_pure _
      · exact ⟨_, rfl, rfl⟩

/-- What comes behind the first block, likewise. -/
theorem decidedEntry_spec {s decided : Stage ω} (gate : propertiesGate ops s = some decided)
    (frame : Frame) :
    (decidedEntry codec ops frame decided).value = some (execGetNext codec ops s frame) ∧
      Contained ReplyFails (decidedEntry codec ops frame decided) := by
  unfold decidedEntry execGetNext
  rw [gate]
  obtain ⟨⟨args, catalog, source, state, done, mode, saw, metrics⟩, hooks, pulls, calls, heap⟩ :=
    decided
  cases mode with
  | generator => exact getNextGeneratorEntry_spec codec ops _ _ _
  | passthrough => cases source <;> exact ⟨rfl, contained_pure _⟩
  | init =>
      cases source with
      | none => exact getNextGeneratorEntry_spec codec ops _ _ _
      | some up =>
          simp only
          rcases up pulls with ⟨status, okay, res, _⟩ | ⟨status, bad, written⟩
          · simp only
            cases res.code with
            | advanced => exact ⟨rfl, contained_pure _⟩
            | pauseExecution => exact ⟨rfl, contained_pure _⟩
            | eof =>
                cases saw with
                | true => exact ⟨rfl, contained_pure _⟩
                | false => exact getNextGeneratorEntry_spec codec ops _ _ _
          · exact ⟨rfl, contained_pure _⟩

/-- **With boundaries `exec_get_next` returns what it returns without, and guards its hooks.** -/
theorem execGetNextEntry_spec (s : Stage ω) (frame : Frame) :
    (execGetNextEntry codec ops s frame).value = some (execGetNext codec ops s frame) ∧
      Contained ReplyFails (execGetNextEntry codec ops s frame) := by
  obtain ⟨value, refuses⟩ := propertiesGateEntry_spec ops s
  refine ⟨?_, ?_⟩
  · unfold execGetNextEntry
    rw [Unwinding.value_bind, value, Option.bind_some]
    cases gate : propertiesGate ops s with
    | none => simp [execGetNext, gate]
    | some decided => exact (decidedEntry_spec codec ops gate frame).1
  · apply contained_bind value
    · intro _
      cases gate : propertiesGate ops s with
      | none => exact contained_pure _
      | some decided => exact (decidedEntry_spec codec ops gate frame).2
    · intro panicked
      rw [refuses panicked]
      exact ⟨_, rfl, rfl⟩

end GetNext

/-! ## Entries of the other vtables -/

section Entries

variable {η : Type} (codec : BsonCodec) (table : SourceTable ω)

/-- `ast_get_properties`. -/
def astGetProperties : Unwinding (Delivery Bytes) := do
  let doc ← callback table.staticPropertiesDoc
  return Reporting.typed.writeDocument codec doc

/-- `exec_destroy`. -/
def execDestroyEntry (ops : SourceOps ω) (s : Stage ω) : Unwinding Unit :=
  match s.exec.state with
  | none => return ()
  | some ptr => callback (ops.dropState (some ptr) s.hooks).1

/-- `exec_explain`. -/
def execExplain : Delivery Bytes := Reporting.typed.writeDocument codec []

/-- `sdk_met_serialize`, of the metrics document. -/
def sdkMetSerialize (doc : Document) : Delivery Bytes := Reporting.typed.writeDocument codec doc

/-- The loop of `ext_init` over the registered stages. `register` is the host's code for a stage
of this name, if it returned a status. -/
def initStages (register : String → Option Int32) :
    List (SourceTable ω) → HookOutcome ExtensionError Unit
  | [] => .ok ()
  | table :: tables => do
    table.onExtensionInitialized.getD (.ok ())
    match register table.name with
    | none => .error (.error (.runtime "null status from register_stage_descriptor"))
    | some code =>
      if code = statusOkCode then initStages register tables
      else .error (.error (.runtime ("register_stage_descriptor failed for " ++ table.name)))

/-- The closure of `ext_init`. -/
def initExtension (register : String → Option Int32) (installed : Option (List (SourceTable ω))) :
    HookOutcome ExtensionError Unit :=
  match installed with
  | none => .error (.error (.runtime "extension object not installed"))
  | some tables => initStages register tables

/-- A call of a function in a vtable of the stage. -/
inductive Entry (ω η : Type) where
  | quiet (entry : QuietEntry)
  | descParse (stageBson : Bytes)
  | parseGetQueryShape (p : ParseObj)
  | parseExpand (factory : Option (Bytes → FactoryReply η)) (p : ParseObj)
  | parseClone (p : ParseObj)
  | parseToBsonForLog (p : ParseObj)
  | astGetProperties
  | astBind (catalog : Option CatalogContext) (a : AstObj)
  | astClone (a : AstObj)
  | logSerialize (l : LogicalObj)
  | logExplain (l : LogicalObj)
  | logCompile (l : LogicalObj)
  | logDpl (host : Host) (l : LogicalObj)
  | logClone (l : LogicalObj)
  | execDestroy (s : Stage ω)
  | execGetNext (s : Stage ω) (frame : Frame)
  | execExplain
  | metSerialize (doc : Document)
  | extInit (register : String → Option Int32) (installed : Option (List (SourceTable ω)))

/-- The status an entry returns, with where its hooks' panics go. -/
def runEntry : Entry ω η → Unwinding (Option Status)
  | .quiet entry => return entry.status
  | .descParse stageBson => return some (descParse codec table stageBson).status
  | .parseGetQueryShape p => return some (parseGetQueryShape codec table p).status
  | .parseExpand factory p =>
    Reporting.typed.deliverEntry "panic during expand"
      (Reporting.typed.expandClosure codec table.stage (expandLookup codec factory table) p
        .empty).1
  | .parseClone p => return some (parseClone p).status
  | .parseToBsonForLog p => return some (parseToBsonForLog codec table p).status
  | .astGetProperties => do
    let delivery ← astGetProperties codec table
    return some delivery.status
  | .astBind catalog a => return some (astBind catalog a).status
  | .astClone a => return some (astClone a).status
  -- `log_explain` is `log_serialize`.
  | .logSerialize l | .logExplain l => return some (logSerialize codec table l.args).status
  | .logCompile l => return some (logCompile l).status
  | .logDpl host l =>
    Reporting.typed.deliverEntry "panic during distributed planning" (planOf codec table host l)
  | .logClone l => return some (logClone l).status
  | .execDestroy s => do
    execDestroyEntry table.toSourceOps s
    return none
  | .execGetNext s frame => do
    let reply ← execGetNextEntry codec table.toSourceOps s frame
    return some reply.1.status
  | .execExplain => return some (execExplain codec).status
  | .metSerialize doc => return some (sdkMetSerialize codec doc).status
  | .extInit register installed =>
    Reporting.typed.deliverEntry "panic during extension initialize"
      (initExtension register installed)

/-- The hook an entry calls outside every boundary panics. -/
def Entry.Exposed (table : SourceTable ω) : Entry ω η → Prop
  | .astGetProperties => table.staticPropertiesDoc = none
  | .execDestroy s => s.exec.state ≠ none ∧ (table.dropState s.exec.state s.hooks).1 = none
  | _ => False

/-- What `parse_expand` returns. -/
theorem parseExpandEntry_value (factory : Option (Bytes → FactoryReply η)) (p : ParseObj) :
    (runEntry codec table (.parseExpand factory p)).value =
      some (some (parseExpand codec factory table p).1.status) :=
  Reporting.typed.deliverEntry_value _ _

/-- What `log_dpl` returns. -/
theorem logDplEntry_value (host : Host) (l : LogicalObj) :
    (runEntry (η := η) codec table (.logDpl host l)).value =
      some (some (logDpl codec table host l).status) :=
  Reporting.typed.deliverEntry_value _ _

/-- **An entry of a source stage guards its hooks exactly when it is not exposed to a panic.** -/
theorem guards_runEntry_iff (entry : Entry ω η) :
    Guards (runEntry codec table entry) ↔ ¬ entry.Exposed table := by
  cases entry with
  | astGetProperties =>
      simp only [runEntry, astGetProperties, bind_assoc, pure_bind]
      exact contained_callback_bind_iff _ _
  | execDestroy s =>
      simp only [runEntry, execDestroyEntry, Entry.Exposed]
      cases state : s.exec.state with
      | none => exact iff_of_true (guards_pure _) (by simp)
      | some ptr =>
          simp only [ne_eq, reduceCtorEq, not_false_eq_true, true_and]
          exact contained_callback_bind_iff _ _
  | execGetNext s frame =>
      refine iff_of_true ?_ id
      obtain ⟨-, contained⟩ := execGetNextEntry_spec codec table.toSourceOps s frame
      apply contained.map
      intro reply failed
      exact ⟨_, rfl, failed⟩
  | parseExpand factory p => exact iff_of_true (Reporting.guards_deliverEntry _ _ _) id
  | logDpl host l => exact iff_of_true (Reporting.guards_deliverEntry _ _ _) id
  | extInit register installed => exact iff_of_true (Reporting.guards_deliverEntry _ _ _) id
  | _ => exact iff_of_true (guards_pure _) id

end Entries

end ExtensionSdkMongodb.SourceStage

import ExtensionSdkMongodb.Library.Unwinding
import ExtensionSdkMongodb.Sdk.Nodes

/-!
# Entries of the extension

The functions in the vtables are the extension's entries. The host calls them and cannot take a
panic, so a hook has to be called inside `ffi_boundary`, and a panic it catches has to become an
error status (`Guards`). The closures of the extension call their hooks directly, so a closure that
returns had no panic.
-/

set_option autoImplicit false

namespace ExtensionSdkMongodb

open Unwinding (callback boundary Contained contained_pure contained_boundary_callback_bind)

/-- The status an entry returns, if its type has one, is an error. -/
def ReportsError (status : Option Status) : Prop := ∃ st, status = some st ∧ st.isOk = false

/-- An entry lets no panic out, and reports an error if a hook panicked in it. -/
def Guards (entry : Unwinding (Option Status)) : Prop := Contained ReportsError entry

theorem guards_pure (status : Option Status) : Guards (pure status) := contained_pure status

/-! ## Entries without hooks -/

/-- The entries of a stage that only hand out what is fixed, or take something and do nothing with
it. The three functions of the logical stage that return a null buffer are one. -/
inductive QuietEntry where
  | descGetName
  | descGetClientType
  | parseDestroy
  | parseGetName
  | astExtDestroy
  | astGetName
  | astViewPolicy
  | astBindView
  | logDestroy
  | logGetName
  | logVecLimit
  | logRewritePrecondition
  | logRewriteTransform
  | logNullByteBuf
  | logApplySuffixDeps
  | logSkipStream
  | execGetName
  | execCreateMetrics
  | execSetSource
  | execOpen
  | execReopen
  | execClose
  | metDestroy
  | metUpdate
  deriving DecidableEq, Repr

/-- What these entries return; names, a client type and nothing at all are no statuses. -/
def QuietEntry.status : QuietEntry → Option Status
  | .descGetName | .descGetClientType | .parseDestroy | .parseGetName | .astExtDestroy
  | .astGetName | .logDestroy | .logGetName | .execGetName | .metDestroy => none
  | .astViewPolicy | .astBindView | .logVecLimit | .logRewritePrecondition | .logRewriteTransform
  | .logNullByteBuf | .logApplySuffixDeps | .logSkipStream | .execCreateMetrics | .execSetSource
  | .execOpen | .execReopen | .execClose | .metUpdate => some statusOk

/-! ## Entries around one boundary -/

namespace Reporting

variable {ε α : Type} (r : Reporting ε)

/-- A document for an output buffer. -/
def writeDocument (codec : BsonCodec) (d : Document) : Delivery Bytes :=
  match codec.encode d with
  | .error e => ⟨r.status (r.failedToParse e), none⟩
  | .ok bytes => ⟨statusOk, some bytes⟩

/-- An entry that runs a closure under `ffi_boundary` and returns the status of its result. -/
def deliverEntry (panicText : String) (closure : HookOutcome ε α) : Unwinding (Option Status) := do
  match ← boundary (callback (ffiBoundary closure)) with
  | none => return some (r.status (r.shared (.runtime panicText)))
  | some (.error e) => return some (r.status e)
  | some (.ok _) => return some statusOk

/-- The entry returns what is delivered of the closure. -/
theorem deliverEntry_value (panicText : String) (closure : HookOutcome ε α) :
    (r.deliverEntry panicText closure).value =
      some (some (r.deliver panicText closure).status) := by
  rcases closure with (e | _) | a
  · rfl
  · rfl
  · rfl

/-- **An entry around one boundary guards its hooks.** -/
theorem guards_deliverEntry (panicText : String) (closure : HookOutcome ε α) :
    Guards (r.deliverEntry panicText closure) := by
  apply contained_boundary_callback_bind
  · intro result _
    cases result with
    | error e => exact contained_pure _
    | ok a => exact contained_pure _
  · exact ⟨_, rfl, _, rfl, r.runtime_fails panicText⟩

end Reporting

end ExtensionSdkMongodb

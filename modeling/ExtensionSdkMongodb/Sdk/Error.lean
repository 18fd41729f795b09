import Mathlib.Data.List.Basic

/-!
# Statuses, extension errors and caught panics

A status carries a code and a reason, and code `0` is success. Stage logic fails with an
`ExtensionError`, which becomes a status at the boundary. User hooks can also panic, so an
outcome of a hook is a value or a `Fault`, and `ffiBoundary` keeps the panics inside.
-/

set_option autoImplicit false

namespace ExtensionSdkMongodb

/-! ## Statuses -/

/-- `MONGO_EXTENSION_STATUS_OK`. -/
def statusOkCode : Int32 := 0

/-- `MONGO_EXTENSION_STATUS_RUNTIME_ERROR`. -/
def statusRuntimeError : Int32 := -1

/-- A `MongoExtensionStatus` object as its reader sees it. -/
structure Status where
  code : Int32
  reason : String
  deriving DecidableEq, Repr

/-- `status_ok`: the shared OK status. -/
def statusOk : Status := ⟨statusOkCode, ""⟩

/-- `reason_cstring`: NUL becomes the replacement character. -/
def reasonCstring (reason : String) : String :=
  reason.map fun c => if c = Char.ofNat 0 then Char.ofNat 0xFFFD else c

/-- `new_error_status`. -/
def newErrorStatus (code : Int32) (reason : String) : Status := ⟨code, reasonCstring reason⟩

def Status.isOk (st : Status) : Bool := st.code == statusOkCode

@[simp] theorem statusOk_isOk : statusOk.isOk = true := by decide

@[simp] theorem newErrorStatus_isOk (code : Int32) (reason : String) :
    (newErrorStatus code reason).isOk = (code == statusOkCode) := rfl

@[simp] theorem statusRuntimeError_ne_ok : (statusRuntimeError == statusOkCode) = false := by
  decide

/-! ## Extension errors -/

/-- Errors of stage logic and of BSON parsing. -/
inductive ExtensionError where
  | badValue (message : String)
  | failedToParse (message : String)
  | runtime (message : String)
  /-- An error of the host. The code is non-zero for failures. -/
  | hostError (code : Int32) (reason : String)
  deriving DecidableEq, Repr

namespace ExtensionError

/-- `status_code`. -/
def statusCode : ExtensionError → Int32
  | .hostError code _ => code
  | .badValue _ | .failedToParse _ | .runtime _ => statusRuntimeError

/-- `status_reason`. -/
def statusReason : ExtensionError → String
  | .badValue s => "bad value: " ++ s
  | .failedToParse s => "failed to parse: " ++ s
  | .runtime s => s
  | .hostError _ reason => reason

/-- The `Display` text. -/
def message : ExtensionError → String
  | .badValue s | .failedToParse s | .runtime s => s
  | .hostError _ reason => reason

/-- `into_raw_status`. -/
def intoRawStatus (e : ExtensionError) : Status := newErrorStatus e.statusCode e.statusReason

/-- Only a host error whose own code is `0` becomes a status that reads as success. -/
theorem intoRawStatus_isOk (e : ExtensionError) :
    e.intoRawStatus.isOk = true ↔ ∃ reason, e = .hostError statusOkCode reason := by
  cases e with
  | hostError code reason => simp [intoRawStatus, statusCode]
  | badValue s => simp [intoRawStatus, statusCode]
  | failedToParse s => simp [intoRawStatus, statusCode]
  | runtime s => simp [intoRawStatus, statusCode]

end ExtensionError

/-! ## Hooks and the boundary -/

/-- The two ways a hook does not return a value: an error, or an unwinding panic. -/
inductive Fault (ε : Type) where
  | error (e : ε)
  | panic
  deriving DecidableEq, Repr

/-- What a call of a user hook does. -/
abbrev HookOutcome (ε α : Type) := Except (Fault ε) α

/-- A sequence of checks succeeds when each one does. -/
theorem bind_ok {ε α β : Type} {x : Except ε α} {f : α → Except ε β} {b : β} :
    x >>= f = .ok b ↔ ∃ a, x = .ok a ∧ f a = .ok b := by
  cases x with
  | error e => simp [bind, Except.bind]
  | ok a => simp [bind, Except.bind]

/-- What succeeds with another error text succeeds with this one. -/
theorem mapError_ok {ε δ α : Type} {x : Except ε α} {f : ε → δ} {a : α} :
    x.mapError f = .ok a ↔ x = .ok a := by
  cases x with
  | error e => simp [Except.mapError]
  | ok b => simp [Except.mapError]

/-- `ffi_boundary`: a panic becomes `none`. -/
def ffiBoundary {ε α : Type} : HookOutcome ε α → Option (Except ε α)
  | .ok a => some (.ok a)
  | .error (.error e) => some (.error e)
  | .error .panic => none

end ExtensionSdkMongodb

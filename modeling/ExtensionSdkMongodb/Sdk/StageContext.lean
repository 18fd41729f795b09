import ExtensionSdkMongodb.Sdk.ByteContainer
import ExtensionSdkMongodb.Sdk.ExtensionLog
import ExtensionSdkMongodb.Sdk.OperationMetrics

/-!
# The context of stage hooks

What a hook sees of the host: the catalog captured at bind, and during `get_next` the query
execution context and the metrics. The host objects are known by their pointers only.

Through its context a hook counts in the metrics document that it has a handle of, and logs
messages. What it counts under a key is a number again when it is read (`counter_inc`).
-/

set_option autoImplicit false

namespace ExtensionSdkMongodb

/-- Collection metadata captured while binding a stage. -/
structure CatalogContext where
  databaseName : String
  collectionName : String
  uuid : Option String
  inRouter : Bool
  verbosity : UInt32
  deriving DecidableEq, Repr

/-- The context passed to the hooks of a stage. -/
structure StageContext where
  queryCtx : Option ℕ
  metrics : Option ℕ
  catalog : Option CatalogContext
  deriving DecidableEq, Repr

namespace StageContext

/-- `StageContext::new`. -/
def new : StageContext := ⟨none, none, none⟩

/-- `bind_catalog`. -/
def bindCatalog (ctx : StageContext) (catalog : Option CatalogContext) : StageContext :=
  { ctx with catalog }

/-- `bind_execution`. -/
def bindExecution (ctx : StageContext) (queryCtx metrics : Option ℕ) : StageContext :=
  { ctx with queryCtx, metrics }

end StageContext

/-- The arguments of one `get_next` call: the execution context and the caller's slots. The
slots hold no buffer of their own when the call begins. -/
structure Frame where
  queryCtx : Option ℕ
  result : GetNextResult
  vacant : result.owned = 0

/-- A frame with empty slots. -/
def Frame.blank : Frame := ⟨none, .setEofEmpty, rfl⟩

/-! ## What hooks reach -/

/-- The metrics documents of the process, by their handles, and the log calls so far. -/
structure Services where
  metrics : ℕ → Document
  logged : List LogCall

namespace Services

/-- A process before any stage ran. -/
def start : Services := ⟨fun _ => [], []⟩

/-- `metrics().inc`. Without a handle nothing is counted. -/
def inc (services : Services) (ctx : StageContext) (key : String) (delta : Int64) : Services :=
  match ctx.metrics with
  | none => services
  | some handle =>
    let shared : SharedMetrics := ⟨services.metrics handle, true⟩
    { services with metrics := Function.update services.metrics handle (shared.inc key delta).doc }

/-- The log calls of a context. -/
def log (services : Services) (call : LogCall) : Services :=
  { services with logged := services.logged ++ [call] }

/-- What is counted under a key. -/
def counter (services : Services) (handle : ℕ) (key : String) : ℤ :=
  ((((services.metrics handle).get key).bind Bson.asI64).getD 0).toInt

@[simp] theorem counter_start (handle : ℕ) (key : String) : start.counter handle key = 0 := rfl

@[simp] theorem counter_log (services : Services) (call : LogCall) (handle : ℕ) (key : String) :
    (services.log call).counter handle key = services.counter handle key := rfl

@[simp] theorem inc_of_unbound {ctx : StageContext} (unbound : ctx.metrics = none)
    (services : Services) (key : String) (delta : Int64) :
    services.inc ctx key delta = services := by
  simp [inc, unbound]

/-- Counting moves one counter, and keeps it in the range of an `i64`. -/
theorem counter_inc {ctx : StageContext} {handle : ℕ} (bound : ctx.metrics = some handle)
    (services : Services) (key : String) (delta : Int64) (other : String) :
    (services.inc ctx key delta).counter handle other =
      if other = key then clamp (services.counter handle key + delta.toInt)
      else services.counter handle other := by
  simp only [inc, bound, counter, SharedMetrics.inc, if_true, Function.update_self,
    Document.get_insert]
  split
  · simp only [Option.bind_some, Bson.asI64, Option.getD_some, saturatingAdd_toInt]
  · rfl

end Services

end ExtensionSdkMongodb

import ExtensionSdkMongodb.Data.Utf8
import Mathlib.Data.List.Sublists

/-!
# Logging through the host

A stage logs messages with a severity, and debug messages with a level. The host's logger is asked
first whether it wants a message; one parameter carries the severity or the level, as the type of
the message says.

For a debug message the question carries the number of a severity instead of the level. So the host
gets the messages it wants if and only if it wants the same of all their levels as of that number
(`logs_delivered_iff`).
-/

set_option autoImplicit false

namespace ExtensionSdkMongodb

/-! ## Messages -/

/-- `MongoExtensionLogSeverity`. -/
inductive LogSeverity where
  | error
  | warning
  | info
  deriving DecidableEq, Repr

/-- `MongoExtensionLogType`. -/
inductive LogType where
  | log
  | debug
  deriving DecidableEq, Repr

/-- The number of a severity. -/
def LogSeverity.number : LogSeverity → UInt32
  | .error => 0
  | .warning => 1
  | .info => 2

/-- The union in a message. -/
inductive SeverityOrLevel where
  | severity (severity : LogSeverity)
  | level (level : Int32)
  deriving DecidableEq, Repr

/-- `MongoExtensionLogMessage`. -/
structure LogMessage where
  code : UInt32
  message : Bytes
  type : LogType
  attributes : List (Bytes × Bytes)
  severityOrLevel : SeverityOrLevel
  deriving DecidableEq, Repr

/-- The logger of the host: what `should_log` writes for a severity or level by its number, if it
writes. -/
structure HostLogger where
  shouldLog : (levelOrSeverity : UInt32) → LogType → Option Bool

/-! ## Log calls -/

/-- `log_with`: the message that `log` of the host receives. There may be no host services, and they
may have no logger. -/
def logWith (services : Option (Option HostLogger)) (severity : LogSeverity) (typ : LogType)
    (debugLevel : Int32) (message : String) : Option LogMessage :=
  match services with
  | none => none
  | some none => none
  | some (some logger) =>
    let allow := (logger.shouldLog severity.number typ).getD true
    if allow then
      some {
        code := 0
        message := asBytes message
        type := typ
        attributes := []
        severityOrLevel :=
          match typ with
          | .debug => .level debugLevel
          | .log => .severity severity }
    else none

/-- A log call of `StageContext`. -/
inductive LogCall where
  | info (message : String)
  | warn (message : String)
  | error (message : String)
  | debug (level : Int32) (message : String)
  deriving DecidableEq, Repr

/-- `log_info`, `log_warn`, `log_error` and `log_debug`. -/
def LogCall.run (services : Option (Option HostLogger)) : LogCall → Option LogMessage
  | .info message => logWith services .info .log 0 message
  | .warn message => logWith services .warning .log 0 message
  | .error message => logWith services .error .log 0 message
  | .debug level message => logWith services .info .debug level message

/-- The messages that the host receives from calls. -/
def delivered (services : Option (Option HostLogger)) (calls : List LogCall) : List LogMessage :=
  calls.filterMap (LogCall.run services)

/-! ## What the host wants -/

/-- The severities and the debug levels that a host admits. -/
structure Verbosity where
  severity : LogSeverity → Bool
  level : Int32 → Bool

/-- The severity of a number. -/
def severityOf (number : UInt32) : LogSeverity :=
  if number = 0 then .error else if number = 1 then .warning else .info

/-- The logger of a host with this verbosity. -/
def Verbosity.logger (v : Verbosity) : HostLogger where
  shouldLog levelOrSeverity typ :=
    match typ with
    | .log => some (v.severity (severityOf levelOrSeverity))
    | .debug => some (v.level levelOrSeverity.toInt32)

namespace LogCall

/-- The severity or level of a call. -/
def own : LogCall → SeverityOrLevel
  | .info _ => .severity .info
  | .warn _ => .severity .warning
  | .error _ => .severity .error
  | .debug level _ => .level level

def text : LogCall → String
  | .info message | .warn message | .error message | .debug _ message => message

/-- The message of a call, with its own type and severity or level. -/
def message (call : LogCall) : LogMessage where
  code := 0
  message := asBytes call.text
  type :=
    match call.own with
    | .severity _ => .log
    | .level _ => .debug
  attributes := []
  severityOrLevel := call.own

/-- The host admits the call's own severity or level. -/
def admitted (v : Verbosity) (call : LogCall) : Bool :=
  match call.own with
  | .severity severity => v.severity severity
  | .level level => v.level level

end LogCall

/-- The messages that a host should receive. -/
def wanted (v : Verbosity) (calls : List LogCall) : List LogMessage :=
  (calls.filter (LogCall.admitted v)).map LogCall.message

/-- The level whose number a debug call asks about. -/
def askedLevel : Int32 := 2

/-- The answer that decides on a call. -/
def LogCall.gate (v : Verbosity) (call : LogCall) : Bool :=
  match call.own with
  | .severity severity => v.severity severity
  | .level _ => v.level askedLevel

theorem run_eq (v : Verbosity) (call : LogCall) :
    call.run (some (some v.logger)) = if call.gate v then some call.message else none := by
  cases call <;> rfl

theorem delivered_eq (v : Verbosity) (calls : List LogCall) :
    delivered (some (some v.logger)) calls =
      (calls.filter (LogCall.gate v)).map LogCall.message := by
  induction calls with
  | nil => rfl
  | cons call calls ih =>
      rw [delivered, List.filterMap_cons, run_eq, List.filter_cons, ← delivered, ih]
      split <;> split <;> simp_all

/-- A list filtered twice gives the same exactly if the weaker filter lets nothing more through. -/
theorem map_filter_eq_iff {α β : Type} {f : α → β} {p q : α → Bool}
    (weaker : ∀ a, p a = true → q a = true) (l : List α) :
    (l.filter p).map f = (l.filter q).map f ↔ ∀ a ∈ l, q a = true → p a = true := by
  constructor
  · intro same a member passes
    have sublist : (l.filter p).Sublist (l.filter q) := List.monotone_filter_right l weaker
    have lengths : (l.filter p).length = (l.filter q).length := by
      simpa using congrArg List.length same
    have lists := sublist.eq_of_length lengths
    have inside : a ∈ l.filter p := lists ▸ List.mem_filter.mpr ⟨member, passes⟩
    exact (List.mem_filter.mp inside).2
  · intro back
    have lists : l.filter p = l.filter q :=
      List.filter_congr fun a member => Bool.eq_iff_iff.mpr ⟨weaker a, back a member⟩
    rw [lists]

theorem gate_of_admitted {v : Verbosity} (asked : v.level askedLevel = true) (call : LogCall)
    (admitted : call.admitted v = true) : call.gate v = true := by
  cases call with
  | debug level message => exact asked
  | _ => exact admitted

theorem admitted_of_gate {v : Verbosity} (asked : v.level askedLevel = false) (call : LogCall)
    (passes : call.gate v = true) : call.admitted v = true := by
  cases call with
  | debug level message =>
      rw [LogCall.gate, LogCall.own, asked] at passes
      cases passes
  | _ => exact passes

/-- Calls are judged by their own level exactly if their levels are admitted as the asked one. -/
theorem gate_iff_admitted {v : Verbosity} {calls : List LogCall} :
    (∀ call ∈ calls, (call.gate v = true ↔ call.admitted v = true)) ↔
      ∀ level message, LogCall.debug level message ∈ calls →
        v.level level = v.level askedLevel := by
  constructor
  · intro same level message member
    exact (Bool.eq_iff_iff.mpr (same _ member)).symm
  · intro levels call member
    cases call with
    | debug level message =>
        rw [LogCall.gate, LogCall.admitted, LogCall.own]
        simp only [levels level message member]
    | _ => exact Iff.rfl

/-- **The host receives the messages that it wants if and only if it admits the level of every debug
call exactly as it admits the level that debug calls ask about.** Without services or a logger it
receives nothing. -/
theorem logs_delivered_iff (v : Verbosity) (calls : List LogCall) :
    delivered none calls = [] ∧ delivered (some none) calls = [] ∧
      (delivered (some (some v.logger)) calls = wanted v calls ↔
        ∀ level message, LogCall.debug level message ∈ calls →
          v.level level = v.level askedLevel) := by
  have nothing : ∀ services, (services = none ∨ services = some none) →
      delivered services calls = [] := by
    intro services absent
    refine List.filterMap_eq_nil_iff.mpr fun call _ => ?_
    rcases absent with rfl | rfl <;> cases call <;> rfl
  refine ⟨nothing none (.inl rfl), nothing (some none) (.inr rfl), ?_⟩
  rw [delivered_eq, wanted, ← gate_iff_admitted]
  cases asked : v.level askedLevel with
  | true =>
      rw [eq_comm, map_filter_eq_iff (gate_of_admitted asked)]
      exact forall₂_congr fun call _ => ⟨fun back => ⟨back, gate_of_admitted asked call⟩, Iff.mp⟩
  | false =>
      rw [map_filter_eq_iff (admitted_of_gate asked)]
      exact forall₂_congr fun call _ => ⟨fun back => ⟨admitted_of_gate asked call, back⟩, Iff.mpr⟩

/-- A host that admits debug messages up to level `1` does not receive one of this level. -/
theorem debug_message_lost :
    let v : Verbosity := ⟨fun _ => true, fun level => level ≤ 1⟩
    wanted v [.debug 1 "scan"] = [LogCall.message (.debug 1 "scan")] ∧
      delivered (some (some v.logger)) [.debug 1 "scan"] = [] ∧
      ¬ ∀ calls, delivered (some (some v.logger)) calls = wanted v calls := by
  intro v
  have message : wanted v [.debug 1 "scan"] = [LogCall.message (.debug 1 "scan")] := by decide
  have none : delivered (some (some v.logger)) [.debug 1 "scan"] = [] := by decide
  refine ⟨message, none, fun every => ?_⟩
  have same := every [.debug 1 "scan"]
  rw [message, none] at same
  cases same

end ExtensionSdkMongodb

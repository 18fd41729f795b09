import ExtensionSdkMongodb.Data.Utf8
import ExtensionSdkMongodb.Library.Machine
import ExtensionSdkMongodb.Sdk.Error

/-!
# Status objects

The statuses that cross the boundary are objects with a vtable: error statuses on the heap, and one
shared OK status. The calls through the vtables are the inputs of a machine, and an expectation of
what every object reads moves along with it.

`status_objects_keep_iff` says that the objects read as expected, and that clones are made as
expected, as long as nobody clones the OK status.
-/

set_option autoImplicit false

namespace ExtensionSdkMongodb

/-! ## Error statuses -/

/-- `CString`. -/
structure CString where
  bytes : Bytes
  noNul : 0 ∉ bytes

theorem nul_notMem_reasonCstring (reason : String) : '\x00' ∉ (reasonCstring reason).toList := by
  rw [reasonCstring, String.toList_map, List.mem_map]
  rintro ⟨c, _, same⟩
  split at same
  · cases same
  · next other => exact other same

/-- The `CString` of `reason_cstring`. -/
def CString.ofReason (reason : String) : CString where
  bytes := asBytes (reasonCstring reason)
  noNul := zero_notMem_asBytes (nul_notMem_reasonCstring reason)

/-- The text of a byte view, or another text when the view is null or empty. -/
def viewText (otherwise : String) (view : Option Bytes) : String :=
  match view.filter (· ≠ []) with
  | none => otherwise
  | some bytes => fromUtf8Lossy bytes

theorem viewText_eq (otherwise : String) (view : Option Bytes) :
    viewText otherwise view =
      if fromUtf8Lossy (view.getD []) = "" then otherwise else fromUtf8Lossy (view.getD []) := by
  simp only [fromUtf8Lossy_eq_empty_iff]
  rcases view with _ | _ | ⟨b, bytes⟩
  · rfl
  · rfl
  · rfl

theorem viewText_empty (view : Option Bytes) : viewText "" view = fromUtf8Lossy (view.getD []) := by
  rw [viewText_eq]
  split
  · next empty => exact empty.symm
  · rfl

/-- `OwnedErrorStatus`. -/
structure OwnedErrorStatus where
  code : Int32
  reason : CString

namespace OwnedErrorStatus

/-- The object of `new_error_status`. -/
def new (code : Int32) (reason : String) : OwnedErrorStatus := ⟨code, .ofReason reason⟩

/-- `err_set_code`. -/
def setCode (st : OwnedErrorStatus) (code : Int32) : OwnedErrorStatus := { st with code }

/-- `err_set_reason`; the view of the new reason can be null. -/
def setReason (st : OwnedErrorStatus) (reason : Option Bytes) : OwnedErrorStatus :=
  { st with reason := .ofReason (viewText "" reason) }

/-- The object that `err_clone` writes. -/
def clone (st : OwnedErrorStatus) : OwnedErrorStatus := new st.code (fromUtf8Lossy st.reason.bytes)

/-- What `err_get_code` and `err_get_reason` give, the bytes read as text. -/
def read (st : OwnedErrorStatus) : Status := ⟨st.code, fromUtf8Lossy st.reason.bytes⟩

end OwnedErrorStatus

/-! ## Objects and calls -/

/-- A pointer to a status: the shared OK status, or an error status. -/
inductive StatusRef where
  | ok
  | error (n : ℕ)
  deriving DecidableEq, Repr

/-- The error statuses that were created, without those that were destroyed. -/
structure StatusHeap where
  objects : List (Option OwnedErrorStatus)

/-- A call of `new_error_status` or through a vtable. -/
inductive StatusCall where
  | new (code : Int32) (reason : String)
  | setCode (target : StatusRef) (code : Int32)
  | setReason (target : StatusRef) (reason : Option Bytes)
  | clone (target : StatusRef)
  | destroy (target : StatusRef)
  deriving DecidableEq

/-- The pointer that a call returns, and the one it writes; null pointers are `none`. -/
structure CallReply where
  returned : Option StatusRef
  written : Option StatusRef
  deriving DecidableEq, Repr

namespace CallReply

def void : CallReply := ⟨none, none⟩

def status : CallReply := ⟨some .ok, none⟩

end CallReply

namespace StatusHeap

def get (h : StatusHeap) (n : ℕ) : Option OwnedErrorStatus := h.objects[n]?.join

def alloc (h : StatusHeap) (st : OwnedErrorStatus) : StatusHeap := ⟨h.objects ++ [some st]⟩

def modify (h : StatusHeap) (n : ℕ) (f : OwnedErrorStatus → OwnedErrorStatus) : StatusHeap :=
  ⟨h.objects.modify n (Option.map f)⟩

def drop (h : StatusHeap) (n : ℕ) : StatusHeap := ⟨h.objects.set n none⟩

/-- What a status reads: `ok_get_code` and `ok_get_reason`, or those of an error status. -/
def read (h : StatusHeap) : StatusRef → Option Status
  | .ok => some ⟨statusOkCode, ""⟩
  | .error n => (h.get n).map OwnedErrorStatus.read

end StatusHeap

/-- `new_error_status` and the two vtables. A call on an object that is gone is undefined, and here
does nothing. -/
def statusMachine : Machine StatusHeap StatusCall CallReply :=
  fun h call =>
    match call with
    | .new code reason =>
      (⟨some (.error h.objects.length), none⟩, h.alloc (.new code reason))
    | .setCode .ok _ => (.void, h)
    | .setCode (.error n) code => (.void, h.modify n fun st => st.setCode code)
    | .setReason .ok _ => (.status, h)
    | .setReason (.error n) reason => (.status, h.modify n fun st => st.setReason reason)
    | .clone .ok => (.void, h)
    | .clone (.error n) =>
      match h.get n with
      | none => (.void, h)
      | some st => (⟨some .ok, some (.error h.objects.length)⟩, h.alloc st.clone)
    | .destroy .ok => (.void, h)
    | .destroy (.error n) => (.void, h.drop n)

/-- The call is on an object that exists. -/
def Live (h : StatusHeap) : StatusCall → Prop
  | .new _ _ => True
  | .setCode target _ | .setReason target _ | .clone target | .destroy target =>
    (h.read target).isSome

/-! ## What the objects should read -/

/-- The status with a new reason: lossily read, its NULs replaced. -/
def Status.withReason (st : Status) (reason : Option Bytes) : Status :=
  { st with reason := reasonCstring (fromUtf8Lossy (reason.getD [])) }

/-- What the error statuses should read, in the order of their creation. -/
abbrev Readings := List (Option Status)

namespace Readings

/-- What a status should read; the OK status reads code `0`. -/
def of (readings : Readings) : StatusRef → Option Status
  | .ok => some statusOk
  | .error n => readings[n]?.join

/-- What a call should change. A clone is a new object, of the OK status as of any other. -/
def expect (readings : Readings) : StatusCall → Readings
  | .new code reason => readings ++ [some (newErrorStatus code reason)]
  | .setCode (.error n) code => readings.modify n (Option.map fun st => { st with code })
  | .setReason (.error n) reason =>
    readings.modify n (Option.map fun st => st.withReason reason)
  | .clone target => readings ++ [readings.of target]
  | .destroy (.error n) => readings.set n none
  | .setCode .ok _ | .setReason .ok _ | .destroy .ok => readings

end Readings

/-- What the error statuses read. -/
def StatusHeap.readings (h : StatusHeap) : Readings :=
  h.objects.map (Option.map OwnedErrorStatus.read)

/-- A call does what it should: the statuses read as expected, the OK status code `0`, and a clone
is a new status written under an OK result. -/
structure Keeps (h : StatusHeap) (readings : Readings) (call : StatusCall) : Prop where
  readings_ : (statusMachine h call).2.readings = readings.expect call
  okCode : (statusMachine h call).2.read .ok = some statusOk
  cloned : ∀ target, call = .clone target →
    (statusMachine h call).1 = ⟨some .ok, some (.error readings.length)⟩

/-! ### Single objects -/

theorem reasonCstring_of_noNul {reason : String} (noNul : '\x00' ∉ reason.toList) :
    reasonCstring reason = reason := by
  rw [← String.toList_inj, reasonCstring, String.toList_map]
  have same : ∀ c ∈ reason.toList,
      (if c = Char.ofNat 0 then Char.ofNat 0xFFFD else c) = id c := by
    intro c member
    refine if_neg ?_
    rintro rfl
    exact noNul member
  rw [List.map_congr_left same, List.map_id]

namespace OwnedErrorStatus

@[simp] theorem read_new (code : Int32) (reason : String) :
    (new code reason).read = newErrorStatus code reason := by
  simp [new, read, CString.ofReason, newErrorStatus]

@[simp] theorem read_setCode (st : OwnedErrorStatus) (code : Int32) :
    (st.setCode code).read = { st.read with code } := rfl

@[simp] theorem read_setReason (st : OwnedErrorStatus) (reason : Option Bytes) :
    (st.setReason reason).read = st.read.withReason reason := by
  simp [setReason, read, Status.withReason, CString.ofReason, viewText_empty]

/-- A clone reads as its original. -/
@[simp] theorem read_clone (st : OwnedErrorStatus) : st.clone.read = st.read := by
  rw [clone, read_new, newErrorStatus,
    reasonCstring_of_noNul (nul_notMem_fromUtf8Lossy st.reason.noNul)]
  rfl

end OwnedErrorStatus

/-! ### Objects on the heap -/

theorem map_modify {α β : Type} {f : α → α} {g : α → β} {f' : β → β}
    (moves : ∀ a, g (f a) = f' (g a)) (l : List α) (n : ℕ) :
    (l.modify n f).map g = (l.map g).modify n f' := by
  induction l generalizing n with
  | nil => simp
  | cons a l ih =>
      cases n with
      | zero => simp [moves]
      | succ n => simp [ih]

namespace StatusHeap

variable (h : StatusHeap)

@[simp] theorem readings_alloc (st : OwnedErrorStatus) :
    (h.alloc st).readings = h.readings ++ [some st.read] := by
  simp [readings, alloc]

theorem readings_modify {f : OwnedErrorStatus → OwnedErrorStatus} {f' : Status → Status}
    (moves : ∀ st, (f st).read = f' st.read) (n : ℕ) :
    (h.modify n f).readings = h.readings.modify n (Option.map f') := by
  refine map_modify (fun st => ?_) h.objects n
  cases st with
  | none => rfl
  | some st => exact congrArg some (moves st)

@[simp] theorem readings_drop (n : ℕ) : (h.drop n).readings = h.readings.set n none := by
  simp [readings, drop, List.map_set]

@[simp] theorem length_readings : h.readings.length = h.objects.length := List.length_map _

theorem of_readings (target : StatusRef) : h.readings.of target = h.read target := by
  cases target with
  | ok => rfl
  | error n =>
      simp only [Readings.of, readings, read, get, List.getElem?_map]
      cases h.objects[n]? with
      | none => rfl
      | some st => rfl

end StatusHeap

/-- **A call on an object that exists does what it should unless it clones the OK status.** -/
theorem keeps_iff {h : StatusHeap} {call : StatusCall} (live : Live h call) :
    Keeps h h.readings call ↔ call ≠ .clone .ok := by
  cases call with
  | new code reason =>
      refine iff_of_true ⟨?_, rfl, fun target same => by cases same⟩ (by simp)
      simp [statusMachine, Readings.expect]
  | setCode target code =>
      refine iff_of_true ⟨?_, rfl, fun target same => by cases same⟩ (by simp)
      cases target with
      | ok => rfl
      | error n => exact h.readings_modify (fun st => st.read_setCode code) n
  | setReason target reason =>
      refine iff_of_true ⟨?_, rfl, fun target same => by cases same⟩ (by simp)
      cases target with
      | ok => rfl
      | error n => exact h.readings_modify (fun st => st.read_setReason reason) n
  | destroy target =>
      refine iff_of_true ⟨?_, rfl, fun target same => by cases same⟩ (by simp)
      cases target with
      | ok => rfl
      | error n => exact h.readings_drop n
  | clone target =>
      cases target with
      | ok =>
          refine iff_of_false (fun keeps => ?_) fun other => other rfl
          have null := keeps.cloned .ok rfl
          simp [statusMachine, CallReply.void] at null
      | error n =>
          obtain ⟨st, found⟩ : ∃ st, h.get n = some st := by
            simpa [Live, StatusHeap.read, Option.isSome_iff_exists] using live
          have step : statusMachine h (.clone (.error n)) =
              (⟨some .ok, some (.error h.objects.length)⟩, h.alloc st.clone) := by
            simp [statusMachine, found]
          refine iff_of_true ⟨?_, rfl, fun target same => ?_⟩ (by simp)
          · simp [step, Readings.expect, StatusHeap.of_readings, StatusHeap.read, found]
          · cases same
            rw [step, h.length_readings]

/-! ### Runs -/

/-- The heap after calls, which begin without error statuses. -/
def heapAfter (calls : List StatusCall) : StatusHeap := statusMachine.after ⟨[]⟩ calls

/-- What the objects should read after calls. -/
def readingsAfter (calls : List StatusCall) : Readings := calls.foldl Readings.expect []

/-- **Every call of a run does what it should exactly if none clones the OK status.** -/
theorem status_objects_keep_iff (calls : List StatusCall)
    (live : ∀ seen call, seen ++ [call] <+: calls → Live (heapAfter seen) call) :
    (∀ seen call, seen ++ [call] <+: calls → Keeps (heapAfter seen) (readingsAfter seen) call) ↔
      StatusCall.clone .ok ∉ calls := by
  have same : ∀ (h : StatusHeap) (readings : Readings) call, h.readings = readings → Live h call →
      (Keeps h readings call ↔ call ≠ .clone .ok) := by
    rintro h _ call rfl live
    exact keeps_iff live
  have step : ∀ (h : StatusHeap) (readings : Readings) call, h.readings = readings → Live h call →
      call ≠ .clone .ok → (statusMachine h call).2.readings = readings.expect call := by
    rintro h _ call rfl live other
    exact ((keeps_iff live).mpr other).readings_
  have runs := Machine.seen_congr same step (s := ⟨[]⟩) (t := []) rfl live
  refine runs.trans ⟨fun others member => ?_, fun never seen call begins => ?_⟩
  · obtain ⟨seen, rest, rfl⟩ := List.append_of_mem member
    exact others seen _ ⟨rest, by simp⟩ rfl
  · rintro rfl
    exact never (begins.mem (by simp))

/-- A status is cloned and destroyed, and the clone reads on. -/
theorem status_objects_keep_clone :
    let calls := [.new 42 "boom", .clone (.error 0), .destroy (.error 0), .setCode (.error 1) 7]
    readingsAfter calls = [none, some (newErrorStatus 7 "boom")] ∧
      ∀ seen call, seen ++ [call] <+: calls →
        Keeps (heapAfter seen) (readingsAfter seen) call := by
  refine ⟨rfl, ?_⟩
  refine (status_objects_keep_iff _ ?_).mpr (by decide)
  exact (Machine.along_iff_seen _ _ _ _).mp ⟨trivial, rfl, rfl, rfl, trivial⟩

/-- The OK status answers a clone with null and writes no copy. -/
theorem ok_clone_null :
    (statusMachine ⟨[]⟩ (.clone .ok)).1 = ⟨none, none⟩ ∧
      ¬ ∀ seen call, seen ++ [call] <+: [.clone .ok] →
        Keeps (heapAfter seen) (readingsAfter seen) call := by
  refine ⟨rfl, fun every => ?_⟩
  have null := (every [] (.clone .ok) List.prefix_rfl).cloned .ok rfl
  simp [heapAfter, statusMachine, CallReply.void] at null

end ExtensionSdkMongodb

import ExtensionSdkMongodb.Sdk.Error
import Mathlib.Algebra.Ring.Int.Defs

/-!
# The time left for a request

A request may take its maximum, shortened to what is left before the deadline of the query.
`requestTimeout_ok_iff` says this in integers without bounds, for every clock and deadline.
-/

set_option autoImplicit false

namespace ExtensionSdkMongodb.OpenSearch

/-- `std::time::Duration`, in nanoseconds. -/
structure Duration where
  nanos : ℕ
  deriving DecidableEq, Repr

/-- `Duration::from_millis`. -/
def Duration.fromMillis (millis : ℕ) : Duration := ⟨millis * 1000000⟩

/-- `i64::saturating_sub`. -/
def saturatingSub (a b : Int64) : Int64 :=
  let difference := a.toInt - b.toInt
  if difference < Int64.minValue.toInt then Int64.minValue
  else if Int64.maxValue.toInt < difference then Int64.maxValue
  else Int64.ofInt difference

/-- `request_timeout`; `i64::MAX` means no deadline. -/
def requestTimeout (deadlineMs : Option Int64) (nowMs : Int64) (max : Duration) :
    Except ExtensionError Duration :=
  match deadlineMs.filter (· ≠ Int64.maxValue) with
  | none => .ok max
  | some deadline =>
    let remaining := saturatingSub deadline nowMs
    if remaining ≤ 0 then
      .error (.runtime "query deadline exceeded before OpenSearch request")
    else .ok ⟨min max.nanos (Duration.fromMillis remaining.toInt.toNat).nanos⟩

example : requestTimeout (some 1500) 1000 (.fromMillis 2000) = .ok (.fromMillis 500) ∧
    requestTimeout (some Int64.maxValue) 1000 (.fromMillis 2000) = .ok (.fromMillis 2000) := by
  decide

/-! ## What a request is allowed -/

/-- The query has this deadline. -/
def Due (deadlineMs : Option Int64) (deadline : Int64) : Prop :=
  deadlineMs = some deadline ∧ deadline ≠ Int64.maxValue

/-- The clock has not reached the deadline. -/
def InTime (deadlineMs : Option Int64) (nowMs : Int64) : Prop :=
  ∀ deadline, Due deadlineMs deadline → nowMs < deadline

/-- A request in time gets its maximum, or the whole milliseconds left if these are less, computed
without overflow. -/
structure Allowed (deadlineMs : Option Int64) (nowMs : Int64) (max timeout : Duration) : Prop where
  inTime : InTime deadlineMs nowMs
  unlimited : (∀ deadline, ¬ Due deadlineMs deadline) → timeout = max
  shortened : ∀ deadline, Due deadlineMs deadline →
    (timeout.nanos : ℤ) =
      min (max.nanos : ℤ) (min (deadline.toInt - nowMs.toInt) (2 ^ 63 - 1) * 1000000)

theorem saturatingSub_toInt (a b : Int64) :
    (saturatingSub a b).toInt = max (-2 ^ 63) (min (2 ^ 63 - 1) (a.toInt - b.toInt)) := by
  unfold saturatingSub
  simp only [Int64.toInt_minValue, Int64.toInt_maxValue]
  split
  · rw [Int64.toInt_minValue]
    omega
  · split
    · rw [Int64.toInt_maxValue]
      omega
    · rw [Int64.toInt_ofInt_of_le (by omega) (by omega)]
      omega

theorem due_iff {deadlineMs : Option Int64} {deadline : Int64} :
    Due deadlineMs deadline ↔ deadlineMs.filter (· ≠ Int64.maxValue) = some deadline := by
  rw [Option.filter_eq_some_iff, decide_eq_true_iff]
  exact Iff.rfl

/-- **A timeout is granted exactly to requests in time**, and it is the one they are allowed. -/
theorem requestTimeout_ok_iff {deadlineMs : Option Int64} {nowMs : Int64} {max timeout : Duration} :
    requestTimeout deadlineMs nowMs max = .ok timeout ↔
      Allowed deadlineMs nowMs max timeout := by
  unfold requestTimeout
  cases due : deadlineMs.filter (· ≠ Int64.maxValue) with
  | none =>
      have never : ∀ deadline, ¬ Due deadlineMs deadline := by
        intro deadline set
        rw [due_iff, due] at set
        cases set
      constructor
      · rintro ⟨⟩
        exact ⟨fun deadline set => absurd set (never deadline), fun _ => rfl,
          fun deadline set => absurd set (never deadline)⟩
      · intro allowed
        rw [allowed.unlimited never]
  | some deadline =>
      have set : Due deadlineMs deadline := due_iff.mpr due
      have only : ∀ other, Due deadlineMs other → other = deadline := by
        intro other also
        rw [due_iff, due] at also
        exact (Option.some.inj also).symm
      have left := saturatingSub_toInt deadline nowMs
      simp only [Int64.le_iff_toInt_le, Int64.toInt_zero]
      split
      · next late =>
        refine iff_of_false (by simp) fun allowed => ?_
        have early := Int64.lt_iff_toInt_lt.mp (allowed.inTime deadline set)
        omega
      · next early =>
        rw [Except.ok.injEq]
        constructor
        · rintro rfl
          refine ⟨?_, fun none => absurd set (none deadline), ?_⟩
          · rintro other also
            rw [only other also, Int64.lt_iff_toInt_lt]
            omega
          · rintro other also
            rw [only other also]
            simp only [Duration.fromMillis]
            omega
        · intro allowed
          have same := allowed.shortened deadline set
          obtain ⟨nanos⟩ := timeout
          simp only [Duration.fromMillis, Duration.mk.injEq] at same ⊢
          omega

/-- A timeout is refused only when the deadline is reached. -/
theorem requestTimeout_error {deadlineMs : Option Int64} {nowMs : Int64} {max : Duration}
    {e : ExtensionError} (refused : requestTimeout deadlineMs nowMs max = .error e) :
    ¬ InTime deadlineMs nowMs := by
  unfold requestTimeout at refused
  cases due : deadlineMs.filter (· ≠ Int64.maxValue) with
  | none =>
      rw [due] at refused
      cases refused
  | some deadline =>
      intro inTime
      have early := Int64.lt_iff_toInt_lt.mp (inTime deadline (due_iff.mpr due))
      have left := saturatingSub_toInt deadline nowMs
      rw [due] at refused
      simp only [Int64.le_iff_toInt_le, Int64.toInt_zero] at refused
      split at refused
      · omega
      · cases refused

section Allowed

variable {deadlineMs : Option Int64} {nowMs : Int64} {max timeout : Duration}

theorem Allowed.le_max (allowed : Allowed deadlineMs nowMs max timeout) :
    timeout.nanos ≤ max.nanos := by
  by_cases due : ∃ deadline, Due deadlineMs deadline
  · obtain ⟨deadline, set⟩ := due
    have shortened := allowed.shortened deadline set
    omega
  · exact Nat.le_of_eq (congrArg Duration.nanos (allowed.unlimited (not_exists.mp due)))

theorem Allowed.pos (allowed : Allowed deadlineMs nowMs max timeout) (positive : 0 < max.nanos) :
    0 < timeout.nanos := by
  by_cases due : ∃ deadline, Due deadlineMs deadline
  · obtain ⟨deadline, set⟩ := due
    have shortened := allowed.shortened deadline set
    have early := Int64.lt_iff_toInt_lt.mp (allowed.inTime deadline set)
    omega
  · rwa [allowed.unlimited (not_exists.mp due)]

/-- A request that takes no longer than its timeout ends by the deadline. -/
theorem Allowed.ends (allowed : Allowed deadlineMs nowMs max timeout) {deadline : Int64}
    (set : Due deadlineMs deadline) :
    nowMs.toInt * 1000000 + timeout.nanos ≤ deadline.toInt * 1000000 := by
  have shortened := allowed.shortened deadline set
  omega

end Allowed

end ExtensionSdkMongodb.OpenSearch

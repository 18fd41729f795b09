import ExtensionSdkMongodb.OpenSearch.FetchContract

/-!
# Attempts and the deadline of the query

Both searches read the clock before each attempt, and `requestTimeout` decides whether the attempt
starts and how long it may take. `fetches_keep_deadline` says so of every attempt of every fetch,
whatever the host, the clock and the endpoints answer.
-/

set_option autoImplicit false

namespace ExtensionSdkMongodb.OpenSearch

open Failover

/-- An attempt to send a request starts. -/
def Started (steps : FetchLog) : Prop :=
  ∃ endpoint timeout answer rest, steps = .attempt endpoint timeout answer :: rest

/-- The steps that a fetch adds to a log, and the deadline. -/
structure KeepsDeadline {ρ : Type} (world : World) (inquiry : Inquiry ρ) (log trace : FetchLog) :
    Prop where
  /-- After a check that finds no interrupt, an attempt starts if and only if there is no deadline
  or the clock is before it. -/
  starts : ∀ before outcome after deadlineMs, trace = before ++ .permit outcome :: after →
    world.checkInterrupt (log ++ before) = .ok () →
    world.deadlineTimestampMs (log ++ before) = .ok deadlineMs →
    (Started after ↔ InTime deadlineMs (world.nowMs (log ++ before)))
  /-- Every attempt comes right after such a check, and has the timeout it is allowed. It is not
  zero, at most the maximum, and does not reach beyond the deadline. -/
  timeouts : ∀ before endpoint timeout answer after,
    trace = before ++ .attempt endpoint timeout answer :: after →
    ∃ earlier deadlineMs, before = earlier ++ [.permit (.ok timeout)] ∧
      world.checkInterrupt (log ++ earlier) = .ok () ∧
      world.deadlineTimestampMs (log ++ earlier) = .ok deadlineMs ∧
      Allowed deadlineMs (world.nowMs (log ++ earlier)) inquiry.max timeout ∧
      (0 < inquiry.max.nanos → 0 < timeout.nanos) ∧ timeout.nanos ≤ inquiry.max.nanos ∧
      ∀ deadline, Due deadlineMs deadline →
        (world.nowMs (log ++ earlier)).toInt * 1000000 + timeout.nanos ≤ deadline.toInt * 1000000
  /-- Every attempt is a request to its endpoint with this timeout and has the endpoint's answer. -/
  sends : ∀ before endpoint timeout answer after,
    trace = before ++ .attempt endpoint timeout answer :: after →
    answer = world.postSearch (log ++ before) (inquiry.url endpoint) inquiry.body timeout

/-- What is left out of a fetch's endpoints, when the host interrupts nothing and tells one
deadline: an answer has settled the fetch, or the clock has reached the deadline. -/
def LeavesOut {κ β : Type} (world : World)
    (policy : Policy String (Except String Json) ExtensionError κ β) (endpoints : List String)
    (deadlineMs : Option Int64) (log trace : FetchLog) (result : Except ExtensionError β) : Prop :=
  contacted trace = endpoints ∨
  (∃ endpoint answer, (answers trace).getLast? = some (endpoint, answer) ∧
    policy.verdict endpoint answer = .settled result) ∨
  ∃ before e, trace = before ++ [.permit (.error e)] ∧ result = .error e ∧
    ¬ InTime deadlineMs (world.nowMs (log ++ before))

section Fetch

variable {ρ : Type} {world : World} {inquiry : Inquiry ρ} {log trace : FetchLog}
  {result : Except ExtensionError (List ρ)}

/-- A check that grants a timeout found no interrupt and a timeout allowed. -/
theorem Permitted.allowed {max timeout : Duration}
    (granted : Permitted world max log (.ok timeout)) :
    ∃ deadlineMs, world.checkInterrupt log = .ok () ∧
      world.deadlineTimestampMs log = .ok deadlineMs ∧
      Allowed deadlineMs (world.nowMs log) max timeout := by
  generalize given : (Except.ok timeout : Except ExtensionError Duration) = outcome at granted
  cases granted with
  | interrupted e host => cases given
  | untold e host deadline => cases given
  | timed deadlineMs host deadline =>
      exact ⟨deadlineMs, host, deadline, requestTimeout_ok_iff.mp given.symm⟩

theorem keepsDeadline_of_fetches (fetches : inquiry.Fetches world log trace result) :
    KeepsDeadline world inquiry log trace where
  starts before outcome after deadlineMs split uninterrupted deadline := by
    have asked : outcome = requestTimeout deadlineMs (world.nowMs (log ++ before)) inquiry.max :=
      (fetches.asked.permits _ _ _ split).eq uninterrupted deadline
    constructor
    · rintro ⟨endpoint, timeout, answer, rest, rfl⟩
      rw [List.append_cons] at split
      obtain ⟨earlier, permitted⟩ := (fetches.contract.guarded _ _ _ _ _ split).1
      have granted := (List.append_inj' permitted rfl).2
      simp only [List.cons.injEq, Step.permit.injEq, and_true] at granted
      exact (requestTimeout_ok_iff.mp (asked.symm.trans granted)).inTime
    · intro inTime
      cases permitted : requestTimeout deadlineMs (world.nowMs (log ++ before)) inquiry.max with
      | error e => exact absurd inTime (requestTimeout_error permitted)
      | ok timeout =>
          rw [asked, permitted] at split
          obtain ⟨endpoint, answer, rest, follows⟩ :=
            fetches.asked.starts before timeout after split
          exact ⟨endpoint, timeout, answer, rest, follows⟩
  timeouts before endpoint timeout answer after split := by
    obtain ⟨⟨earlier, rfl⟩, _⟩ :=
      fetches.contract.guarded before endpoint timeout answer after split
    rw [List.append_assoc, List.singleton_append] at split
    obtain ⟨deadlineMs, uninterrupted, deadline, allowed⟩ :=
      (fetches.asked.permits _ _ _ split).allowed
    exact ⟨earlier, deadlineMs, rfl, uninterrupted, deadline, allowed, allowed.pos, allowed.le_max,
      fun _ set => allowed.ends set⟩
  sends := fetches.asked.attempts

theorem leavesOut_of_fetches (fetches : inquiry.Fetches world log trace result)
    {deadlineMs : Option Int64} (uninterrupted : ∀ log, world.checkInterrupt log = .ok ())
    (deadline : ∀ log, world.deadlineTimestampMs log = .ok deadlineMs) :
    LeavesOut world inquiry.policy inquiry.endpoints deadlineMs log trace result := by
  by_cases failing : ∃ step ∈ trace, step.failure ≠ none
  · obtain ⟨step, member, failed⟩ := failing
    obtain ⟨e, failure⟩ := Option.ne_none_iff_exists'.mp failed
    obtain ⟨before, after, rfl⟩ := List.append_of_mem member
    obtain ⟨rfl, rfl⟩ := fetches.contract.stops before step after e rfl failure
    rcases step with (e' | _) | _ | (e' | _)
    · cases failure
      have refused :
          .error e = requestTimeout deadlineMs (world.nowMs (log ++ before)) inquiry.max :=
        (fetches.asked.permits _ _ _ rfl).eq (uninterrupted _) (deadline _)
      exact .inr (.inr ⟨before, e, rfl, rfl, requestTimeout_error refused.symm⟩)
    · cases failure
    · cases failure
    · have interrupted := fetches.asked.interrupts _ _ _ rfl
      rw [uninterrupted] at interrupted
      cases interrupted
    · cases failure
  · have passed : ∀ step ∈ trace, step.failure = none := by
      simpa only [not_exists, not_and, ne_eq, not_not] using failing
    rcases fetches.contract.decides passed with ⟨earlier, endpoint, answer, asked, _, settled⟩ |
      ⟨all, _, _⟩
    · refine .inr (.inl ⟨endpoint, answer, ?_, settled⟩)
      rw [asked, List.getLast?_concat]
    · exact .inl all

/-- What the failover of an inquiry does with the deadline, whatever the host, the clock and the
endpoints answer. -/
theorem failover_keeps_deadline (inquiry : Inquiry ρ)
    {fetch : FetchLog → Except ExtensionError (List ρ) × FetchLog}
    (runs : ∀ log, fetch log = inquiry.failover world log) (log : FetchLog) :
    ∃ trace, (fetch log).2 = log ++ trace ∧ KeepsDeadline world inquiry log trace ∧
      ∀ deadlineMs, (∀ log, world.checkInterrupt log = .ok ()) →
        (∀ log, world.deadlineTimestampMs log = .ok deadlineMs) →
        LeavesOut world inquiry.policy inquiry.endpoints deadlineMs log trace (fetch log).1 := by
  obtain ⟨trace, grown, fetches⟩ := fetches_of_runs runs log
  exact ⟨trace, grown, keepsDeadline_of_fetches fetches,
    fun _ uninterrupted deadline => leavesOut_of_fetches fetches uninterrupted deadline⟩

end Fetch

/-- **Both fetches keep the deadline of the query**, whatever it is and whatever the clock shows
before each attempt. -/
theorem fetches_keep_deadline (readers : KeyReaders) (toValue : Bson → Option Json)
    (world : World) :
    (∀ (state : SearchState) (log : FetchLog),
      ∃ trace, (fetchCandidates toValue world state log).2 = log ++ trace ∧
        KeepsDeadline world (state.inquiry toValue) log trace ∧
        ∀ deadlineMs, (∀ log, world.checkInterrupt log = .ok ()) →
          (∀ log, world.deadlineTimestampMs log = .ok deadlineMs) →
          LeavesOut world (candidatesPolicy state.args.limitUsize) state.config.endpoints deadlineMs
            log trace (fetchCandidates toValue world state log).1) ∧
    ∀ (state : RouterState) (log : FetchLog),
      ∃ trace, (fetch readers toValue world state log).2 = log ++ trace ∧
        KeepsDeadline world (state.inquiry readers toValue) log trace ∧
        ∀ deadlineMs, (∀ log, world.checkInterrupt log = .ok ()) →
          (∀ log, world.deadlineTimestampMs log = .ok deadlineMs) →
          LeavesOut world (hitsPolicy readers state.args.limitUsize) state.config.endpoints
            deadlineMs log trace (fetch readers toValue world state log).1 := by
  refine ⟨?_, ?_⟩
  · intro state log
    exact failover_keeps_deadline (state.inquiry toValue) (fun _ => rfl) log
  · intro state log
    exact failover_keeps_deadline (state.inquiry readers toValue) (fun _ => rfl) log

end ExtensionSdkMongodb.OpenSearch

import ExtensionSdkMongodb.Library.Ownership
import ExtensionSdkMongodb.Sdk.Expansion
import ExtensionSdkMongodb.Sdk.StatusObjects

/-!
# Calls of the host

Four wrappers call the host back and turn the status it returns into a result: two factories of
nodes, the deadline and the interrupt check. Each reads the status, destroys it and goes on by its
code.

The factories and the deadline succeed only under an OK status; for the deadline a null status is
one. The interrupt check succeeds only if the query status that it lends to the host is OK. All of
them report the code and the reason of the host, and destroy every status once
(`host_calls_report`).
-/

set_option autoImplicit false

namespace ExtensionSdkMongodb

/-! ## Statuses of a call -/

/-- A status that the host returned, or the query status of an interrupt check. -/
inductive StatusId where
  | returned (n : ℕ)
  | query
  deriving DecidableEq, Repr

/-- A status object of the host, with the view of its reason. -/
structure HostStatus where
  id : ℕ
  code : Int32
  reason : Option Bytes
  deriving DecidableEq, Repr

/-- What a call ends with: a result, and the statuses destroyed on the way. -/
structure HostCall (α : Type) where
  result : Except ExtensionError α
  destroyed : List StatusId

/-! ## Factories -/

/-- What a factory of the host does: a status is returned, a node may be written. -/
structure NodeReply (η : Type) where
  status : Option HostStatus
  node : Option η

section Factories

variable {η : Type} (codec : BsonCodec) (factory : Option (Bytes → NodeReply η)) (spec : Document)

/-- The texts of the errors of a factory's wrapper. -/
structure FactoryTexts where
  nullStatus : String
  failed : String
  nullNode : String

/-- A wrapper of a factory; without host services there is no factory. -/
def callFactory (texts : FactoryTexts) : HostCall η :=
  match factory with
  | none => ⟨.error (.runtime "host services not initialized"), []⟩
  | some create =>
    match codec.encode spec with
    | .error e => ⟨.error (.failedToParse e), []⟩
    | .ok raw =>
      let reply := create raw
      match reply.status with
      | none => ⟨.error (.runtime texts.nullStatus), []⟩
      | some st =>
        let destroyed := [.returned st.id]
        if st.code ≠ statusOkCode then
          ⟨.error (.hostError st.code (viewText texts.failed st.reason)), destroyed⟩
        else
          match reply.node with
          | none => ⟨.error (.runtime texts.nullNode), destroyed⟩
          | some node => ⟨.ok node, destroyed⟩

def createIdLookupTexts : FactoryTexts where
  nullStatus := "null status from create_id_lookup"
  failed := "create_id_lookup failed"
  nullNode := "create_id_lookup returned null AST node"

/-- `create_id_lookup_ast`, with the status object. -/
def createIdLookupCall : HostCall η := callFactory codec factory spec createIdLookupTexts

def createHostParseNodeTexts : FactoryTexts where
  nullStatus := "null status from create_host_agg_stage_parse_node"
  failed := "create_host_agg_stage_parse_node failed"
  nullNode := "host returned null parse node"

/-- `create_host_parse_node`. -/
def createHostParseNode : HostCall η := callFactory codec factory spec createHostParseNodeTexts

end Factories

/-! ## The deadline -/

/-- What the host does for a deadline: a status is returned, a time may be written. -/
structure DeadlineReply where
  status : Option HostStatus
  written : Option Int64
  deriving DecidableEq, Repr

/-- `deadline_timestamp_ms`; there may be no query execution context. -/
def deadlineTimestampMs (host : Option DeadlineReply) : HostCall (Option Int64) :=
  match host with
  | none => ⟨.ok none, []⟩
  | some reply =>
    let ts := reply.written.getD 0
    match reply.status with
    | none => ⟨.ok (some ts), []⟩
    | some st =>
      let destroyed := [.returned st.id]
      if st.code = statusOkCode then ⟨.ok (some ts), destroyed⟩
      else ⟨.error (.hostError st.code (viewText "get_deadline_timestamp_ms failed" st.reason)),
        destroyed⟩

/-! ## The interrupt check -/

/-- A call of the host on the query status. -/
inductive QueryWrite where
  | setCode (code : Int32)
  | setReason (reason : Option Bytes)
  deriving DecidableEq, Repr

def QueryWrite.apply (qs : OwnedErrorStatus) : QueryWrite → OwnedErrorStatus
  | .setCode code => qs.setCode code
  | .setReason reason => qs.setReason reason

/-- What the host does for an interrupt check: it may populate the query status, and returns a
status. -/
structure InterruptReply where
  writes : List QueryWrite
  returned : Option HostStatus
  deriving DecidableEq, Repr

/-- The query status, as the host leaves it. -/
def InterruptReply.queryStatus (reply : InterruptReply) : OwnedErrorStatus :=
  reply.writes.foldl QueryWrite.apply (.new statusOkCode "")

/-- `check_interrupt`; there may be no query execution context. -/
def checkInterrupt (host : Option InterruptReply) : HostCall Unit :=
  match host with
  | none => ⟨.ok (), []⟩
  | some reply =>
    let qs := reply.queryStatus
    let destroyed := (reply.returned.map fun ret => StatusId.returned ret.id).toList ++ [.query]
    if qs.code = statusOkCode then ⟨.ok (), destroyed⟩
    else ⟨.error (.hostError qs.code (viewText "check_for_interrupt" (some qs.reason.bytes))),
      destroyed⟩

/-! ## Reports -/

/-- The statuses of a call: the one the host returned, those created for it, those destroyed. -/
def statusLedger (returned : Option HostStatus) (created : Multiset StatusId)
    (destroyed : List StatusId) : Ledger StatusId where
  received := (returned.map fun st => StatusId.returned st.id).toList
  created
  returned := 0
  destroyed

/-- The code and the reason of a status of the host. -/
def HostStatus.read (st : HostStatus) : Status := ⟨st.code, fromUtf8Lossy (st.reason.getD [])⟩

/-- The reason of a status, or another text for an empty reason. -/
def Status.reasonOr (st : Status) (fixed : String) : String :=
  if st.reason = "" then fixed else st.reason

/-- The query status after a call of the host. -/
def QueryWrite.post (st : Status) : QueryWrite → Status
  | .setCode code => { st with code }
  | .setReason reason => st.withReason reason

/-- The query status by what the host wrote last. -/
def InterruptReply.populated (reply : InterruptReply) : Status :=
  reply.writes.foldl QueryWrite.post statusOk

/-- A result is a host error exactly if the host reported a code that is not OK, and has this code
and the reason, or a fixed text for an empty reason. -/
structure Reports {α : Type} (fixed : String) (reported : Option Status)
    (result : Except ExtensionError α) : Prop where
  hostError : ∀ st, reported = some st → st.isOk = false →
    result = .error (.hostError st.code (st.reasonOr fixed))
  fromHost : ∀ code text, result = .error (.hostError code text) →
    ∃ st, reported = some st ∧ st.isOk = false ∧ code = st.code ∧ text = st.reasonOr fixed

theorem viewText_read (fixed : String) (st : HostStatus) :
    viewText fixed st.reason = st.read.reasonOr fixed := viewText_eq fixed st.reason

theorem read_isOk (st : HostStatus) : st.read.isOk = (st.code == statusOkCode) := rfl

theorem read_queryStatus (reply : InterruptReply) : reply.queryStatus.read = reply.populated := by
  have step : ∀ (writes : List QueryWrite) (qs : OwnedErrorStatus),
      (writes.foldl QueryWrite.apply qs).read = writes.foldl QueryWrite.post qs.read := by
    intro writes
    induction writes with
    | nil => exact fun _ => rfl
    | cons write writes ih =>
        intro qs
        rw [List.foldl_cons, List.foldl_cons, ih]
        cases write with
        | setCode code => rfl
        | setReason reason =>
            rw [QueryWrite.apply, OwnedErrorStatus.read_setReason, QueryWrite.post]
  have start : (OwnedErrorStatus.new statusOkCode "").read = statusOk := by
    rw [OwnedErrorStatus.read_new, newErrorStatus, reasonCstring_of_noNul (by simp)]
    rfl
  rw [InterruptReply.queryStatus, step, start]
  rfl

section Reports

variable {α : Type} {fixed : String}

theorem Reports.of_code {st : Status} (bad : st.isOk = false) :
    Reports fixed (some st)
      (.error (.hostError st.code (st.reasonOr fixed)) : Except ExtensionError α) where
  hostError := by
    rintro _ ⟨⟩ _
    rfl
  fromHost := by
    rintro _ _ ⟨⟩
    exact ⟨st, rfl, bad, rfl, rfl⟩

/-- Without a code to report a result is no host error. -/
theorem Reports.of_fine {reported : Option Status} {result : Except ExtensionError α}
    (fine : ∀ st, reported = some st → st.isOk = true)
    (other : ∀ code text, result ≠ .error (.hostError code text)) :
    Reports fixed reported result where
  hostError st same bad := by
    rw [fine st same] at bad
    cases bad
  fromHost code text same := absurd same (other code text)

theorem fine_none (st : Status) (same : (none : Option Status) = some st) : st.isOk = true := by
  cases same

theorem fine_ok {st : Status} (ok : st.isOk = true) (st' : Status) (same : some st = some st') :
    st'.isOk = true := by
  cases same
  exact ok

end Reports

/-- A call of a factory succeeds only under an OK status and with the node that was written. -/
structure FactoryReports {η : Type} (fixed : String) (reply : NodeReply η) (call : HostCall η) :
    Prop where
  ok : ∀ node, call.result = .ok node →
    (∃ st, reply.status = some st ∧ st.read.isOk = true) ∧ reply.node = some node
  reports : Reports fixed (reply.status.map HostStatus.read) call.result
  destroyed : (statusLedger reply.status 0 call.destroyed).Balanced

/-- The deadline succeeds under an OK status or a null one, with the time that was written. -/
structure DeadlineReports (reply : DeadlineReply) (call : HostCall (Option Int64)) : Prop where
  ok : ∀ ts, call.result = .ok ts →
    (∀ st, reply.status = some st → st.read.isOk = true) ∧ ts = some (reply.written.getD 0)
  reports : Reports "get_deadline_timestamp_ms failed" (reply.status.map HostStatus.read)
    call.result
  destroyed : (statusLedger reply.status 0 call.destroyed).Balanced

/-- The interrupt check succeeds only with an OK query status. -/
structure InterruptReports (reply : InterruptReply) (call : HostCall Unit) : Prop where
  ok : call.result = .ok () → reply.populated.isOk = true
  hostError : reply.populated.isOk = false → call.result =
    .error (.hostError reply.populated.code (reply.populated.reasonOr "check_for_interrupt"))
  destroyed : (statusLedger reply.returned {.query} call.destroyed).Balanced

theorem balanced_returned (st : HostStatus) :
    (statusLedger (some st) 0 [.returned st.id]).Balanced := by
  simp [statusLedger, Ledger.Balanced]

theorem callFactory_reports {η : Type} (codec : BsonCodec) (create : Bytes → NodeReply η)
    (spec : Document) (texts : FactoryTexts) {raw : Bytes} (encoded : codec.encode spec = .ok raw) :
    FactoryReports texts.failed (create raw) (callFactory codec (some create) spec texts) := by
  simp only [callFactory, encoded]
  obtain ⟨status, node⟩ := create raw
  cases status with
  | none =>
      refine ⟨by simp, .of_fine fine_none (by simp), ?_⟩
      simp [statusLedger, Ledger.Balanced]
  | some st =>
      by_cases ok : st.code = statusOkCode
      · have fine : st.read.isOk = true := by simp [read_isOk, ok]
        simp only [ok, ne_eq, not_true_eq_false, if_false]
        cases node with
        | none => exact ⟨by simp, .of_fine (fine_ok fine) (by simp), balanced_returned st⟩
        | some node =>
            refine ⟨?_, .of_fine (fine_ok fine) (by simp), balanced_returned st⟩
            rintro _ ⟨⟩
            exact ⟨⟨st, rfl, fine⟩, rfl⟩
      · have bad : st.read.isOk = false := by simp [read_isOk, ok]
        simp only [ne_eq, ok, not_false_eq_true, if_true, viewText_read]
        exact ⟨by simp, .of_code bad, balanced_returned st⟩

theorem deadlineTimestampMs_reports (reply : DeadlineReply) :
    DeadlineReports reply (deadlineTimestampMs (some reply)) := by
  obtain ⟨status, written⟩ := reply
  cases status with
  | none =>
      refine ⟨?_, .of_fine fine_none (by simp [deadlineTimestampMs]), ?_⟩
      · rintro _ ⟨⟩
        exact ⟨by simp, rfl⟩
      · simp [deadlineTimestampMs, statusLedger, Ledger.Balanced]
  | some st =>
      by_cases ok : st.code = statusOkCode
      · have fine : st.read.isOk = true := by simp [read_isOk, ok]
        simp only [deadlineTimestampMs, ok, if_true]
        refine ⟨?_, .of_fine (fine_ok fine) (by simp), balanced_returned st⟩
        rintro _ ⟨⟩
        refine ⟨?_, rfl⟩
        rintro _ ⟨⟩
        exact fine
      · have bad : st.read.isOk = false := by simp [read_isOk, ok]
        simp only [deadlineTimestampMs, ok, if_false, viewText_read]
        exact ⟨by simp, .of_code bad, balanced_returned st⟩

theorem checkInterrupt_reports (reply : InterruptReply) :
    InterruptReports reply (checkInterrupt (some reply)) := by
  have balanced : (statusLedger reply.returned {.query}
      ((reply.returned.map fun ret => StatusId.returned ret.id).toList ++ [.query])).Balanced := by
    simp [statusLedger, Ledger.Balanced, ← Multiset.coe_add]
  have read := read_queryStatus reply
  have code : reply.queryStatus.code = reply.populated.code := congrArg Status.code read
  have text : viewText "check_for_interrupt" (some reply.queryStatus.reason.bytes) =
      reply.populated.reasonOr "check_for_interrupt" := by
    rw [viewText_eq, ← read]
    rfl
  have isOk : reply.populated.isOk = (reply.populated.code == statusOkCode) := rfl
  by_cases ok : reply.populated.code = statusOkCode
  · have fine : reply.populated.isOk = true := by simp [isOk, ok]
    simp only [checkInterrupt, code, ok, if_true]
    exact ⟨fun _ => fine, fun bad => by simp [fine] at bad, balanced⟩
  · have bad : reply.populated.isOk = false := by simp [isOk, ok]
    simp only [checkInterrupt, code, ok, if_false, text]
    exact ⟨by simp [bad], fun _ => rfl, balanced⟩

/-! ### The id lookup of the expansion -/

/-- The answer of a factory, with its status as it reads. -/
def NodeReply.read {η : Type} (reply : NodeReply η) : FactoryReply η :=
  ⟨reply.status.map HostStatus.read, reply.node⟩

/-- The wrapper with the status object gives what `createIdLookupAst` gives. -/
theorem createIdLookupCall_result {η : Type} (codec : BsonCodec)
    (factory : Option (Bytes → NodeReply η)) (spec : Document) :
    (createIdLookupCall codec factory spec).result =
      createIdLookupAst codec (factory.map fun create raw => (create raw).read) spec := by
  simp only [createIdLookupCall, callFactory, createIdLookupAst, createIdLookupTexts]
  cases factory with
  | none => rfl
  | some create =>
      cases codec.encode spec with
      | error e => rfl
      | ok raw =>
          simp only [Option.map_some, NodeReply.read]
          cases (create raw).status with
          | none => rfl
          | some st =>
              simp only [Option.map_some, read_isOk, viewText_read, Status.reasonOr, beq_iff_eq]
              by_cases ok : st.code = statusOkCode
              · simp only [ok, ne_eq, not_true_eq_false, if_false, if_true]
                cases (create raw).node <;> rfl
              · simp only [ne_eq, ok, not_false_eq_true, if_true, if_false]
                rfl

/-- **The calls of the host report what the host reported.** -/
theorem host_calls_report :
    (∀ {η : Type} codec (create : Bytes → NodeReply η) spec raw, codec.encode spec = .ok raw →
      FactoryReports "create_id_lookup failed" (create raw)
          (createIdLookupCall codec (some create) spec) ∧
        FactoryReports "create_host_agg_stage_parse_node failed" (create raw)
          (createHostParseNode codec (some create) spec)) ∧
    (∀ reply, DeadlineReports reply (deadlineTimestampMs (some reply))) ∧
    ∀ reply, InterruptReports reply (checkInterrupt (some reply)) :=
  ⟨fun codec create spec _ encoded =>
      ⟨callFactory_reports codec create spec createIdLookupTexts encoded,
        callFactory_reports codec create spec createHostParseNodeTexts encoded⟩,
    deadlineTimestampMs_reports, checkInterrupt_reports⟩

/-- A null status gives a deadline, an error without a reason is reported with a fixed text, and a
status with a code lets an operation go on that the query status does not stop. -/
theorem ok_without_ok_status :
    (deadlineTimestampMs (some ⟨none, some 5⟩)).result = .ok (some 5) ∧
      (deadlineTimestampMs (some ⟨some ⟨0, 8, none⟩, none⟩)).result =
        .error (.hostError 8 "get_deadline_timestamp_ms failed") ∧
      (checkInterrupt (some ⟨[], some ⟨0, 8, none⟩⟩)).result = .ok () ∧
      ¬ ((∀ reply, (∃ ts, (deadlineTimestampMs (some reply)).result = .ok ts) →
          ∃ st, reply.status = some st ∧ st.code = statusOkCode) ∧
        ∀ reply, (checkInterrupt (some reply)).result = .ok () →
          ∃ st, reply.returned = some st ∧ st.code = statusOkCode) := by
  refine ⟨rfl, rfl, rfl, fun claimed => ?_⟩
  obtain ⟨st, none, _⟩ := claimed.1 ⟨none, some 5⟩ ⟨some 5, rfl⟩
  cases none

end ExtensionSdkMongodb

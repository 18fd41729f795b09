import ExtensionSdkMongodb.MapTransform.Runs
import ExtensionSdkMongodb.Sdk.CallLedger
import Mathlib.Tactic.Abel

/-!
# Buffers of the map stage

A row's document buffer is destroyed once it was read, and its metadata goes on or is destroyed
with a failure. At an end that becomes a row of `on_eof` only the metadata is released: a
document buffer of that end is lost. `conserves_iff` says that a call of `get_next` conserves
buffers in every other case, whatever the callbacks do.
-/

set_option autoImplicit false

namespace ExtensionSdkMongodb.MapTransform

variable (codec : BsonCodec) (mg : MapStageGlobals)

/-- The ledger of a call of `get_next`. -/
def getNextLedger (s : Stage) (frame : Frame) : Ledger BufId :=
  let (r, after) := execGetNext codec mg s frame
  callLedger (receivedBetween s.exec.source s.pulls after.pulls) s.heap after.heap r

/-- A call conserves buffers: its ledger is balanced, no slot holds a buffer it destroyed, and it
destroys nothing but buffers that it owned. -/
structure Conserves (s : Stage) (frame : Frame) : Prop where
  balanced : (getNextLedger codec mg s frame).Balanced
  live : ∀ b ∈ (execGetNext codec mg s frame).1.result.owned,
    b ∉ (getNextLedger codec mg s frame).destroyed
  owned : ∀ b ∈ (getNextLedger codec mg s frame).destroyed,
    b ∈ (getNextLedger codec mg s frame).received ∨ b ∈ (getNextLedger codec mg s frame).created

/-- The leak: an end without rows, with a document buffer, becomes a row of `on_eof`. -/
def Leaks (s : Stage) : Prop :=
  match s.exec.source with
  | none => False
  | some up =>
    match up s.pulls with
    | .failure .. => False
    | .success _ _ res _ =>
      res.code = .eof ∧ s.exec.sawUpstreamAdvanced = false ∧ s.exec.emittedEofSynthetic = false ∧
        mg.onEofNoRows.isSome = true ∧ res.resultDocument.owned ≠ 0

/-! ## The branches -/

/-- What a branch does with the buffers it is accountable for: it creates and destroys some, hands
the rest over, and holds no destroyed one. -/
def Settles (accountable : Multiset BufId) (before : Heap) (reply : Reply × Stage) : Prop :=
  ∃ created destroyed : List BufId, before.Grows reply.2.heap created destroyed ∧
    accountable + (created : Multiset BufId) =
      reply.1.handedOver + (destroyed : Multiset BufId) ∧
    ∀ b ∈ reply.1.result.owned, b ∉ destroyed

theorem faultStatus_not_ok (panicText : String) (fault : Fault String) :
    (faultStatus panicText fault).isOk = false := by
  cases fault <;> rfl

theorem releaseOwnedMetadata_spec (heap : Heap) (res : GetNextResult) :
    (∃ destroyed : List BufId, (destroyed : Multiset BufId) = res.resultMetadata.owned ∧
        heap.Grows (releaseOwnedMetadata heap res).1 [] destroyed) ∧
      (releaseOwnedMetadata heap res).2.owned = res.resultDocument.owned := by
  unfold releaseOwnedMetadata
  cases metadata : res.resultMetadata with
  | byteView bytes => exact ⟨⟨[], rfl, .rfl⟩, by simp [GetNextResult.owned, metadata]⟩
  | byteBuf buf =>
      exact ⟨Heap.Grows.releaseByteContainer heap (.byteBuf buf), by simp [GetNextResult.owned]⟩

/-- The buffers of the two slots of an upstream's result are different. -/
theorem disjoint_slots {res : GetNextResult} (exclusive : res.Exclusive) {b : BufId}
    (document : b ∈ res.resultDocument.owned) : b ∉ res.resultMetadata.owned := by
  have distinct := exclusive.1
  rw [GetNextResult.owned, Multiset.nodup_add] at distinct
  intro metadata
  exact Multiset.disjoint_left.mp distinct.2.2 document metadata

theorem allocated_notMem {res : GetNextResult} (exclusive : res.Exclusive) (n : ℕ) :
    .allocated n ∉ res.owned := by
  intro mem
  have foreign := exclusive.2 _ mem
  cases foreign

/-- The advanced branch settles both slots of the row. -/
theorem advancedRow_settles {res : GetNextResult} (exclusive : res.Exclusive) (s : Stage) :
    Settles res.owned s.heap (advancedRow codec mg res s) := by
  obtain ⟨document, owned, released⟩ :=
    Heap.Grows.releaseByteContainer s.heap res.resultDocument
  cases mapped : mappedRow codec mg s.exec.args res.resultDocument with
  | error fault =>
      obtain ⟨⟨metadata, ownedMeta, cleared⟩, slots⟩ := releaseOwnedMetadata_spec
        (s.heap.releaseByteContainer res.resultDocument) { res with resultDocument := .empty }
      rw [advancedRow_failed codec mg mapped]
      refine ⟨_, _, released.trans cleared, ?_, ?_⟩
      · rw [← Multiset.coe_add document, owned, ownedMeta,
          Reply.handedOver_failed (faultStatus_not_ok _ _)]
        simp [GetNextResult.owned]
      · intro b held
        rw [slots] at held
        simp at held
  | ok bytes =>
      have grown := released.trans
        (Heap.Grows.intoRawByteBuf (s.heap.releaseByteContainer res.resultDocument) bytes)
      rw [advancedRow_ok codec mg mapped]
      refine ⟨_, _, grown, ?_, ?_⟩
      · rw [← Multiset.coe_add document, owned]
        simp only [Reply.handedOver_ok, GetNextResult.owned, ByteContainer.owned_byteBuf]
        simp only [List.nil_append, Multiset.coe_singleton, Multiset.coe_nil, add_zero]
        abel
      · intro b held destroyed
        rw [List.append_nil, ← Multiset.mem_coe, owned] at destroyed
        rcases Multiset.mem_add.mp held with raw | metadata
        · obtain rfl := Multiset.mem_singleton.mp raw
          exact allocated_notMem exclusive _ (Multiset.mem_add.mpr (.inl destroyed))
        · exact disjoint_slots exclusive destroyed metadata

/-- The end branch settles the metadata's slot only. -/
theorem syntheticRow_settles (onEof : Document → HookOutcome String Document) {res : GetNextResult}
    (exclusive : res.Exclusive) (s : Stage) :
    Settles res.resultMetadata.owned s.heap (syntheticRow codec onEof res s) := by
  cases made : emptyInputRow codec s.exec.args onEof with
  | error fault =>
      obtain ⟨⟨metadata, ownedMeta, cleared⟩, slots⟩ := releaseOwnedMetadata_spec s.heap res
      rw [syntheticRow_failed codec made]
      refine ⟨_, _, cleared, ?_, ?_⟩
      · rw [ownedMeta, Reply.handedOver_failed (faultStatus_not_ok _ _)]
        simp
      · intro b held destroyed
        rw [slots] at held
        rw [← Multiset.mem_coe, ownedMeta] at destroyed
        exact disjoint_slots exclusive held destroyed
  | ok bytes =>
      obtain ⟨⟨metadata, ownedMeta, cleared⟩, _⟩ :=
        releaseOwnedMetadata_spec (s.heap.intoRawByteBuf bytes).2 res
      rw [syntheticRow_ok codec made]
      refine ⟨_, _, (Heap.Grows.intoRawByteBuf s.heap bytes).trans cleared, ?_, ?_⟩
      · rw [List.nil_append, List.append_nil, ownedMeta, Multiset.coe_singleton, Multiset.add_comm]
        simp [GetNextResult.owned]
      · intro b held destroyed
        rw [List.nil_append, ← Multiset.mem_coe, ownedMeta] at destroyed
        simp only [GetNextResult.owned, ByteContainer.owned_byteBuf, ByteContainer.owned_empty,
          add_zero, Multiset.mem_singleton] at held
        subst held
        exact allocated_notMem exclusive _ (Multiset.mem_add.mpr (.inr destroyed))

/-- A result passed on as it is settles its slots. -/
theorem forwarded_settles (res : GetNextResult) {before : Heap} {s : Stage}
    (same : s.heap = before) :
    Settles res.owned before (⟨statusOk, res⟩, s) := by
  subst same
  refine ⟨[], [], .rfl, ?_, ?_⟩
  · simp
  · simp

/-! ## Every call -/

section Call

variable {codec mg}

/-- A call that received what its branch is accountable for, and more that is lost, conserves
buffers if nothing is lost. -/
theorem conserves_iff_of_settles {s : Stage} {frame : Frame} {accountable lost : Multiset BufId}
    (received : receivedBetween s.exec.source s.pulls (execGetNext codec mg s frame).2.pulls =
      accountable + lost)
    (settles : Settles accountable s.heap (execGetNext codec mg s frame)) :
    Conserves codec mg s frame ↔ lost = 0 := by
  obtain ⟨created, destroyed, grows, settled, live⟩ := settles
  have balanced : (getNextLedger codec mg s frame).Balanced ↔ lost = 0 := by
    unfold getNextLedger
    rw [callLedger_balanced_iff grows, received, ← settled, add_right_comm, add_eq_left]
  have gone : (getNextLedger codec mg s frame).destroyed = destroyed := by
    simp only [getNextLedger, callLedger, grows.destroyed, List.drop_left']
  constructor
  · intro conserves
    exact balanced.mp conserves.balanced
  · intro none_lost
    have even := balanced.mpr none_lost
    refine ⟨even, ?_, fun b left => even.mem (.inr left)⟩
    intro b held
    rw [gone, Multiset.mem_coe]
    exact live b held

end Call

/-- What a call makes of a result of its upstream: what it is accountable for and what it loses. -/
theorem mapResult_settles {res : GetNextResult} (exclusive : res.Exclusive) (s : Stage) :
    (mapResult codec mg res s).2.pulls = s.pulls ∧
      ∃ accountable lost, res.owned = accountable + lost ∧
        Settles accountable s.heap (mapResult codec mg res s) ∧
        (lost = 0 ↔ ¬ (res.code = .eof ∧ s.exec.sawUpstreamAdvanced = false ∧
          s.exec.emittedEofSynthetic = false ∧ mg.onEofNoRows.isSome = true ∧
          res.resultDocument.owned ≠ 0)) := by
  unfold mapResult
  cases code : res.code with
  | advanced =>
      obtain ⟨_, heap, stage⟩ := advancedRow_spec codec mg res
        { s with exec.sawUpstreamAdvanced := true } code
      have pulls := congrArg Stage.pulls stage
      refine ⟨pulls, res.owned, 0, (add_zero _).symm, ?_, by simp⟩
      exact advancedRow_settles codec mg exclusive { s with exec.sawUpstreamAdvanced := true }
  | pauseExecution =>
      exact ⟨rfl, res.owned, 0, (add_zero _).symm, forwarded_settles res rfl, by simp⟩
  | eof =>
      by_cases late : (s.exec.sawUpstreamAdvanced || s.exec.emittedEofSynthetic) = true
      · rw [if_pos late]
        refine ⟨rfl, res.owned, 0, (add_zero _).symm, forwarded_settles res rfl, ?_⟩
        rcases Bool.or_eq_true_iff.mp late with seen | emitted
        · simp [seen]
        · simp [emitted]
      · obtain ⟨seen, emitted⟩ := Bool.or_eq_false_iff.mp (Bool.eq_false_iff.mpr late)
        rw [if_neg late]
        cases mg.onEofNoRows with
        | none =>
            exact ⟨rfl, res.owned, 0, (add_zero _).symm, forwarded_settles res rfl, by simp⟩
        | some onEof =>
            obtain ⟨_, heap, stage⟩ := syntheticRow_spec codec onEof res s
            have pulls := congrArg Stage.pulls stage
            refine ⟨pulls, res.resultMetadata.owned, res.resultDocument.owned,
              add_comm _ _, syntheticRow_settles codec onEof exclusive s, ?_⟩
            simp [seen, emitted]

/-- **A call of `get_next` conserves buffers exactly when it does not turn an end with a document
buffer into a row of `on_eof`.** -/
theorem conserves_iff (s : Stage) (frame : Frame) :
    Conserves codec mg s frame ↔ ¬ Leaks mg s := by
  unfold Leaks
  cases source : s.exec.source with
  | none =>
      have call : execGetNext codec mg s frame = (⟨statusOk, .setEofEmpty⟩, s) := by
        simp only [execGetNext, source]
      have received : receivedBetween s.exec.source s.pulls
          (execGetNext codec mg s frame).2.pulls = 0 + 0 := by
        rw [call, receivedBetween_self, add_zero]
      rw [conserves_iff_of_settles received]
      · simp
      · rw [call]
        exact forwarded_settles .setEofEmpty rfl
  | some up =>
      cases answer : up s.pulls with
      | failure status bad written =>
          have call : execGetNext codec mg s frame =
              (⟨status, written.getD frame.result⟩, { s with pulls := s.pulls + 1 }) := by
            simp only [execGetNext, source, answer]
          have received : receivedBetween s.exec.source s.pulls
              (execGetNext codec mg s frame).2.pulls = 0 + 0 := by
            rw [call, source, receivedBetween_succ, answer, add_zero]
            rfl
          rw [conserves_iff_of_settles received]
          · simp [answer]
          · rw [call]
            refine ⟨[], [], .rfl, ?_, ?_⟩
            · simp [Reply.handedOver_failed bad]
            · simp
      | success status okay res exclusive =>
          have call : execGetNext codec mg s frame =
              mapResult codec mg res { s with pulls := s.pulls + 1 } := by
            simp only [execGetNext, source, answer]
          obtain ⟨pulls, accountable, lost, split, settles, kept⟩ :=
            mapResult_settles codec mg exclusive { s with pulls := s.pulls + 1 }
          have received : receivedBetween s.exec.source s.pulls
              (execGetNext codec mg s frame).2.pulls = accountable + lost := by
            rw [call, pulls, source, receivedBetween_succ, answer]
            exact split
          rw [conserves_iff_of_settles received, kept]
          · simp only [answer]
          · rw [call]
            exact settles

/-! ## The leak happens -/

/-- An upstream that ends with its document slot in a buffer. -/
def endWithDocument : Upstream := fun _ =>
  .ofResult ⟨.eof, .byteBuf (some ⟨.upstream 0, []⟩), .empty⟩ (by decide)

/-- The document buffer of an end is neither handed over nor destroyed, whether `on_eof` makes a
row or fails. -/
theorem conserves_document_lost :
    let codec : BsonCodec := ⟨fun _ => .ok [5, 0, 0, 0, 0], fun _ => .ok []⟩
    let makes : MapStageGlobals := ⟨fun row _ => .ok row, some fun args => .ok args⟩
    let fails : MapStageGlobals := ⟨fun row _ => .ok row, some fun _ => .error .panic⟩
    let stage := start [] endWithDocument
    ((getNextLedger codec makes stage .blank).received = {.upstream 0} ∧
        (getNextLedger codec makes stage .blank).returned = {.allocated 0} ∧
        (getNextLedger codec makes stage .blank).destroyed = 0 ∧
        ¬ Conserves codec makes stage .blank) ∧
      ¬ Conserves codec fails stage .blank := by
  refine ⟨⟨by decide, by decide, by decide, ?_⟩, ?_⟩
  · intro conserves
    exact absurd conserves.balanced (by decide)
  · intro conserves
    exact absurd conserves.balanced (by decide)

end ExtensionSdkMongodb.MapTransform

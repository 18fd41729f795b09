import ExtensionSdkMongodb.Library.Ownership
import ExtensionSdkMongodb.Sdk.ByteContainer

/-!
# The ledger of a `get_next` call

A call receives the buffers of its upstream's result, creates and destroys buffers on the heap,
and hands the buffers in the slots to its caller when the status is OK. Under an error the caller
does not look at the slots, so nothing is handed over.
-/

set_option autoImplicit false

namespace ExtensionSdkMongodb

/-- The buffers a caller takes over with a reply. -/
def Reply.handedOver (r : Reply) : Multiset BufId :=
  if r.status.isOk then r.result.owned else 0

@[simp] theorem Reply.handedOver_ok (res : GetNextResult) :
    Reply.handedOver ⟨statusOk, res⟩ = res.owned := rfl

theorem Reply.handedOver_failed {status : Status} (bad : status.isOk = false)
    (res : GetNextResult) : Reply.handedOver ⟨status, res⟩ = 0 := by
  simp [Reply.handedOver, bad]

/-- The buffers taken over from an upstream between two counts of its answers, at most one apart. -/
def receivedBetween (source : Option Upstream) (before after : ℕ) : Multiset BufId :=
  if after = before then 0 else (source.map fun up => (up before).received).getD 0

@[simp] theorem receivedBetween_self (source : Option Upstream) (k : ℕ) :
    receivedBetween source k k = 0 := by
  simp [receivedBetween]

@[simp] theorem receivedBetween_succ (up : Upstream) (k : ℕ) :
    receivedBetween (some up) k (k + 1) = (up k).received := by
  simp [receivedBetween]

/-- An upstream's answer hands over what it was received with. -/
theorem handedOver_reply (slots : GetNextResult) (p : Pulled) :
    (p.reply slots).handedOver = p.received := by
  cases p with
  | success status okay result _ => rfl
  | failure status bad written => exact Reply.handedOver_failed bad _

/-- What a call does with buffers, read off its reply and the heap before and after. -/
def callLedger (received : Multiset BufId) (before after : Heap) (r : Reply) : Ledger BufId where
  received := received
  created := (after.allocated.drop before.allocated.length : List BufId)
  returned := r.handedOver
  destroyed := (after.destroyed.drop before.destroyed.length : List BufId)

/-- The heap grew by these buffers, of which the second ones were destroyed. -/
structure Heap.Grows (before after : Heap) (created destroyed : List BufId) : Prop where
  allocated : after.allocated = before.allocated ++ created
  destroyed : after.destroyed = before.destroyed ++ destroyed

namespace Heap.Grows

theorem rfl {heap : Heap} : Heap.Grows heap heap [] [] :=
  ⟨(List.append_nil _).symm, (List.append_nil _).symm⟩

theorem trans {first second third : Heap} {created destroyed created' destroyed' : List BufId}
    (one : Heap.Grows first second created destroyed)
    (two : Heap.Grows second third created' destroyed') :
    Heap.Grows first third (created ++ created') (destroyed ++ destroyed') := by
  refine ⟨?_, ?_⟩
  · rw [two.allocated, one.allocated, List.append_assoc]
  · rw [two.destroyed, one.destroyed, List.append_assoc]

theorem intoRawByteBuf (heap : Heap) (bytes : Bytes) :
    Heap.Grows heap (heap.intoRawByteBuf bytes).2 [(heap.intoRawByteBuf bytes).1.id] [] :=
  ⟨Eq.refl _, (List.append_nil _).symm⟩

/-- Releasing a container destroys the buffer it owns. -/
theorem releaseByteContainer (heap : Heap) (c : ByteContainer) :
    ∃ destroyed : List BufId, (destroyed : Multiset BufId) = c.owned ∧
      Heap.Grows heap (heap.releaseByteContainer c) [] destroyed := by
  match c with
  | .byteView _ => exact ⟨[], Eq.refl _, rfl⟩
  | .byteBuf none => exact ⟨[], Eq.refl _, rfl⟩
  | .byteBuf (some buf) =>
      exact ⟨[buf.id], Eq.refl _, (List.append_nil _).symm, Eq.refl _⟩

end Heap.Grows

/-- **A call is balanced when what it received and created is what it handed over and
destroyed.** -/
theorem callLedger_balanced_iff {received : Multiset BufId} {before after : Heap} {r : Reply}
    {created destroyed : List BufId} (grows : before.Grows after created destroyed) :
    (callLedger received before after r).Balanced ↔
      received + (created : Multiset BufId) = r.handedOver + (destroyed : Multiset BufId) := by
  simp only [Ledger.Balanced, callLedger, grows.allocated, grows.destroyed, List.drop_left']

end ExtensionSdkMongodb

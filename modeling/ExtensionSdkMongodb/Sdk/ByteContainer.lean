import ExtensionSdkMongodb.Data.Bson
import ExtensionSdkMongodb.Sdk.Error
import Mathlib.Algebra.Order.Group.Multiset

/-!
# Byte containers and results of `get_next`

A container holds a view, which is borrowed, or a buffer, whose ownership goes to whoever
receives the container. The memory of a view and the buffers are told apart by identities:
a buffer comes from an upstream stage or is one the stage allocated, and the heap of the
stage numbers what it allocates and records what it destroys.
-/

set_option autoImplicit false

namespace ExtensionSdkMongodb

/-! ## Buffers and containers -/

/-- The identity of a live buffer: one an upstream stage handed over, or one of our own. -/
inductive BufId where
  | upstream (n : ℕ)
  | allocated (n : ℕ)
  deriving DecidableEq, Repr

def BufId.isUpstream : BufId → Bool
  | .upstream _ => true
  | .allocated _ => false

/-- A `MongoExtensionByteBuf` with its bytes. -/
structure ByteBuf where
  id : BufId
  data : Bytes
  deriving DecidableEq, Repr

/-- A `MongoExtensionByteContainer`. A null view has no bytes; a buffer pointer can be null. -/
inductive ByteContainer where
  | byteView (bytes : Option Bytes)
  | byteBuf (buf : Option ByteBuf)
  deriving DecidableEq, Repr

namespace ByteContainer

/-- The container of `empty_view`, a null view. -/
def empty : ByteContainer := .byteView none

/-- The bytes a reader of the container sees. -/
def bytes : ByteContainer → Bytes
  | .byteView bytes => bytes.getD []
  | .byteBuf buf => (buf.map ByteBuf.data).getD []

/-- The buffer the receiver of the container owns, if any. -/
def owned : ByteContainer → Multiset BufId
  | .byteView _ => 0
  | .byteBuf none => 0
  | .byteBuf (some buf) => {buf.id}

@[simp] theorem owned_empty : empty.owned = 0 := rfl

@[simp] theorem owned_byteView (bytes : Option Bytes) : (byteView bytes).owned = 0 := rfl

@[simp] theorem owned_byteBuf (buf : ByteBuf) : (byteBuf (some buf)).owned = {buf.id} := rfl

end ByteContainer

/-! ## The heap of a stage -/

/-- The buffers a stage has allocated and destroyed. -/
structure Heap where
  allocated : List BufId
  destroyed : List BufId
  deriving DecidableEq, Repr

namespace Heap

def fresh : Heap := ⟨[], []⟩

/-- `into_raw_byte_buf`: a new buffer with these bytes. -/
def intoRawByteBuf (heap : Heap) (bytes : Bytes) : ByteBuf × Heap :=
  let id := BufId.allocated heap.allocated.length
  (⟨id, bytes⟩, { heap with allocated := heap.allocated ++ [id] })

/-- `byte_buf::from_bson`: encode, then allocate. Nothing is allocated when encoding fails. -/
def fromBson (codec : BsonCodec) (heap : Heap) (d : Document) : Except String (ByteBuf × Heap) :=
  (codec.encode d).map heap.intoRawByteBuf

/-- The `destroy` of the buffer's vtable. -/
def destroy (heap : Heap) (buf : ByteBuf) : Heap :=
  { heap with destroyed := heap.destroyed ++ [buf.id] }

/-- `release_byte_container`: destroys an owned buffer and leaves a borrowed view alone. -/
def releaseByteContainer (heap : Heap) : ByteContainer → Heap
  | .byteBuf (some buf) => heap.destroy buf
  | .byteBuf none => heap
  | .byteView _ => heap

end Heap

/-! ## Results of `get_next` -/

/-- `MongoExtensionGetNextResultCode`. -/
inductive ResultCode where
  | advanced
  | eof
  | pauseExecution
  deriving DecidableEq, Repr

/-- `MongoExtensionGetNextResult`, the caller's slots. -/
structure GetNextResult where
  code : ResultCode
  resultDocument : ByteContainer
  resultMetadata : ByteContainer
  deriving DecidableEq, Repr

namespace GetNextResult

/-- `set_eof_empty`. -/
def setEofEmpty : GetNextResult := ⟨.eof, .empty, .empty⟩

/-- The buffers the receiver of the result owns. -/
def owned (res : GetNextResult) : Multiset BufId :=
  res.resultDocument.owned + res.resultMetadata.owned

@[simp] theorem owned_setEofEmpty : setEofEmpty.owned = 0 := rfl

end GetNextResult

/-- The result of an upstream stage owns no buffer twice, and none of the receiver's. -/
def GetNextResult.Exclusive (res : GetNextResult) : Prop :=
  res.owned.Nodup ∧ ∀ b ∈ res.owned, b.isUpstream = true

instance (res : GetNextResult) : Decidable res.Exclusive :=
  inferInstanceAs (Decidable (_ ∧ _))

/-- What a `get_next` call leaves its caller with: a status and the slots. -/
structure Reply where
  status : Status
  result : GetNextResult
  deriving DecidableEq, Repr

/-- What a caller reads off a result with an OK status. -/
structure Contents where
  code : ResultCode
  document : Bytes
  metadata : Bytes
  deriving DecidableEq, Repr

def GetNextResult.contents (res : GetNextResult) : Contents :=
  ⟨res.code, res.resultDocument.bytes, res.resultMetadata.bytes⟩

/-- What a caller reads off a reply: the slots count only under an OK status. -/
def Reply.contents (r : Reply) : Except Status Contents :=
  if r.status.isOk then .ok r.result.contents else .error r.status

/-! ## Upstream stages -/

/-- One answer of an upstream `get_next`. A null status and a status with code `0` mean
success, and then all three slots are written and the buffers in them are handed over. Under an
error the slots may be left alone. -/
inductive Pulled where
  | success (status : Option Status) (okay : ∀ st ∈ status, st.isOk = true)
      (result : GetNextResult) (exclusive : result.Exclusive)
  | failure (status : Status) (bad : status.isOk = false) (written : Option GetNextResult)

namespace Pulled

/-- The answer, as a caller with these slots sees it. -/
def reply (res : GetNextResult) : Pulled → Reply
  | .success _ _ result _ => ⟨statusOk, result⟩
  | .failure status _ written => ⟨status, written.getD res⟩

/-- A result with a null status. -/
def ofResult (result : GetNextResult) (exclusive : result.Exclusive) : Pulled :=
  .success none (by simp) result exclusive

/-- The upstream handed over a row. -/
def Advances : Pulled → Prop
  | .success _ _ result _ => result.code = .advanced
  | .failure .. => False

/-- The upstream reported its end. -/
def Ends : Pulled → Prop
  | .success _ _ result _ => result.code = .eof
  | .failure .. => False

instance (p : Pulled) : Decidable p.Advances :=
  match p with
  | .success _ _ result _ => inferInstanceAs (Decidable (result.code = .advanced))
  | .failure .. => inferInstanceAs (Decidable False)

instance (p : Pulled) : Decidable p.Ends :=
  match p with
  | .success _ _ result _ => inferInstanceAs (Decidable (result.code = .eof))
  | .failure .. => inferInstanceAs (Decidable False)

/-- The buffers the answer hands over under an OK status. -/
def received : Pulled → Multiset BufId
  | .success _ _ result _ => result.owned
  | .failure .. => 0

end Pulled

/-- An upstream executable stage: its answers, in the order of the calls. -/
abbrev Upstream := ℕ → Pulled

end ExtensionSdkMongodb

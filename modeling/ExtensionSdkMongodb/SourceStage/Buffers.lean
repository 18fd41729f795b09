import ExtensionSdkMongodb.Sdk.CallLedger
import ExtensionSdkMongodb.SourceStage.Generator

/-!
# Buffers of the source stage

Every call of `get_next` has a ledger. A forwarding call is balanced. A generating call loses
buffers in two ways: the end that sent it to the generator carries buffers, which the generator
overwrites or leaves under an error, and the metadata of a row does not encode after its
document did. `balanced_iff` says that these two are all, so a run is balanced along its calls
if and only if it avoids them (`execGetNext_balanced_iff`).
-/

set_option autoImplicit false

namespace ExtensionSdkMongodb.SourceStage

variable {ω : Type} (codec : BsonCodec) (ops : SourceOps ω)

/-! ## The ledger of a call -/

/-- The ledger of a call of `get_next`. -/
def getNextLedger (s : Stage ω) (frame : Frame) : Ledger BufId :=
  let (r, after) := execGetNext codec ops s frame
  callLedger (receivedBetween s.exec.source s.pulls after.pulls) s.heap after.heap r

/-! ## The two leaks -/

/-- The hooks failed with a status that reads as OK, so the caller takes the slots. Only a host
error with code `0` does. -/
def FailsAsOk : HookOutcome ExtensionError Next → Prop
  | .error fault => (faultStatus fault).isOk = true
  | .ok _ => False

/-- A row whose document encodes and whose metadata does not. -/
def Orphans : HookOutcome ExtensionError Next → Prop
  | .ok (.advanced document (some metaDoc)) =>
    (∃ bytes, codec.encode document = .ok bytes) ∧ ∃ e, codec.encode metaDoc = .error e
  | .ok (.advanced _ none) | .ok .eof | .error _ => False

/-- A generating call that leaks, from the slots it starts with: they own buffers that nobody
takes, or the row orphans its document. -/
def GeneratorLeaks (queryCtx : Option ℕ) (res : GetNextResult) (s : Stage ω) : Prop :=
  let outcome := (runHooks codec ops queryCtx s).1
  if s.exec.generatorDone then res.owned ≠ 0
  else (res.owned ≠ 0 ∧ ¬ FailsAsOk outcome) ∨ Orphans codec outcome

/-- A call that leaks: it generates, after an upstream's end or at once, and the generating part
leaks. -/
def Leaks (s : Stage ω) (frame : Frame) : Prop :=
  match route ops s frame with
  | .refused | .silent | .forward _ => False
  | .generate res pulls => GeneratorLeaks codec ops frame.queryCtx res (s.generating pulls)

/-! ## Generating calls -/

/-- The buffers a closure puts in the slots. -/
def closureOwned : HookOutcome ExtensionError GetNextResult → Multiset BufId
  | .error _ => 0
  | .ok res => res.owned

theorem openState_heap (argsDoc : Document) (s : Stage ω) :
    (openState ops argsDoc s).2.heap = s.heap := by
  unfold openState
  split
  · rfl
  · split <;> rfl

theorem runHooks_heap (queryCtx : Option ℕ) (s : Stage ω) :
    (runHooks codec ops queryCtx s).2.heap = s.heap := by
  unfold runHooks
  cases codec.decode s.exec.args with
  | error e => rfl
  | ok argsDoc =>
      have heap := openState_heap ops argsDoc s
      simp only
      generalize openState ops argsDoc s = opened at heap ⊢
      obtain ⟨_ | _, s'⟩ := opened
      · exact heap
      · exact heap

/-- A row creates what it puts in the slots, or, when its metadata does not encode, the buffer of
its document. -/
theorem writeRow_buffers (document : Document) (metadata : Option Document) (s : Stage ω) :
    ∃ created, s.heap.Grows (writeRow codec document metadata s).2.heap created [] ∧
      (Orphans codec (.ok (.advanced document metadata)) → created ≠ [] ∧
        ∃ e, (writeRow codec document metadata s).1 = .error (.error (.failedToParse e))) ∧
      (¬ Orphans codec (.ok (.advanced document metadata)) →
        (created : Multiset BufId) = closureOwned (writeRow codec document metadata s).1 ∧
        ∀ fault, (writeRow codec document metadata s).1 = .error fault →
          ∃ e, fault = .error (.failedToParse e)) := by
  unfold writeRow Heap.fromBson
  cases bytes : codec.encode document with
  | error e =>
      refine ⟨[], .rfl, ?_, ?_⟩
      · intro orphans
        cases metadata with
        | none => exact orphans.elim
        | some metaDoc => simp [Orphans, bytes] at orphans
      · intro _
        exact ⟨rfl, fun fault failed => by cases failed; exact ⟨e, rfl⟩⟩
  | ok raw =>
      have first := Heap.Grows.intoRawByteBuf s.heap raw
      cases metadata with
      | none =>
          refine ⟨_, first, fun orphans => orphans.elim, fun _ => ⟨?_, ?_⟩⟩
          · simp [Except.map, closureOwned, GetNextResult.owned]
          · intro fault failed
            cases failed
      | some metaDoc =>
          simp only [Except.map]
          cases metaBytes : codec.encode metaDoc with
          | error e =>
              refine ⟨_, first, ?_, ?_⟩
              · intro _
                exact ⟨List.cons_ne_nil _ _, e, rfl⟩
              · intro kept
                exact absurd ⟨⟨raw, bytes⟩, e, metaBytes⟩ kept
          | ok mraw =>
              have second := Heap.Grows.intoRawByteBuf (s.heap.intoRawByteBuf raw).2 mraw
              refine ⟨_, first.trans second, ?_, ?_⟩
              · rintro ⟨_, e, failed⟩
                simp [metaBytes] at failed
              · intro _
                exact ⟨rfl, fun fault failed => by cases failed⟩

theorem failedToParse_not_ok (e : String) :
    (faultStatus (.error (.failedToParse e))).isOk = false := rfl

/-- What the closure makes of what `next` returned is taken over by the caller, unless a row was
orphaned, and buffers in the slots are kept by a failure that reads as OK only. -/
theorem deliver_buffers (outcome : HookOutcome ExtensionError Next) (res : GetNextResult)
    (s : Stage ω) :
    ∃ created, s.heap.Grows (deliver codec ops outcome s).2.heap created [] ∧
      (res.owned + (created : Multiset BufId) =
          (closureReply res (deliver codec ops outcome s).1).handedOver ↔
        ¬ ((res.owned ≠ 0 ∧ ¬ FailsAsOk outcome) ∨ Orphans codec outcome)) := by
  rcases outcome with fault | (⟨document, metadata⟩ | _)
  · refine ⟨[], .rfl, ?_⟩
    cases okay : (faultStatus fault).isOk <;>
      simp [deliver, closureReply, Reply.handedOver, FailsAsOk, Orphans, okay]
  · obtain ⟨created, grows, orphaned, kept⟩ := writeRow_buffers codec document metadata s
    refine ⟨created, grows, ?_⟩
    simp only [deliver]
    by_cases orphans : Orphans codec (.ok (.advanced document metadata))
    · obtain ⟨nonempty, e, failed⟩ := orphaned orphans
      have lost : res.owned + (created : Multiset BufId) ≠ 0 := by
        intro zero
        have card := congrArg Multiset.card zero
        simp only [Multiset.card_add, Multiset.coe_card, Multiset.card_zero] at card
        exact nonempty (List.length_eq_zero_iff.mp (by omega))
      simp [failed, closureReply, Reply.handedOver, failedToParse_not_ok, orphans, lost]
    · obtain ⟨same, failed⟩ := kept orphans
      rcases row : (writeRow codec document metadata s).1 with fault | result
      · obtain ⟨e, rfl⟩ := failed fault row
        rw [row] at same
        simp [closureReply, Reply.handedOver, failedToParse_not_ok, orphans, FailsAsOk, same,
          closureOwned]
      · rw [row] at same
        simp [closureReply, orphans, FailsAsOk, same, closureOwned]
  · simp only [deliver, finish]
    rcases ops.dropState s.exec.state s.hooks with ⟨_ | _, hooks⟩
    · refine ⟨[], .rfl, ?_⟩
      simp [closureReply, Reply.handedOver, faultStatus, ExtensionError.intoRawStatus,
        ExtensionError.statusCode, FailsAsOk, Orphans]
    · refine ⟨[], .rfl, ?_⟩
      simp [closureReply, FailsAsOk, Orphans]

/-- **A generating call takes what the slots own and what it creates to its caller, if and only
if it does not leak.** -/
theorem getNextGenerator_buffers (queryCtx : Option ℕ) (res : GetNextResult) (s : Stage ω) :
    ∃ created, s.heap.Grows (getNextGenerator codec ops queryCtx res s).2.heap created [] ∧
      (res.owned + (created : Multiset BufId) =
          (getNextGenerator codec ops queryCtx res s).1.handedOver ↔
        ¬ GeneratorLeaks codec ops queryCtx res s) := by
  unfold getNextGenerator GeneratorLeaks
  cases s.exec.generatorDone with
  | true =>
      refine ⟨[], .rfl, ?_⟩
      simp
  | false =>
      obtain ⟨created, grows, taken⟩ := deliver_buffers codec ops
        (runHooks codec ops queryCtx s).1 res (runHooks codec ops queryCtx s).2
      rw [runHooks_heap codec ops] at grows
      exact ⟨created, grows, taken⟩

/-! ## Every call -/

section Received

variable {ops}

/-- The slots a generating call starts with own exactly what the call received. -/
theorem received_of_generate {s : Stage ω} {frame : Frame} {res : GetNextResult} {pulls : ℕ}
    (generates : route ops s frame = .generate res pulls) :
    receivedBetween s.exec.source s.pulls pulls = res.owned := by
  unfold route at generates
  split at generates
  · cases generates
    simp [frame.vacant]
  · split at generates <;> cases generates
  · split at generates
    · cases generates
    · cases generates
      simp [frame.vacant]
    · split at generates
      · cases generates
        simp [frame.vacant]
      · next up source =>
        split at generates
        · cases generates
        · next status okay result _ answer =>
          split at generates
          · cases generates
            simp [source, answer, Pulled.received]
          · cases generates

theorem received_of_forward {s : Stage ω} {frame : Frame} {up : Upstream}
    (forwards : route ops s frame = .forward up) :
    receivedBetween s.exec.source s.pulls (s.forwarded up).pulls = (up s.pulls).received := by
  have source : s.exec.source = some up := by
    unfold route at forwards
    split at forwards
    · cases forwards
    · split at forwards
      · next source =>
        cases forwards
        exact source
      · cases forwards
    · split at forwards
      · cases forwards
      · cases forwards
      · split at forwards
        · cases forwards
        · next source =>
          split at forwards
          · cases forwards
            exact source
          · split at forwards
            · cases forwards
            · cases forwards
              exact source
  rw [source, pulls_forwarded, receivedBetween_succ]

end Received

/-- **A call is balanced if and only if it does not leak.** -/
theorem balanced_iff (s : Stage ω) (frame : Frame) :
    (getNextLedger codec ops s frame).Balanced ↔ ¬ Leaks codec ops s frame := by
  unfold getNextLedger Leaks
  rw [execGetNext_eq]
  cases routed : route ops s frame with
  | refused =>
      have bad : propertiesPanic.isOk = false := rfl
      simp only [callLedger_balanced_iff Heap.Grows.rfl, Reply.handedOver_failed bad]
      simp
  | silent =>
      simp only [callLedger_balanced_iff Heap.Grows.rfl, Reply.handedOver_ok, frame.vacant]
      simp
  | forward up =>
      have grows : s.heap.Grows (s.forwarded up).heap [] [] := by
        rw [heap_forwarded]
        exact .rfl
      simp only [callLedger_balanced_iff grows, handedOver_reply, received_of_forward routed]
      simp
  | generate res pulls =>
      obtain ⟨created, grows, taken⟩ := getNextGenerator_buffers codec ops
        frame.queryCtx res (s.generating pulls)
      obtain ⟨_, _, same⟩ := getNextGenerator_pull codec ops frame.queryCtx res (s.generating pulls)
      have heap : (s.generating pulls).heap = s.heap := rfl
      have pulls : (s.generating pulls).pulls = pulls := rfl
      rw [heap] at grows
      simp only [callLedger_balanced_iff grows, same.pulls, pulls, received_of_generate routed]
      simpa using taken

/-- **The buffers of a source stage are conserved along a run if and only if no call of the run
leaks.** -/
theorem execGetNext_balanced_iff (s : Stage ω) (frames : List Frame) :
    (execGetNext codec ops).Along (fun s frame => (getNextLedger codec ops s frame).Balanced)
        s frames ↔
      (execGetNext codec ops).Along (fun s frame => ¬ Leaks codec ops s frame) s frames :=
  Machine.along_congr (fun s frame => balanced_iff codec ops s frame) s frames

/-- In a call that does not leak, every buffer that came in is handed over or destroyed, once. -/
theorem buffer_once (s : Stage ω) (frame : Frame) (kept : ¬ Leaks codec ops s frame)
    (distinct : ((getNextLedger codec ops s frame).received +
      (getNextLedger codec ops s frame).created).Nodup) {b : BufId}
    (came : b ∈ (getNextLedger codec ops s frame).received +
      (getNextLedger codec ops s frame).created) :
    ((getNextLedger codec ops s frame).returned.count b = 1 ∧
        (getNextLedger codec ops s frame).destroyed.count b = 0) ∨
      ((getNextLedger codec ops s frame).returned.count b = 0 ∧
        (getNextLedger codec ops s frame).destroyed.count b = 1) :=
  ((balanced_iff codec ops s frame).mpr kept).exactly_one distinct came

/-! ## Both leaks happen -/

/-- The BSON codec on the document without fields and on one whose key has a NUL. -/
def nulCodec : BsonCodec where
  encode d :=
    match d with
    | [] => .ok [5, 0, 0, 0, 0]
    | [("a\x00", .null)] => .error "cstrings cannot contain null bytes"
    | _ => .error "not used"
  decode bytes := if bytes = [5, 0, 0, 0, 0] then .ok [] else .error "unexpected end of file"

/-- A table of one row with metadata, or of no row. -/
def oneRow (metadata : Option (Option Document)) : SourceOps Unit where
  openFromDoc := fun _ _ hooks => (.ok (some 1), hooks)
  dropState := fun _ hooks => (some (), hooks)
  next := fun _ _ hooks =>
    match metadata with
    | some metadata => (.ok (.advanced [] metadata), hooks)
    | none => (.ok .eof, hooks)
  staticPropertiesDoc := some []

/-- An upstream that ends with metadata in a buffer. -/
def endWithMetadata : Upstream := fun _ =>
  .ofResult ⟨.eof, .empty, .byteBuf (some ⟨.upstream 0, [5, 0, 0, 0, 0]⟩)⟩ (by decide)

/-- The end's metadata buffer is overwritten by the generator's end; and the document of a row
whose metadata does not encode is dropped as a raw pointer. -/
theorem getNextLedger_leaks :
    let ended := getNextLedger nulCodec (oneRow none)
      (execSetSource (.compiled (execAlloc [5, 0, 0, 0, 0] none) ()) (some endWithMetadata)) .blank
    let orphaned := getNextLedger nulCodec (oneRow (some (some [("a\x00", .null)])))
      (.compiled (execAlloc [5, 0, 0, 0, 0] none) ()) .blank
    (ended.received = {.upstream 0} ∧ ended.returned = 0 ∧ ended.destroyed = 0 ∧
        ¬ ended.Balanced) ∧
      orphaned.created = {.allocated 0} ∧ orphaned.returned = 0 ∧ orphaned.destroyed = 0 ∧
        ¬ orphaned.Balanced := by
  decide

end ExtensionSdkMongodb.SourceStage

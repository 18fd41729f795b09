import ExtensionSdkMongodb.MapTransform.Exec

/-!
# Runs of a map stage

What a call of a map stage replies depends on its upstream's answer to it and on two facts about
the answers before: whether a row was among them, and whether the upstream's first end was. The
stage's flags record exactly these facts (`History`), so every call of every run replies what
`Owes` says (`execGetNext_maps`).
-/

set_option autoImplicit false

namespace ExtensionSdkMongodb.MapTransform

/-! ## What is owed -/

section Owed

variable (codec : BsonCodec) (mg : MapStageGlobals) (args : Bytes)

/-- `transform` of a row and the arguments, encoded. -/
def mappedRow (row : ByteContainer) : HookOutcome String Bytes := do
  let row ← fallible (documentFromByteContainer codec row)
  let args ← fallible (codec.decode args)
  let out ← mg.transform row args
  fallible (codec.encode out)

/-- `on_eof` of the arguments, encoded. -/
def emptyInputRow (onEof : Document → HookOutcome String Document) : HookOutcome String Bytes := do
  let args ← fallible (codec.decode args)
  let out ← onEof args
  fallible (codec.encode out)

/-- A reply with a computed row: the row over the given metadata, or the failure's status. -/
def RowReply (outcome : HookOutcome String Bytes) (panicText : String) (metadata : ByteContainer)
    (r : Reply) : Prop :=
  match outcome with
  | .ok bytes =>
    r.status = statusOk ∧ r.result.code = .advanced ∧ r.result.resultDocument.bytes = bytes ∧
      r.result.resultMetadata = metadata
  | .error fault => r.status = faultStatus panicText fault

/-- What a map stage over an upstream replies at an end: the end, once a row was seen or the first
end is past; the row of `on_eof` at the first end; and a failure of `on_eof` at every end. -/
def OwesEnd (up : Upstream) (i : ℕ) (res : GetNextResult) (r : Reply) : Prop :=
  match mg.onEofNoRows with
  | none => r = ⟨statusOk, res⟩
  | some onEof =>
    ((∃ j < i, (up j).Advances) → r = ⟨statusOk, res⟩) ∧
    ((∀ j < i, ¬ (up j).Advances) →
      match emptyInputRow codec args onEof with
      | .error fault => r.status = faultStatus "panic during on_eof_no_rows" fault
      | .ok bytes =>
        (up.EndsFirst 0 i → RowReply (.ok bytes) "panic during on_eof_no_rows" .empty r) ∧
        (¬ up.EndsFirst 0 i → r = ⟨statusOk, res⟩))

/-- What a map stage over an upstream replies to its call at a position. -/
def Owes (up : Upstream) (i : ℕ) (frame : Frame) (r : Reply) : Prop :=
  match up i with
  | .failure .. => r = (up i).reply frame.result
  | .success _ _ res _ =>
    match res.code with
    | .advanced =>
      RowReply (mappedRow codec mg args res.resultDocument) "panic during map transform"
        res.resultMetadata r
    | .pauseExecution => r = ⟨statusOk, res⟩
    | .eof => OwesEnd codec mg args up i res r

/-- The stage has a row for an upstream without rows. -/
def SyntheticOk : Prop :=
  ∃ onEof bytes, mg.onEofNoRows = some onEof ∧ emptyInputRow codec args onEof = .ok bytes

/-- What a stage remembers after a number of calls. -/
structure History (up : Upstream) (k : ℕ) (s : Stage) : Prop where
  argsBytes : s.exec.args = args
  source : s.exec.source = some up
  pulls : s.pulls = k
  seen : s.exec.sawUpstreamAdvanced = true ↔ ∃ j < k, (up j).Advances
  emitted : s.exec.emittedEofSynthetic = true ↔
    SyntheticOk codec mg args ∧ ∃ j < k, up.EndsFirst 0 j

end Owed

/-! ## Rows and buffers -/

variable {codec : BsonCodec} {mg : MapStageGlobals} {args : Bytes}

theorem fallible_fromBson (heap : Heap) (d : Document) :
    fallible (heap.fromBson codec d) = heap.intoRawByteBuf <$> fallible (codec.encode d) := by
  unfold Heap.fromBson
  cases codec.encode d <;> rfl

/-- The closure of the advanced branch puts the mapped row in a new buffer. -/
theorem mapRow_eq (row : ByteContainer) (heap : Heap) :
    mapRow codec mg args (documentFromByteContainer codec row) heap =
      heap.intoRawByteBuf <$> mappedRow codec mg args row := by
  simp only [mapRow, mappedRow, map_bind, fallible_fromBson]

/-- The closure of the end branch puts the row of `on_eof` in a new buffer. -/
theorem synthesize_eq (onEof : Document → HookOutcome String Document) (heap : Heap) :
    synthesize codec onEof args heap =
      heap.intoRawByteBuf <$> emptyInputRow codec args onEof := by
  simp only [synthesize, emptyInputRow, map_bind, fallible_fromBson]

section Branches

variable (codec mg)

theorem advancedRow_ok {res : GetNextResult} {s : Stage} {bytes : Bytes}
    (mapped : mappedRow codec mg s.exec.args res.resultDocument = .ok bytes) :
    advancedRow codec mg res s =
      let (raw, heap) := (s.heap.releaseByteContainer res.resultDocument).intoRawByteBuf bytes
      (⟨statusOk, { res with resultDocument := .byteBuf (some raw) }⟩, { s with heap }) := by
  simp only [advancedRow, mapRow_eq, mapped]
  rfl

theorem advancedRow_failed {res : GetNextResult} {s : Stage} {fault : Fault String}
    (mapped : mappedRow codec mg s.exec.args res.resultDocument = .error fault) :
    advancedRow codec mg res s =
      let (heap, res) := releaseOwnedMetadata (s.heap.releaseByteContainer res.resultDocument)
        { res with resultDocument := .empty }
      (⟨faultStatus "panic during map transform" fault, res⟩, { s with heap }) := by
  simp only [advancedRow, mapRow_eq, mapped]
  rfl

theorem syntheticRow_ok {onEof : Document → HookOutcome String Document} {res : GetNextResult}
    {s : Stage} {bytes : Bytes} (made : emptyInputRow codec s.exec.args onEof = .ok bytes) :
    syntheticRow codec onEof res s =
      let (raw, heap) := s.heap.intoRawByteBuf bytes
      (⟨statusOk, ⟨.advanced, .byteBuf (some raw), .empty⟩⟩,
        { s with
          heap := (releaseOwnedMetadata heap res).1, exec.emittedEofSynthetic := true }) := by
  simp only [syntheticRow, synthesize_eq, made]
  rfl

theorem syntheticRow_failed {onEof : Document → HookOutcome String Document} {res : GetNextResult}
    {s : Stage} {fault : Fault String}
    (made : emptyInputRow codec s.exec.args onEof = .error fault) :
    syntheticRow codec onEof res s =
      let (heap, res) := releaseOwnedMetadata s.heap res
      (⟨faultStatus "panic during on_eof_no_rows" fault, res⟩, { s with heap }) := by
  simp only [syntheticRow, synthesize_eq, made]
  rfl

/-- The advanced branch replies with the mapped row and remembers nothing. -/
theorem advancedRow_spec (res : GetNextResult) (s : Stage) (advanced : res.code = .advanced) :
    RowReply (mappedRow codec mg s.exec.args res.resultDocument) "panic during map transform"
        res.resultMetadata (advancedRow codec mg res s).1 ∧
      ∃ heap, (advancedRow codec mg res s).2 = { s with heap } := by
  cases mapped : mappedRow codec mg s.exec.args res.resultDocument with
  | error fault =>
      rw [advancedRow_failed codec mg mapped]
      exact ⟨rfl, _, rfl⟩
  | ok bytes =>
      rw [advancedRow_ok codec mg mapped]
      exact ⟨⟨rfl, advanced, rfl, rfl⟩, _, rfl⟩

/-- The end branch replies with the row of `on_eof` and remembers its success. -/
theorem syntheticRow_spec (onEof : Document → HookOutcome String Document) (res : GetNextResult)
    (s : Stage) :
    RowReply (emptyInputRow codec s.exec.args onEof) "panic during on_eof_no_rows" .empty
        (syntheticRow codec onEof res s).1 ∧
      ∃ heap, (syntheticRow codec onEof res s).2 =
        { s with
          heap
          exec.emittedEofSynthetic :=
            s.exec.emittedEofSynthetic || (emptyInputRow codec s.exec.args onEof).isOk } := by
  cases made : emptyInputRow codec s.exec.args onEof with
  | error fault =>
      rw [syntheticRow_failed codec made]
      refine ⟨rfl, (releaseOwnedMetadata s.heap res).1, ?_⟩
      simp [Except.isOk, Except.toBool]
  | ok bytes =>
      rw [syntheticRow_ok codec made]
      refine ⟨⟨rfl, rfl, rfl, rfl⟩,
        (releaseOwnedMetadata (s.heap.intoRawByteBuf bytes).2 res).1, ?_⟩
      simp [Except.isOk, Except.toBool]

end Branches

/-! ## One call -/

section Step

variable {up : Upstream} {k : ℕ} {s : Stage}

/-- An answer that is neither a row nor an end leaves what a stage remembers as it is. -/
theorem History.succ (history : History codec mg args up k s) (advances : ¬ (up k).Advances)
    (ends : ¬ (up k).Ends) : History codec mg args up (k + 1) { s with pulls := s.pulls + 1 } where
  argsBytes := history.argsBytes
  source := history.source
  pulls := congrArg (· + 1) history.pulls
  seen := by
    rw [Nat.exists_lt_succ_right, or_iff_left advances]
    exact history.seen
  emitted := by
    rw [Nat.exists_lt_succ_right, or_iff_left fun first => ends first.2.1]
    exact history.emitted

/-- After a row the stage remembers it, whatever became of it. -/
theorem History.succ_row (history : History codec mg args up k s) (advances : (up k).Advances)
    (heap : Heap) :
    History codec mg args up (k + 1)
      { s with pulls := s.pulls + 1, exec.sawUpstreamAdvanced := true, heap } where
  argsBytes := history.argsBytes
  source := history.source
  pulls := congrArg (· + 1) history.pulls
  seen := ⟨fun _ => ⟨k, Nat.lt_succ_self k, advances⟩, fun _ => rfl⟩
  emitted := by
    rw [Nat.exists_lt_succ_right,
      or_iff_left fun first => Upstream.not_ends_of_advances advances first.2.1]
    exact history.emitted

/-- After an end the stage remembers whether it emitted its row. -/
theorem History.succ_end (history : History codec mg args up k s) (advances : ¬ (up k).Advances)
    {emitted : Bool} (heap : Heap)
    (emits : emitted = true ↔
      s.exec.emittedEofSynthetic = true ∨ (SyntheticOk codec mg args ∧ up.EndsFirst 0 k)) :
    History codec mg args up (k + 1)
      { s with pulls := s.pulls + 1, exec.emittedEofSynthetic := emitted, heap } where
  argsBytes := history.argsBytes
  source := history.source
  pulls := congrArg (· + 1) history.pulls
  seen := by
    rw [Nat.exists_lt_succ_right, or_iff_left advances]
    exact history.seen
  emitted := by
    rw [Nat.exists_lt_succ_right, and_or_left, ← history.emitted]
    exact emits

/-- At an end that the flags do not rule out, the end is the first one exactly when nothing was
emitted; under a working `on_eof` that is always so. -/
theorem History.endsFirst_of_unseen (history : History codec mg args up k s) (ends : (up k).Ends)
    (rowless : ∀ j < k, ¬ (up j).Advances) (works : SyntheticOk codec mg args)
    (unemitted : s.exec.emittedEofSynthetic = false) : up.EndsFirst 0 k := by
  obtain ⟨j, le, first⟩ := Upstream.exists_endsFirst (Nat.zero_le k) ends fun j _ => rowless j
  rcases Nat.eq_or_lt_of_le le with rfl | before
  · exact first
  · have emitted := history.emitted.mpr ⟨works, j, before, first⟩
    simp [unemitted] at emitted

/-- After a row no end is the first. -/
theorem History.late_of_seen (history : History codec mg args up k s)
    (seen : s.exec.sawUpstreamAdvanced = true) : ¬ up.EndsFirst 0 k := by
  obtain ⟨j, before, row⟩ := history.seen.mp seen
  intro first
  exact (first.2.2 j (Nat.zero_le j) before).2 row

/-- After the row of `on_eof` no end is the first. -/
theorem History.late_of_emitted (history : History codec mg args up k s)
    (emitted : s.exec.emittedEofSynthetic = true) : ¬ up.EndsFirst 0 k := by
  obtain ⟨_, j, before, first⟩ := history.emitted.mp emitted
  intro again
  have same := Upstream.endsFirst_unique first again
  omega

theorem History.rowless (history : History codec mg args up k s)
    (seen : s.exec.sawUpstreamAdvanced = false) : ¬ ∃ j < k, (up j).Advances := by
  rw [← history.seen, seen]
  exact Bool.false_ne_true

/-- A hook works exactly if its row can be made. -/
theorem syntheticOk_iff {onEof : Document → HookOutcome String Document}
    (hook : mg.onEofNoRows = some onEof) :
    SyntheticOk codec mg args ↔ ∃ bytes, emptyInputRow codec args onEof = .ok bytes := by
  simp [SyntheticOk, hook]

/-- The reply and the memory of a call at an upstream's end. -/
theorem mapResult_end (history : History codec mg args up k s) {res : GetNextResult}
    (ended : res.code = .eof) (advances : ¬ (up k).Advances) (ends : (up k).Ends) :
    OwesEnd codec mg args up k res (mapResult codec mg res { s with pulls := s.pulls + 1 }).1 ∧
      History codec mg args up (k + 1)
        (mapResult codec mg res { s with pulls := s.pulls + 1 }).2 := by
  obtain rfl := history.argsBytes
  have plain : ¬ (SyntheticOk codec mg s.exec.args ∧ up.EndsFirst 0 k) →
      History codec mg s.exec.args up (k + 1) { s with pulls := s.pulls + 1 } := by
    intro quiet
    exact history.succ_end advances s.heap (or_iff_left quiet).symm
  unfold OwesEnd mapResult
  rw [ended]
  cases seen : s.exec.sawUpstreamAdvanced with
  | true =>
      have late := history.late_of_seen seen
      obtain ⟨j, before, row⟩ := history.seen.mp seen
      refine ⟨?_, plain fun quiet => late quiet.2⟩
      cases mg.onEofNoRows with
      | none => rfl
      | some onEof => exact ⟨fun _ => rfl, fun rowless => absurd row (rowless j before)⟩
  | false =>
      have unseen := history.rowless seen
      have rowless : ∀ j < k, ¬ (up j).Advances := fun j before row => unseen ⟨j, before, row⟩
      cases emitted : s.exec.emittedEofSynthetic with
      | true =>
          have late := history.late_of_emitted emitted
          obtain ⟨⟨onEof, bytes, hook, made⟩, _⟩ := history.emitted.mp emitted
          refine ⟨?_, plain fun quiet => late quiet.2⟩
          simp only [hook, made]
          refine ⟨fun seen' => absurd seen' unseen, ?_⟩
          intro _
          exact ⟨fun again => absurd again late, fun _ => rfl⟩
      | false =>
          simp only [Bool.or_self, Bool.false_eq_true, if_false]
          cases hook : mg.onEofNoRows with
          | none =>
              refine ⟨rfl, plain ?_⟩
              rintro ⟨⟨onEof, _, some_hook, _⟩, _⟩
              simp [hook] at some_hook
          | some onEof =>
              obtain ⟨row, heap, stage⟩ := syntheticRow_spec codec onEof res
                { s with pulls := s.pulls + 1 }
              simp only [stage]
              cases made : emptyInputRow codec s.exec.args onEof with
              | error fault =>
                  rw [made] at row
                  have fails : ¬ SyntheticOk codec mg s.exec.args := by
                    rw [syntheticOk_iff hook, made]
                    simp
                  refine ⟨⟨fun seen' => absurd seen' unseen, fun _ => row⟩, ?_⟩
                  apply history.succ_end advances heap
                  simp [fails, Except.isOk, Except.toBool]
              | ok bytes =>
                  have works := (syntheticOk_iff hook).mpr ⟨bytes, made⟩
                  have first := history.endsFirst_of_unseen ends rowless works emitted
                  rw [made] at row
                  refine ⟨⟨fun seen' => absurd seen' unseen, ?_⟩, ?_⟩
                  · intro _
                    exact ⟨fun _ => row, fun later => absurd first later⟩
                  · apply history.succ_end advances heap
                    simp [works, first, Except.isOk, Except.toBool]

/-- **Every call replies what it owes and keeps the history.** -/
theorem execGetNext_step (history : History codec mg args up k s) (frame : Frame) :
    Owes codec mg args up k frame (execGetNext codec mg s frame).1 ∧
      History codec mg args up (k + 1) (execGetNext codec mg s frame).2 := by
  have calls : execGetNext codec mg s frame =
      match up k with
      | .failure status _ written =>
        (⟨status, written.getD frame.result⟩, { s with pulls := s.pulls + 1 })
      | .success _ _ res _ => mapResult codec mg res { s with pulls := s.pulls + 1 } := by
    rcases answer : up k with _ | _ <;>
      simp [execGetNext, history.source, history.pulls, answer]
  rw [calls]
  cases answer : up k with
  | failure status bad written =>
      have advances : ¬ (up k).Advances := by simp [answer, Pulled.Advances]
      have ends : ¬ (up k).Ends := by simp [answer, Pulled.Ends]
      refine ⟨?_, history.succ advances ends⟩
      simp only [Owes, answer]
      rfl
  | success status okay res exclusive =>
      cases code : res.code with
      | advanced =>
          have advances : (up k).Advances := by simp [answer, Pulled.Advances, code]
          obtain rfl := history.argsBytes
          obtain ⟨row, heap, stage⟩ := advancedRow_spec codec mg res
            { s with pulls := s.pulls + 1, exec.sawUpstreamAdvanced := true } code
          simp only [Owes, answer, mapResult, code, stage]
          exact ⟨row, history.succ_row advances heap⟩
      | eof =>
          have advances : ¬ (up k).Advances := by simp [answer, Pulled.Advances, code]
          have ends : (up k).Ends := by simp [answer, Pulled.Ends, code]
          simp only [Owes, answer, code]
          exact mapResult_end history code advances ends
      | pauseExecution =>
          have advances : ¬ (up k).Advances := by simp [answer, Pulled.Advances, code]
          have ends : ¬ (up k).Ends := by simp [answer, Pulled.Ends, code]
          simp only [Owes, answer, mapResult, code]
          exact ⟨trivial, history.succ advances ends⟩

end Step

/-! ## Whole runs -/

section Run

/-- A stage with its source, before the first call. -/
def start (args : Bytes) (up : Upstream) : Stage :=
  execSetSource (.compiled (execAlloc args)) (some up)

theorem history_start (codec : BsonCodec) (mg : MapStageGlobals) (args : Bytes) (up : Upstream) :
    History codec mg args up 0 (start args up) where
  argsBytes := rfl
  source := rfl
  pulls := rfl
  seen := by simp [start, execSetSource, Stage.compiled, execAlloc]
  emitted := by simp [start, execSetSource, Stage.compiled, execAlloc]

theorem History.after {up : Upstream} {k : ℕ} {s : Stage} (history : History codec mg args up k s)
    (frames : List Frame) :
    History codec mg args up (k + frames.length) ((execGetNext codec mg).after s frames) := by
  induction frames generalizing k s with
  | nil => exact history
  | cons frame frames ih =>
      have total : k + (frame :: frames).length = k + 1 + frames.length := by
        rw [List.length_cons]
        omega
      rw [total]
      exact ih (execGetNext_step history frame).2

/-- The call at a position emitted the row of `on_eof`: upstream ended, and the caller got a row. -/
def Emits (up : Upstream) (replies : List Reply) (i : ℕ) : Prop :=
  (up i).Ends ∧ ∃ r, replies[i]? = some r ∧ r.status = statusOk ∧ r.result.code = .advanced

theorem faultStatus_ne_ok (panicText : String) (fault : Fault String) :
    faultStatus panicText fault ≠ statusOk := by
  intro same
  have code : (faultStatus panicText fault).code = -1 := by cases fault <;> rfl
  rw [same] at code
  exact absurd code (by decide)

/-- An end that became a row is the first end, of a stage with a row for it. -/
theorem OwesEnd.emitted {up : Upstream} {i : ℕ} {res : GetNextResult} {r : Reply}
    (owed : OwesEnd codec mg args up i res r) (ended : res.code = .eof)
    (okay : r.status = statusOk) (advanced : r.result.code = .advanced) :
    up.EndsFirst 0 i ∧ SyntheticOk codec mg args ∧ r.result.resultMetadata = .empty := by
  have row : r ≠ ⟨statusOk, res⟩ := by
    rintro rfl
    simp [ended] at advanced
  unfold OwesEnd at owed
  cases hook : mg.onEofNoRows with
  | none =>
      rw [hook] at owed
      exact absurd owed row
  | some onEof =>
      rw [hook] at owed
      obtain ⟨seen, unseen⟩ := owed
      have rowless : ∀ j < i, ¬ (up j).Advances := by
        intro j before advances
        exact row (seen ⟨j, before, advances⟩)
      cases made : emptyInputRow codec args onEof with
      | error fault =>
          have failed := unseen rowless
          rw [made] at failed
          exact absurd (failed.symm.trans okay) (faultStatus_ne_ok _ fault)
      | ok bytes =>
          have owed := unseen rowless
          simp only [made] at owed
          obtain ⟨atFirst, later⟩ := owed
          by_cases first : up.EndsFirst 0 i
          · exact ⟨first, ⟨onEof, bytes, hook, made⟩, (atFirst first).2.2.2⟩
          · exact absurd (later first) row

/-- After the first end a stage with a row for it replies with ends. -/
theorem OwesEnd.plain {up : Upstream} {i j : ℕ} {res : GetNextResult} {r : Reply}
    (owed : OwesEnd codec mg args up j res r) (first : up.EndsFirst 0 i) (before : i < j)
    (works : SyntheticOk codec mg args) : r = ⟨statusOk, res⟩ := by
  obtain ⟨onEof, bytes, hook, made⟩ := works
  simp only [OwesEnd, hook, made] at owed
  obtain ⟨seen, unseen⟩ := owed
  by_cases row : ∃ l < j, (up l).Advances
  · exact seen row
  · push Not at row
    apply (unseen row).2
    intro again
    have same := Upstream.endsFirst_unique first again
    omega

variable (codec mg args)

/-- What the calls of a run owe, one by one. -/
theorem owes_run (up : Upstream) (frames : List Frame) (i : ℕ) (frame : Frame)
    (called : frames[i]? = some frame) :
    ((execGetNext codec mg).after (start args up) (frames.take i)).pulls = i ∧
      ((execGetNext codec mg).after (start args up) (frames.take (i + 1))).pulls = i + 1 ∧
      ∃ r, ((execGetNext codec mg).outputs (start args up) frames)[i]? = some r ∧
        Owes codec mg args up i frame r := by
  have lt : i < frames.length := (List.getElem?_eq_some_iff.mp called).1
  have history : History codec mg args up i
      ((execGetNext codec mg).after (start args up) (frames.take i)) := by
    have run := (history_start codec mg args up).after (frames.take i)
    rwa [List.length_take_of_le lt.le, Nat.zero_add] at run
  obtain ⟨owed, next⟩ := execGetNext_step history frame
  have taken : frames.take (i + 1) = frames.take i ++ [frame] := by
    rw [List.take_add_one, called]
    rfl
  refine ⟨history.pulls, ?_, _, ?_, owed⟩
  · rw [taken, Machine.after_append]
    exact next.pulls
  · rw [Machine.getElem?_outputs, called]
    rfl

/-- **The runs of a map stage**, for every pair of callbacks, every script of the upstream and
every number of calls. Each call asks upstream once and replies what it owes. The row of
`on_eof` comes only at an end with no row before, over empty metadata; after it no call emits
one again, and every end is forwarded. -/
theorem execGetNext_maps (up : Upstream) (frames : List Frame) :
    let replies := (execGetNext codec mg).outputs (start args up) frames
    replies.length = frames.length ∧
    (∀ i frame, frames[i]? = some frame →
      ((execGetNext codec mg).after (start args up) (frames.take i)).pulls = i ∧
        ((execGetNext codec mg).after (start args up) (frames.take (i + 1))).pulls = i + 1 ∧
        ∃ r, replies[i]? = some r ∧ Owes codec mg args up i frame r) ∧
    ∀ i, Emits up replies i →
      (∀ j < i, ¬ (up j).Advances) ∧
      (∀ r, replies[i]? = some r → r.result.resultMetadata = .empty) ∧
      ∀ j frame, i < j → frames[j]? = some frame →
        ¬ Emits up replies j ∧
          ((up j).Ends → replies[j]? = some ((up j).reply frame.result)) := by
  intro replies
  refine ⟨Machine.length_outputs _ _ _, owes_run codec mg args up frames, ?_⟩
  have owedEnd : ∀ i r, (up i).Ends → replies[i]? = some r →
      ∃ res, res.code = .eof ∧ OwesEnd codec mg args up i res r ∧
        ∀ slots, (up i).reply slots = ⟨statusOk, res⟩ := by
    intro i r ends replied
    have inRange : i < frames.length := by
      have bound := (List.getElem?_eq_some_iff.mp replied).1
      rwa [Machine.length_outputs] at bound
    obtain ⟨_, _, r', replied', owed⟩ :=
      owes_run codec mg args up frames i frames[i] (List.getElem?_eq_getElem inRange)
    obtain rfl : r = r' := Option.some.inj (replied.symm.trans replied')
    cases answer : up i with
    | failure _ _ _ => simp [answer, Pulled.Ends] at ends
    | success status okay res exclusive =>
        have code : res.code = .eof := by simpa [answer, Pulled.Ends] using ends
        simp only [Owes, answer, code] at owed
        exact ⟨res, code, owed, fun _ => rfl⟩
  rintro i ⟨ends, r, replied, okay, advanced⟩
  obtain ⟨res, code, owed, _⟩ := owedEnd i r ends replied
  obtain ⟨first, works, metadata⟩ := owed.emitted code okay advanced
  refine ⟨fun j before => (first.2.2 j (Nat.zero_le j) before).2, ?_, ?_⟩
  · intro r' replied'
    obtain rfl : r = r' := Option.some.inj (replied.symm.trans replied')
    exact metadata
  · intro j frame before called
    have forwarded : (up j).Ends → replies[j]? = some ((up j).reply frame.result) := by
      intro ends'
      obtain ⟨_, _, r', replied', _⟩ := owes_run codec mg args up frames j frame called
      obtain ⟨res', _, owed', reply⟩ := owedEnd j r' ends' replied'
      rw [reply, ← owed'.plain first before works]
      exact replied'
    refine ⟨?_, forwarded⟩
    rintro ⟨ends', r', replied', _, advanced'⟩
    obtain ⟨res', code', owed', _⟩ := owedEnd j r' ends' replied'
    rw [owed'.plain first before works] at advanced'
    simp [code'] at advanced'

/-! ## After the row of `on_eof` -/

/-- An upstream that ends, and then fails. -/
def endThenFailure : Upstream := fun k =>
  if k = 0 then .ofResult .setEofEmpty (by decide)
  else .failure (newErrorStatus 11601 "interrupted") (by decide) none

/-- The call after the row of `on_eof` forwards an error of upstream, not an end. -/
theorem execGetNext_maps_error_after_row :
    let codec : BsonCodec := ⟨fun _ => .ok [5, 0, 0, 0, 0], fun _ => .ok []⟩
    let mg : MapStageGlobals := ⟨fun row _ => .ok row, some fun args => .ok args⟩
    let replies := (execGetNext codec mg).outputs (start [] endThenFailure) [.blank, .blank]
    Emits endThenFailure replies 0 ∧
      replies.map (fun r => (r.status.isOk, r.status.code)) = [(true, 0), (false, 11601)] := by
  refine ⟨⟨by decide, ⟨statusOk, ⟨.advanced, .byteBuf (some ⟨.allocated 0, [5, 0, 0, 0, 0]⟩),
    .empty⟩⟩, by decide, rfl, rfl⟩, by decide⟩

end Run

end ExtensionSdkMongodb.MapTransform

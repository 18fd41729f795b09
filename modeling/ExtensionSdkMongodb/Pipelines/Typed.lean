import ExtensionSdkMongodb.MapTransform.Export
import ExtensionSdkMongodb.Pipelines.Layers
import ExtensionSdkMongodb.SourceStage.Cursors

/-!
# Pipelines of typed stages

An exported source at the bottom of exported transforms. Between two stages a document is encoded by
the one below and decoded by the one above, so a pipeline of transforms computes the authors'
functions one after the other on every row, if every document in between can be encoded
(`typed_shows`).

Over a source this says what the whole pipeline hands to the host: the rows of the source's author,
mapped by the transforms' authors, and the source's ends and errors as they are
(`typed_pipeline_runs`).
-/

set_option autoImplicit false

namespace ExtensionSdkMongodb.Pipelines

open MapTransform (TransformStageImpl fallible faultStatus mappedRow)
open SourceStage (Cursor Generator Next SourceOps SourceStageImpl Setup encodeRow execGetNext)

/-! ## Transforms -/

/-- An exported transform with the argument bytes of its executable stage. -/
structure TypedStage where
  {Args : Type}
  stage : TransformStageImpl Args
  expectEmpty : Bool
  args : Bytes

/-- The stage before its first call. -/
def TypedStage.planned (typed : TypedStage) : Planned :=
  .map (typed.stage.typedTable typed.expectEmpty).toMapStageGlobals typed.args

section Through

variable (codec : BsonCodec)

/-- The author's function on a row, whose result has to be encoded. -/
def TypedStage.run (typed : TypedStage) (row : Document) : HookOutcome String Document := do
  let out ← typed.stage.apply codec typed.args row
  let _ ← fallible (codec.encode out)
  return out

/-- The authors' functions of some transforms, one after the other. -/
def through (stages : List TypedStage) (row : Document) : HookOutcome String Document :=
  stages.foldlM (fun row typed => typed.run codec row) row

/-- A result after the transforms: a row is decoded, transformed and encoded. -/
def handOn (stages : List TypedStage) (c : Contents) : Except Status Contents :=
  if c.code = .advanced then
    let outcome : HookOutcome String Bytes := do
      let row ← fallible (codec.decode c.document)
      let out ← through codec stages row
      fallible (codec.encode out)
    match outcome with
    | .ok document => .ok { c with document }
    | .error fault => .error (faultStatus "panic during map transform" fault)
  else .ok c

end Through

/-- Contents as a stage above sees them. -/
def Seen.ofContents (c : Contents) : Seen := ⟨c.code, some c.document, c.metadata⟩

/-- What a caller reads off what a stage above sees. -/
def Seen.contents (s : Seen) : Contents := ⟨s.code, s.document.getD [], s.metadata⟩

@[simp] theorem contents_ofContents (c : Contents) : (Seen.ofContents c).contents = c := rfl

theorem bytes_documentBytes (c : ByteContainer) : (documentBytes c).getD [] = c.bytes := by
  rcases c with bytes | _ | buf <;> rfl

theorem contents_eq (r : Reply) : r.contents = (seen r).map Seen.contents := by
  unfold Reply.contents seen
  split
  · simp only [Except.map, Seen.contents, GetNextResult.contents, bytes_documentBytes]
  · rfl

/-! ## Pipelines of transforms -/

section Shows

variable {codec : BsonCodec}

theorem through_concat (stages : List TypedStage) (typed : TypedStage) (row : Document) :
    through codec (stages ++ [typed]) row =
      through codec stages row >>= fun out => typed.run codec out := by
  simp [through]

/-- What a transform returns can be encoded. -/
theorem encoded_run {typed : TypedStage} {row out : Document}
    (made : typed.run codec row = .ok out) : ∃ bytes, codec.encode out = .ok bytes := by
  obtain ⟨out', -, rest⟩ := bind_ok.mp made
  obtain ⟨bytes, encoded, same⟩ := bind_ok.mp rest
  cases same
  exact ⟨bytes, mapError_ok.mp encoded⟩

/-- The transforms of a row that can be encoded give a row that can be encoded. -/
theorem encoded_through {stages : List TypedStage} {row out : Document} {bytes : Bytes}
    (encoded : codec.encode row = .ok bytes) (made : through codec stages row = .ok out) :
    ∃ bytes, codec.encode out = .ok bytes := by
  cases stages using List.reverseRecOn with
  | nil =>
      cases made
      exact ⟨bytes, encoded⟩
  | append_singleton stages typed =>
      rw [through_concat] at made
      obtain ⟨_, -, last⟩ := bind_ok.mp made
      exact encoded_run last

/-- What a typed stage makes of a reply. -/
def TypedStage.above (codec : BsonCodec) (typed : TypedStage) :
    Except Status Seen → Except Status Seen :=
  mapSeen codec (typed.stage.typedTable typed.expectEmpty).toMapStageGlobals typed.args []

/-- A typed stage looks at no reply before. -/
theorem shows_planned (typed : TypedStage) (below : List (Except Status Seen)) :
    typed.planned.shows codec below = below.map (typed.above codec) := by
  have each : ∀ before reply,
      mapSeen codec (typed.stage.typedTable typed.expectEmpty).toMapStageGlobals typed.args
        before reply = typed.above codec reply := by
    rintro before (status | ⟨_ | _ | _, document, metadata⟩)
    · rfl
    · rfl
    · rfl
    · rfl
  apply List.ext_getElem?
  intro i
  simp only [TypedStage.planned, Planned.shows, each, List.getElem?_mapIdx, List.getElem?_map]

/-- The encoding that a transform's result has to have is the one that is handed on. -/
theorem run_encode (typed : TypedStage) (row : Document) :
    (typed.run codec row >>= fun out => fallible (codec.encode out)) =
      typed.stage.apply codec typed.args row >>= fun out => fallible (codec.encode out) := by
  unfold TypedStage.run
  cases typed.stage.apply codec typed.args row with
  | error fault => rfl
  | ok out =>
      cases encoded : codec.encode out with
      | error e => simp [bind, Except.bind, fallible, encoded, Except.mapError]
      | ok bytes =>
          simp [bind, Except.bind, pure, Except.pure, fallible, encoded, Except.mapError]

/-- A typed stage maps a row whose document can be read. -/
theorem above_row (typed : TypedStage) {bytes metadata : Bytes} {row : Document}
    (decoded : codec.decode bytes = .ok row) :
    typed.above codec (.ok ⟨.advanced, some bytes, metadata⟩) =
      rowSeen "panic during map transform" metadata
        (typed.run codec row >>= fun out => fallible (codec.encode out)) := by
  have read : MapTransform.documentFromByteContainer codec (carrier (some bytes)) = .ok row := by
    simp [carrier, MapTransform.documentFromByteContainer,
      MapTransform.documentFromByteContainer.decoded, decoded, Except.mapError]
  simp only [TypedStage.above, mapSeen, TransformStageImpl.mappedRow_typedTable read, run_encode]

/-- A row that the transforms make of a document that can be encoded. -/
theorem handOn_row (stages : List TypedStage) {c : Contents} {row : Document}
    (advanced : c.code = .advanced) (decoded : codec.decode c.document = .ok row) :
    (handOn codec stages c).map Seen.ofContents =
      rowSeen "panic during map transform" c.metadata
        (through codec stages row >>= fun out => fallible (codec.encode out)) := by
  have same : (fallible (codec.decode c.document) >>= fun row =>
      through codec stages row >>= fun out => fallible (codec.encode out)) =
        through codec stages row >>= fun out => fallible (codec.encode out) := by
    rw [decoded]
    rfl
  simp only [handOn, advanced, if_true, same]
  cases through codec stages row >>= fun out => fallible (codec.encode out) with
  | error fault => rfl
  | ok bytes => simp [Except.map, Seen.ofContents, rowSeen]

/-- **One more transform on top maps what the transforms below make.** -/
theorem above_handOn (lawful : codec.Lawful) (stages : List TypedStage) (typed : TypedStage)
    {c : Contents} (encoded : c.code = .advanced → ∃ row, codec.encode row = .ok c.document) :
    typed.above codec ((handOn codec stages c).map Seen.ofContents) =
      (handOn codec (stages ++ [typed]) c).map Seen.ofContents := by
  cases code : c.code with
  | eof => simp [handOn, code, Except.map, TypedStage.above, mapSeen, Seen.ofContents,
      TransformStageImpl.typedTable]
  | pauseExecution =>
      simp [handOn, code, Except.map, TypedStage.above, mapSeen, Seen.ofContents]
  | advanced =>
      obtain ⟨row, bytes⟩ := encoded code
      have decoded := lawful row _ bytes
      rw [handOn_row stages code decoded, handOn_row (stages ++ [typed]) code decoded,
        through_concat]
      cases made : through codec stages row with
      | error fault => rfl
      | ok out =>
          obtain ⟨document, written⟩ := encoded_through bytes made
          have shown : rowSeen "panic during map transform" c.metadata
              ((.ok out : HookOutcome String Document) >>= fun out => fallible (codec.encode out)) =
                .ok ⟨.advanced, some document, c.metadata⟩ := by
            simp [bind, Except.bind, fallible, written, Except.mapError, rowSeen]
          rw [shown, above_row typed (lawful out _ written)]
          rfl

/-- Without transforms a row is what it was. -/
theorem handOn_nil (lawful : codec.Lawful) {c : Contents}
    (encoded : c.code = .advanced → ∃ row, codec.encode row = .ok c.document) :
    handOn codec [] c = .ok c := by
  unfold handOn
  split
  · next advanced =>
    obtain ⟨row, bytes⟩ := encoded advanced
    simp [lawful row _ bytes, through, bind, Except.bind, pure, Except.pure, fallible, bytes,
      Except.mapError]
  · rfl

/-- **Transforms over a bottom**: every row of the bottom is mapped by the authors' functions, and
ends, pauses and errors come out as they are. -/
theorem typed_shows (lawful : codec.Lawful) {σ : Type} {bottom : Machine σ Frame Reply} {t : σ}
    {frames : List Frame} {pulls : List (Except Status Contents)}
    (shown : (bottom.outputs t frames).map seen = pulls.map (Except.map Seen.ofContents))
    (rows : ∀ c, .ok c ∈ pulls → c.code = .advanced → ∃ row, codec.encode row = .ok c.document)
    (stages : List TypedStage) :
    ((getNext codec bottom).outputs
        ((stages.map fun typed => typed.planned.compiled).reverse, t) frames).map seen =
      pulls.map fun pull => (pull.bind (handOn codec stages)).map Seen.ofContents := by
  induction stages using List.reverseRecOn with
  | nil =>
      rw [List.map_nil, List.reverse_nil, outputs_bottom, shown]
      apply List.map_congr_left
      intro pull member
      cases pull with
      | error status => rfl
      | ok c =>
          have same := handOn_nil lawful (rows c member)
          exact congrArg (Except.map Seen.ofContents) same.symm
  | append_singleton stages typed ih =>
      rw [List.map_append, List.reverse_append, List.map_singleton, List.reverse_singleton,
        List.singleton_append, outputs_compiled, shows_planned, ih, List.map_map]
      apply List.map_congr_left
      intro pull member
      cases pull with
      | error status => rfl
      | ok c => exact above_handOn lawful stages typed (rows c member)

end Shows

/-! ## A source at the bottom -/

section Source

variable (codec : BsonCodec) {ω : Type} (ops : SourceOps ω)

/-- A failed call of a stage is seen as its status. -/
theorem seen_faultStatus {fault : Fault ExtensionError} (res : GetNextResult)
    (bad : (SourceStage.faultStatus fault).isOk = false) :
    seen (SourceStage.closureReply res (.error fault)) = .error (SourceStage.faultStatus fault) :=
  seen_failed bad

/-- What the stage above sees of a result of the hooks. -/
theorem seen_deliver (outcome : HookOutcome ExtensionError Next) (res : GetNextResult)
    (s : SourceStage.Stage ω)
    (fails : ∀ status, (s.generator.deliver codec ops outcome).1 = .error status →
      status.isOk = false) :
    seen (SourceStage.closureReply res (SourceStage.deliver codec ops outcome s).1) =
      (s.generator.deliver codec ops outcome).1.map Seen.ofContents := by
  rcases outcome with fault | (⟨document, metadata⟩ | _)
  · exact seen_faultStatus res (fails _ rfl)
  · simp only [SourceStage.deliver, SourceStage.writeRow, Generator.deliver, encodeRow,
      Heap.fromBson] at fails ⊢
    cases bytes : codec.encode document with
    | error e =>
        rw [bytes] at fails
        exact seen_faultStatus res (fails _ rfl)
    | ok raw =>
        rw [bytes] at fails
        cases metadata with
        | none => rfl
        | some metaDoc =>
            simp only [Except.map]
            cases metaBytes : codec.encode metaDoc with
            | error e =>
                simp only [bind, Except.bind, metaBytes] at fails ⊢
                exact seen_faultStatus res (fails _ rfl)
            | ok metaRaw =>
                simp only [bind, Except.bind]
                rfl
  · have state : s.generator.state = s.exec.state := rfl
    have hooks : s.generator.hooks = s.hooks := rfl
    simp only [SourceStage.deliver, SourceStage.finish, Generator.deliver, state, hooks] at fails ⊢
    rcases ops.dropState s.exec.state s.hooks with ⟨_ | _, world⟩
    · exact seen_faultStatus res rfl
    · rfl

/-- What the stage above sees of a generating call. -/
theorem seen_getNextGenerator (queryCtx : Option ℕ) (res : GetNextResult) (s : SourceStage.Stage ω)
    (fails : ∀ status, (Generator.pull codec ops s.setup s.generator queryCtx).1 = .error status →
      status.isOk = false) :
    seen (SourceStage.getNextGenerator codec ops queryCtx res s).1 =
      (Generator.pull codec ops s.setup s.generator queryCtx).1.map Seen.ofContents := by
  have finished : s.generator.finished = s.exec.generatorDone := rfl
  simp only [SourceStage.getNextGenerator, Generator.pull, finished] at fails ⊢
  cases done : s.exec.generatorDone with
  | true => rfl
  | false =>
      obtain ⟨outcome, generator, -⟩ := SourceStage.runHooks_pull codec ops queryCtx s
      simp only [done, Bool.false_eq_true, if_false, SourceStage.generate] at fails ⊢
      rw [← outcome, ← generator] at fails ⊢
      exact seen_deliver codec ops _ res _ fails

/-- A generating stage is seen as its generator. -/
theorem seen_generating {setup : Setup} {pulls : ℕ} {s : SourceStage.Stage ω} {g : Generator ω}
    (generating : SourceStage.Generating setup pulls s g) (queryCtx : Option ℕ)
    (res : GetNextResult)
    (fails : ∀ status, (Generator.pull codec ops setup g queryCtx).1 = .error status →
      status.isOk = false) :
    seen (SourceStage.getNextGenerator codec ops queryCtx res s).1 =
        (Generator.pull codec ops setup g queryCtx).1.map Seen.ofContents ∧
      SourceStage.Generating setup pulls (SourceStage.getNextGenerator codec ops queryCtx res s).2
        (Generator.pull codec ops setup g queryCtx).2 := by
  refine ⟨?_, (generating.step codec ops queryCtx res).2⟩
  obtain ⟨-, rfl, rfl, -⟩ := generating
  exact seen_getNextGenerator codec ops queryCtx res s fails

theorem seen_outputs {setup : Setup} {pulls : ℕ} {s : SourceStage.Stage ω} {g : Generator ω}
    (generating : SourceStage.Generating setup pulls s g) (frames : List Frame)
    (fails : ∀ status, .error status ∈ (Generator.pull codec ops setup).outputs g
      (frames.map Frame.queryCtx) → status.isOk = false) :
    ((execGetNext codec ops).outputs s frames).map seen =
      ((Generator.pull codec ops setup).outputs g (frames.map Frame.queryCtx)).map
        (Except.map Seen.ofContents) := by
  induction frames generalizing s g with
  | nil => rfl
  | cons frame frames ih =>
      simp only [List.map_cons, Machine.outputs_cons, List.mem_cons] at fails ⊢
      obtain ⟨now, next⟩ := seen_generating codec ops generating frame.queryCtx frame.result
        fun status failed => fails status (.inl failed.symm)
      rw [SourceStage.route_generating codec ops generating, now,
        ih next fun status later => fails status (.inr later)]

/-- **A compiled source without an upstream is seen as its generator**, unless an error of the
source carries the code of success. -/
theorem source_shows (setup : Setup) (hooks : ω) (runs : SourceStage.requiresInput ops ≠ none)
    (frames : List Frame)
    (fails : ∀ status, .error status ∈ (Generator.pull codec ops setup).outputs (.start hooks)
      (frames.map Frame.queryCtx) → status.isOk = false) :
    ((execGetNext codec ops).outputs (setup.compiled hooks none) frames).map seen =
      ((Generator.pull codec ops setup).outputs (.start hooks) (frames.map Frame.queryCtx)).map
        (Except.map Seen.ofContents) := by
  cases frames with
  | nil => rfl
  | cons frame frames =>
      have first : SourceStage.route ops (setup.compiled hooks none) frame =
          .generate frame.result 0 := by
        simp only [Setup.compiled, SourceStage.execSetSource, SourceStage.Stage.compiled,
          SourceStage.execAlloc, SourceStage.route]
        cases required : SourceStage.requiresInput ops with
        | none => exact absurd required runs
        | some needs => cases needs <;> rfl
      have generating : SourceStage.Generating setup 0
          ((setup.compiled hooks none).generating 0) (.start hooks) := ⟨rfl, rfl, rfl, rfl⟩
      simp only [List.map_cons, Machine.outputs_cons, List.mem_cons] at fails ⊢
      obtain ⟨now, next⟩ := seen_generating codec ops generating frame.queryCtx
        frame.result fun status failed => fails status (.inl failed.symm)
      rw [SourceStage.execGetNext_eq, first, now,
        seen_outputs codec ops next frames fun status later => fails status (.inr later)]

end Source

/-! ## Whole pipelines -/

section Cursor

variable {α σ ω : Type} {codec : BsonCodec} {stage : SourceStageImpl α σ ω} {setup : Setup}

/-- The rows of a cursor are encoded documents. -/
theorem encoded_pull {c : Cursor σ ω} {queryCtx : Option ℕ} {contents : Contents}
    (pulled : (Cursor.pull codec stage setup c queryCtx).1 = .ok contents)
    (advanced : contents.code = .advanced) :
    ∃ row, codec.encode row = .ok contents.document := by
  simp only [Cursor.pull] at pulled
  split at pulled
  · cases pulled
    cases advanced
  · simp only [Cursor.deliver] at pulled
    split at pulled
    · cases pulled
    · cases pulled
      cases advanced
    · next document metadata _ =>
      cases encoded : encodeRow codec document metadata with
      | error e => simp [encoded] at pulled
      | ok contents' =>
          simp only [encoded, Except.ok.injEq] at pulled
          subst pulled
          obtain ⟨bytes, made, rest⟩ := bind_ok.mp encoded
          refine ⟨document, ?_⟩
          rw [made]
          cases metadata with
          | none =>
              cases rest
              rfl
          | some metaDoc =>
              obtain ⟨_, -, last⟩ := bind_ok.mp rest
              cases last
              rfl

/-- Every row of a run of a cursor is an encoded document. -/
theorem encoded_pulls {c : Cursor σ ω} {ctxs : List (Option ℕ)} {contents : Contents}
    (pulled : .ok contents ∈ (Cursor.pull codec stage setup).outputs c ctxs)
    (advanced : contents.code = .advanced) :
    ∃ row, codec.encode row = .ok contents.document := by
  obtain ⟨i, here⟩ := List.mem_iff_getElem?.mp pulled
  rw [Machine.getElem?_outputs] at here
  obtain ⟨ctx, -, answered⟩ := Option.map_eq_some_iff.mp here
  exact encoded_pull answered advanced

/-- **What a pipeline of an exported source and exported transforms hands to the host**: the source
author's rows, each mapped by the transform authors' functions in the order of the stages, among the
source's ends and errors, for every number of transforms and every run. -/
theorem typed_pipeline_runs (codec : BsonCodec) (lawful : codec.Lawful)
    (stage : SourceStageImpl α σ ω) (drops : stage.DropsQuietly) (runs : stage.requires ≠ none)
    (setup : Setup) (world : ω) (frames : List Frame)
    (fails : ∀ status, .error status ∈ (Cursor.pull codec stage setup).outputs (.start world)
      (frames.map Frame.queryCtx) → status.isOk = false)
    (stages : List TypedStage) :
    ((getNext codec (execGetNext codec stage.sdkSourceOps.toSourceOps)).outputs
        ((stages.map fun typed => typed.planned.compiled).reverse,
          setup.compiled ⟨.empty, world⟩ none) frames).map Reply.contents =
      ((Cursor.pull codec stage setup).outputs (.start world) (frames.map Frame.queryCtx)).map
        fun pull => pull.bind (handOn codec stages) := by
  have same := (SourceStage.Denotes.simulation codec setup stage drops (fun _ : Unit => none)
    (fun _ => none) ()).outputs_show (SourceStage.Denotes.start world) (frames.map Frame.queryCtx)
  rw [List.map_id, List.forall₂_eq_eq_eq] at same
  have required : SourceStage.requiresInput stage.sdkSourceOps.toSourceOps ≠ none := by
    rwa [stage.requiresInput_sdkSourceOps]
  have shown := source_shows codec _ setup ⟨.empty, world⟩ required frames
    (by rwa [same])
  rw [same] at shown
  have above := typed_shows lawful shown (fun c member => encoded_pulls member) stages
  have contents : Reply.contents = Except.map Seen.contents ∘ seen := funext contents_eq
  rw [contents, ← List.map_map, above, List.map_map]
  apply List.map_congr_left
  intro pull _
  simp only [Function.comp_apply]
  cases pull.bind (handOn codec stages) with
  | error status => rfl
  | ok c => rfl

end Cursor

/-- A codec of two documents. -/
def smallCodec : BsonCodec where
  encode
    | [] => .ok [5, 0, 0, 0, 0]
    | [("n", .null)] => .ok [8, 0, 0, 0, 10, 110, 0, 0]
    | _ => .error "unsupported"
  decode
    | [5, 0, 0, 0, 0] => .ok []
    | [8, 0, 0, 0, 10, 110, 0, 0] => .ok [("n", .null)]
    | _ => .error "unsupported"

theorem smallCodec_lawful : smallCodec.Lawful := by
  intro d bytes encoded
  simp only [smallCodec] at encoded
  split at encoded
  · cases encoded
    rfl
  · cases encoded
    rfl
  · cases encoded

/-- A transform that names every row. -/
def named : TransformStageImpl Unit where
  name := "$named"
  parse := fun _ => .ok ()
  transform := fun row _ _ => .ok (row.insert "n" .null)

/-- A counter with two transforms, called three times. -/
theorem typed_pipeline_runs_countdown :
    let setup : Setup := ⟨[8, 0, 0, 0, 10, 110, 0, 0], none, none⟩
    let stages : List TypedStage := [⟨named, true, [5, 0, 0, 0, 0]⟩, ⟨named, true, [5, 0, 0, 0, 0]⟩]
    let replies := (getNext smallCodec
      (execGetNext smallCodec SourceStage.countdown.sdkSourceOps.toSourceOps)).outputs
        ((stages.map fun typed => typed.planned.compiled).reverse,
          setup.compiled ⟨.empty, ()⟩ none) [.blank, .blank, .blank]
    replies.map Reply.contents =
      [.ok ⟨.advanced, [8, 0, 0, 0, 10, 110, 0, 0], []⟩, .ok SourceStage.endOfStream,
        .ok SourceStage.endOfStream] := by
  intro setup stages replies
  have pulls : (Cursor.pull smallCodec SourceStage.countdown setup).outputs (.start ())
      [none, none, none] = [.ok ⟨.advanced, [5, 0, 0, 0, 0], []⟩, .ok SourceStage.endOfStream,
        .ok SourceStage.endOfStream] := rfl
  have runs := typed_pipeline_runs smallCodec smallCodec_lawful SourceStage.countdown
    (fun _ _ => rfl) (by decide) setup () [.blank, .blank, .blank]
    (by simp only [List.map_cons, List.map_nil, Frame.blank, pulls]; simp) stages
  refine runs.trans ?_
  simp only [List.map_cons, List.map_nil, Frame.blank, pulls]
  rfl

end ExtensionSdkMongodb.Pipelines

import ExtensionSdkMongodb.MapTransform.Entries
import ExtensionSdkMongodb.MapTransform.Exec
import ExtensionSdkMongodb.SourceStage.Entries
import ExtensionSdkMongodb.SourceStage.Lifecycle
import ExtensionSdkMongodb.SourceStage.Refinement
import ExtensionSdkMongodb.Stages.Parsing

/-!
# Results under an OK status, and panics

A caller of `get_next` reads its slots when the status is OK. So a call under an OK status has to
write them, and a call whose hook failed has to return an error (`Honest`). Map and passthrough
stages are honest in every run. A source stage is honest except in two cases: it became a
passthrough and lost its upstream, and then does nothing under an OK status; or a hook failed with a
host error whose code is that of success (`getNext_honest_iff`).

The host cannot take a panic either, so every entry of a stage has to return whatever its hooks do,
and to return an error when one of them panicked (`Guards`). All entries of source and map stages
do, except where one calls a hook outside every boundary and that hook panics: `ast_get_properties`
of both calls the properties hook so, and `exec_destroy` of a source stage drops a live state so
(`entries_guard_iff`). A panic that is caught leaves its payload, which is taken to drop without
another panic.
-/

set_option autoImplicit false

namespace ExtensionSdkMongodb

/-! ## Errors of hooks -/

/-- The error a hook returned, if it did. -/
def hookError {ε α : Type} : HookOutcome ε α → Option ε
  | .error (.error e) => some e
  | .error .panic => none
  | .ok _ => none

/-- The error that a hook of the call returns. -/
def SourceStage.getNextError {ω : Type} (codec : BsonCodec) (ops : SourceStage.SourceOps ω)
    (s : SourceStage.Stage ω) (frame : Frame) : Option ExtensionError :=
  match SourceStage.route ops s frame, codec.decode s.exec.args with
  | .generate _ pulls, .ok _ =>
    if s.exec.generatorDone then none
    else hookError (SourceStage.runHooks codec ops frame.queryCtx (s.generating pulls)).1
  | _, _ => none

/-- The error that a callback of the call returns. -/
def MapTransform.getNextError (codec : BsonCodec) (mg : MapTransform.MapStageGlobals)
    (s : MapTransform.Stage) : Option String :=
  match s.exec.source with
  | none => none
  | some up =>
    match up s.pulls, codec.decode s.exec.args with
    | .success _ _ res _, .ok args =>
      match res.code with
      | .advanced =>
        match MapTransform.documentFromByteContainer codec res.resultDocument with
        | .ok row => hookError (mg.transform row args)
        | .error _ => none
      | .eof =>
        if s.exec.sawUpstreamAdvanced || s.exec.emittedEofSynthetic then none
        else mg.onEofNoRows.bind fun onEof => hookError (onEof args)
      | .pauseExecution => none
    | _, _ => none

namespace Stages

open SourceStage (Operation)

/-! ## Honest calls -/

section Honest

variable {σ ε : Type}

/-- After the call the slots hold the same, whatever they held before. -/
def WritesSlots (getNext : Machine σ Frame Reply) (s : σ) (frame : Frame) : Prop :=
  ∀ before : Frame, before.queryCtx = frame.queryCtx →
    (getNext s before).1.result = (getNext s frame).1.result

/-- A call under an OK status writes the caller's slots, and a call whose hook failed is not under
an OK status. -/
structure Honest (getNext : Machine σ Frame Reply) (error : σ → Frame → Option ε) (s : σ)
    (frame : Frame) : Prop where
  writes : (getNext s frame).1.status.isOk = true → WritesSlots getNext s frame
  reports : ∀ e, error s frame = some e → (getNext s frame).1.status.isOk = false

/-- A stage as a machine over the host's calls of `set_source` and `get_next`. -/
def overSource (setSource : σ → Option Upstream → σ) (getNext : Machine σ Frame Reply) :
    Machine σ Operation (Option Reply) :=
  fun s operation =>
    match operation with
    | .setSource source => (none, setSource s source)
    | .getNext frame => (some (getNext s frame).1, (getNext s frame).2)

/-- A property of the `get_next` calls of a run. -/
def AtGetNext (holds : σ → Frame → Prop) (s : σ) (operation : Operation) : Prop :=
  ∀ frame, operation = .getNext frame → holds s frame

/-- Properties of single calls that are equivalent are so at the calls of every run. -/
theorem atGetNext_congr {m : Machine σ Operation (Option Reply)} {first second : σ → Frame → Prop}
    (same : ∀ s frame, first s frame ↔ second s frame) (s : σ) (operations : List Operation) :
    m.Along (AtGetNext first) s operations ↔ m.Along (AtGetNext second) s operations := by
  apply Machine.along_congr
  intro s operation
  exact forall_congr' fun frame => imp_congr_right fun _ => same s frame

/-- A property of every call holds at the calls of every run. -/
theorem atGetNext_of_every {m : Machine σ Operation (Option Reply)} {holds : σ → Frame → Prop}
    (every : ∀ s frame, holds s frame) (s : σ) (operations : List Operation) :
    m.Along (AtGetNext holds) s operations := by
  induction operations generalizing s with
  | nil => exact trivial
  | cons operation operations ih => exact ⟨fun frame _ => every s frame, ih _⟩

end Honest

/-! ## Source stages -/

section Source

open SourceStage

variable {ω : Type} (codec : BsonCodec) (ops : SourceOps ω)

/-- A stage that became a passthrough and lost its upstream. -/
def Stranded (s : Stage ω) : Prop := s.exec.mode = .passthrough ∧ s.exec.source = none

/-- The route of a call does not depend on the slots; a generating call starts from the slots or
from what the upstream wrote to them. -/
theorem route_cases (s : Stage ω) :
    (∀ frame, route ops s frame = .refused) ∨
    (Stranded s ∧ ∀ frame, route ops s frame = .silent) ∨
    (∃ up, ∀ frame, route ops s frame = .forward up) ∨
    ∃ (pulls : ℕ) (slots : GetNextResult → GetNextResult),
      ∀ frame, route ops s frame = .generate (slots frame.result) pulls := by
  obtain ⟨exec, hooks, pulls, calls, heap⟩ := s
  obtain ⟨args, catalog, source, state, done, mode, saw, metrics⟩ := exec
  cases mode with
  | generator => exact .inr (.inr (.inr ⟨pulls, id, fun frame => rfl⟩))
  | passthrough =>
      cases source with
      | none => exact .inr (.inl ⟨⟨rfl, rfl⟩, fun frame => rfl⟩)
      | some up => exact .inr (.inr (.inl ⟨up, fun frame => rfl⟩))
  | init =>
      rcases required : requiresInput ops with _ | _ | _
      · exact .inl fun frame => by simp [route, required]
      · exact .inr (.inr (.inr ⟨pulls, id, fun frame => by simp [route, required]⟩))
      · cases source with
        | none => exact .inr (.inr (.inr ⟨pulls, id, fun frame => by simp [route, required]⟩))
        | some up =>
            cases answer : up pulls with
            | failure status bad written =>
                exact .inr (.inr (.inl ⟨up, fun frame => by simp [route, required, answer]⟩))
            | success status okay res exclusive =>
                by_cases falls : res.code = .eof ∧ saw = false
                · refine .inr (.inr (.inr ⟨pulls + 1, fun _ => res, fun frame => ?_⟩))
                  simp [route, required, answer, falls]
                · refine .inr (.inr (.inl ⟨up, fun frame => ?_⟩))
                  simp only [route, required, answer, if_neg falls]

/-- An error behind the hooks is theirs, or one of encoding a row. -/
theorem deliver_error {outcome : HookOutcome ExtensionError Next} {s : Stage ω}
    {e : ExtensionError} (failed : (deliver codec ops outcome s).1 = .error (.error e)) :
    outcome = .error (.error e) ∨ ∃ text, e = .failedToParse text := by
  cases outcome with
  | error fault =>
      cases failed
      exact .inl rfl
  | ok next =>
      refine .inr ?_
      cases next with
      | eof =>
          simp only [deliver, finish] at failed
          split at failed
          · cases failed
          · cases failed
      | advanced document metadata =>
          simp only [deliver, writeRow] at failed
          split at failed
          · cases failed
            exact ⟨_, rfl⟩
          · split at failed
            · cases failed
            · split at failed
              · cases failed
                exact ⟨_, rfl⟩
              · cases failed

/-- A failure of the hooks is the failure of the generating call. -/
theorem generate_of_runHooks {queryCtx : Option ℕ} {s : Stage ω} {fault : Fault ExtensionError}
    (failed : (runHooks codec ops queryCtx s).1 = .error fault) :
    (generate codec ops queryCtx s).1 = .error fault := by
  simp only [generate, failed, deliver]

/-- The hooks run on decoded arguments, so an error of decoding is not theirs. -/
theorem decoded_of_runHooks {queryCtx : Option ℕ} {s : Stage ω} {code : Int32} {reason : String}
    (failed : (runHooks codec ops queryCtx s).1 = .error (.error (.hostError code reason))) :
    ∃ argsDoc, codec.decode s.exec.args = .ok argsDoc := by
  unfold runHooks at failed
  cases decoded : codec.decode s.exec.args with
  | error e => simp [decoded] at failed
  | ok argsDoc => exact ⟨argsDoc, rfl⟩

theorem hookError_eq_some {ε α : Type} {outcome : HookOutcome ε α} {e : ε} :
    hookError outcome = some e ↔ outcome = .error (.error e) := by
  rcases outcome with (e' | _) | a <;> simp [hookError]

/-- The error of a generating call's hooks. -/
theorem getNextError_generate {s : Stage ω} {frame : Frame} {res : GetNextResult} {pulls : ℕ}
    (routed : route ops s frame = .generate res pulls) {e : ExtensionError} :
    getNextError codec ops s frame = some e ↔
      (∃ argsDoc, codec.decode s.exec.args = .ok argsDoc) ∧ s.exec.generatorDone = false ∧
        (runHooks codec ops frame.queryCtx (s.generating pulls)).1 = .error (.error e) := by
  unfold getNextError
  rw [routed]
  cases codec.decode s.exec.args with
  | error e' => simp
  | ok argsDoc =>
      cases done : s.exec.generatorDone with
      | true => simp
      | false => simp [hookError_eq_some]

/-- A generating call is honest exactly if its hooks fail with no error that reads as success. -/
theorem honest_generate {s : Stage ω} {pulls : ℕ} {slots : GetNextResult → GetNextResult}
    (routed : ∀ frame, route ops s frame = .generate (slots frame.result) pulls) (frame : Frame) :
    Honest (execGetNext codec ops) (getNextError codec ops) s frame ↔
      ∀ reason, getNextError codec ops s frame ≠ some (.hostError statusOkCode reason) := by
  have calls : ∀ before : Frame, (execGetNext codec ops s before).1 =
      (getNextGenerator codec ops before.queryCtx (slots before.result)
        (s.generating pulls)).1 := by
    intro before
    rw [execGetNext_eq, routed]
  have replies : s.exec.generatorDone = false → ∀ before : Frame,
      (execGetNext codec ops s before).1 = closureReply (slots before.result)
        (generate codec ops before.queryCtx (s.generating pulls)).1 := by
    intro working before
    rw [calls, getNextGenerator, if_neg (by simpa [Stage.generating] using working)]
  constructor
  · intro honest reason failed
    have fails := honest.reports _ failed
    obtain ⟨_, working, hooks⟩ := (getNextError_generate codec ops (routed frame)).mp failed
    rw [replies working, generate_of_runHooks codec ops hooks] at fails
    simp [closureReply, faultStatus, ExtensionError.intoRawStatus,
      ExtensionError.statusCode] at fails
  · intro failing
    refine ⟨?_, ?_⟩
    · intro okay before sameCtx
      cases done : s.exec.generatorDone with
      | true =>
          rw [calls, calls, getNextGenerator, getNextGenerator, if_pos (by exact done),
            if_pos (by exact done)]
      | false =>
          rw [replies done] at okay
          rw [replies done, replies done, sameCtx]
          cases outcome : (generate codec ops frame.queryCtx (s.generating pulls)).1 with
          | ok res => rfl
          | error fault =>
              rw [outcome] at okay
              cases fault with
              | panic => simp [closureReply, faultStatus, ExtensionError.intoRawStatus,
                  ExtensionError.statusCode] at okay
              | error e =>
                  obtain ⟨reason, rfl⟩ := (ExtensionError.intoRawStatus_isOk e).mp okay
                  rcases deliver_error codec ops outcome with hooks | ⟨text, impossible⟩
                  · have decoded := decoded_of_runHooks codec ops hooks
                    exact absurd ((getNextError_generate codec ops (routed frame)).mpr
                      ⟨decoded, done, hooks⟩) (failing reason)
                  · cases impossible
    · intro e failed
      obtain ⟨_, working, hooks⟩ := (getNextError_generate codec ops (routed frame)).mp failed
      rw [replies working, generate_of_runHooks codec ops hooks]
      rw [Bool.eq_false_iff]
      intro okay
      obtain ⟨reason, rfl⟩ := (ExtensionError.intoRawStatus_isOk e).mp okay
      exact failing reason failed

/-- A stranded stage takes the route that does nothing. -/
theorem not_stranded {s : Stage ω} {frame : Frame} (acts : route ops s frame ≠ .silent) :
    ¬ Stranded s := by
  intro stranded
  exact acts (by rw [route, stranded.1, stranded.2])

/-- A frame with the same context whose code is another one. -/
def otherFrame (frame : Frame) : Frame :=
  ⟨frame.queryCtx, ⟨if frame.result.code = .eof then .advanced else .eof, .empty, .empty⟩, rfl⟩

theorem otherFrame_ne (frame : Frame) : (otherFrame frame).result ≠ frame.result := by
  intro same
  have codes := congrArg GetNextResult.code same
  simp only [otherFrame] at codes
  split at codes
  · next eof =>
    rw [eof] at codes
    cases codes
  · next other => exact other codes.symm

/-- **A call of a source stage is honest exactly if the stage is not stranded and no hook fails with
an error that reads as success.** -/
theorem source_honest_iff (s : Stage ω) (frame : Frame) :
    Honest (execGetNext codec ops) (getNextError codec ops) s frame ↔
      ¬ Stranded s ∧
        ∀ reason, getNextError codec ops s frame ≠ some (.hostError statusOkCode reason) := by
  rcases route_cases ops s with refused | ⟨stranded, silent⟩ | ⟨up, forwards⟩ |
      ⟨pulls, slots, generates⟩
  · have calls : (execGetNext codec ops s frame).1 = ⟨propertiesPanic, frame.result⟩ := by
      rw [execGetNext_eq, refused]
    have noError : getNextError codec ops s frame = none := by
      rw [getNextError, refused]
    have moored : ¬ Stranded s := not_stranded ops (by rw [refused frame]; exact Route.noConfusion)
    refine ⟨fun _ => ⟨moored, fun reason => by simp [noError]⟩, fun _ => ⟨?_, ?_⟩⟩
    · intro okay
      rw [calls] at okay
      simp [propertiesPanic, ExtensionError.intoRawStatus, ExtensionError.statusCode] at okay
    · intro e failed
      rw [noError] at failed
      cases failed
  · have calls : ∀ before : Frame,
        (execGetNext codec ops s before).1 = ⟨statusOk, before.result⟩ := by
      intro before
      rw [execGetNext_eq, silent]
    refine ⟨?_, fun conditions => absurd stranded conditions.1⟩
    intro honest
    have same := honest.writes (by rw [calls]; rfl) (otherFrame frame) rfl
    rw [calls, calls] at same
    exact absurd same (otherFrame_ne frame)
  · have calls : ∀ before : Frame,
        (execGetNext codec ops s before).1 = (up s.pulls).reply before.result := by
      intro before
      rw [execGetNext_eq, forwards]
    have noError : getNextError codec ops s frame = none := by
      rw [getNextError, forwards]
    have moored : ¬ Stranded s := not_stranded ops (by rw [forwards frame]; exact Route.noConfusion)
    refine ⟨fun _ => ⟨moored, fun reason => by simp [noError]⟩, fun _ => ⟨?_, ?_⟩⟩
    · intro okay before _
      rw [calls] at okay
      rw [calls, calls]
      cases answer : up s.pulls with
      | success status fine res exclusive => rfl
      | failure status bad written =>
          rw [answer] at okay
          simp [Pulled.reply, bad] at okay
    · intro e failed
      rw [noError] at failed
      cases failed
  · rw [honest_generate codec ops generates frame]
    have moored : ¬ Stranded s :=
      not_stranded ops (by rw [generates frame]; exact Route.noConfusion)
    exact ⟨fun failing => ⟨moored, failing⟩, fun conditions => conditions.2⟩

end Source

/-! ## Map and passthrough stages -/

section Map

open MapTransform

variable (codec : BsonCodec) (mg : MapStageGlobals)

/-- An error of the transform is the error of the advanced branch. -/
theorem advancedRow_reports {res : GetNextResult} {s : Stage} {row args : Document} {e : String}
    (read : documentFromByteContainer codec res.resultDocument = .ok row)
    (decoded : codec.decode s.exec.args = .ok args)
    (failed : hookError (mg.transform row args) = some e) :
    (advancedRow codec mg res s).1.status.isOk = false := by
  have transformed := hookError_eq_some.mp failed
  have mapped : mapRow codec mg s.exec.args (.ok row)
      (s.heap.releaseByteContainer res.resultDocument) = .error (.error e) := by
    simp only [mapRow, fallible, decoded, transformed, Except.mapError, bind, Except.bind]
  simp only [advancedRow, read, mapped]
  rfl

/-- An error of the callback is the error of the end branch. -/
theorem syntheticRow_reports {onEof : Document → HookOutcome String Document} {res : GetNextResult}
    {s : Stage} {args : Document} {e : String} (decoded : codec.decode s.exec.args = .ok args)
    (failed : hookError (onEof args) = some e) :
    (syntheticRow codec onEof res s).1.status.isOk = false := by
  have called := hookError_eq_some.mp failed
  have synthesized : synthesize codec onEof s.exec.args s.heap = .error (.error e) := by
    simp only [synthesize, fallible, decoded, called, Except.mapError, bind, Except.bind]
  simp only [syntheticRow, synthesized]
  rfl

/-- **Every call of a map stage is honest.** -/
theorem map_honest (s : Stage) (frame : Frame) :
    Honest (execGetNext codec mg) (fun s _ => getNextError codec mg s) s frame := by
  refine ⟨?_, ?_⟩
  · intro okay before _
    cases source : s.exec.source with
    | none => simp [execGetNext, source]
    | some up =>
        cases answer : up s.pulls with
        | success status fine res exclusive => simp [execGetNext, source, answer]
        | failure status bad written => simp [execGetNext, source, answer, bad] at okay
  · intro e failed
    cases source : s.exec.source with
    | none => simp [getNextError, source] at failed
    | some up =>
        cases answer : up s.pulls with
        | failure status bad written => simp [execGetNext, source, answer, bad]
        | success status fine res exclusive =>
            cases decoded : codec.decode s.exec.args with
            | error e' => simp [getNextError, source, answer, decoded] at failed
            | ok args =>
                cases code : res.code with
                | pauseExecution => simp [getNextError, source, answer, decoded, code] at failed
                | advanced =>
                    cases read : documentFromByteContainer codec res.resultDocument with
                    | error e' =>
                        simp [getNextError, source, answer, decoded, code, read] at failed
                    | ok row =>
                        simp only [getNextError, source, answer, decoded, code, read] at failed
                        simp only [execGetNext, source, answer, mapResult, code]
                        exact advancedRow_reports codec mg read decoded failed
                | eof =>
                    simp only [getNextError, source, answer, decoded, code] at failed
                    split at failed
                    · cases failed
                    · next unseen =>
                      cases callback : mg.onEofNoRows with
                      | none => simp [callback] at failed
                      | some onEof =>
                          simp only [callback, Option.bind_some] at failed
                          simp only [execGetNext, source, answer, mapResult, code, callback,
                            if_neg unseen]
                          exact syntheticRow_reports codec decoded failed

end Map

/-- **Every call of a passthrough stage is honest**; it has no hooks. -/
theorem pass_honest (s : Passthrough.Stage) (frame : Frame) :
    Honest Passthrough.execGetNext (fun _ _ => (none : Option String)) s frame := by
  refine ⟨?_, fun e impossible => by cases impossible⟩
  intro okay before _
  cases source : s.exec.source with
  | none => simp [Passthrough.execGetNext, source]
  | some up =>
      cases answer : up s.pulls with
      | success status fine res exclusive =>
          simp [Passthrough.execGetNext, source, answer, Pulled.reply]
      | failure status bad written =>
          simp [Passthrough.execGetNext, source, answer, Pulled.reply, bad] at okay

/-- **Calls of map and passthrough stages are honest in every run, and those of a source stage in
exactly the runs in which it is never stranded and no hook fails with an error that reads as
success.** -/
theorem getNext_honest_iff {ω : Type} (codec : BsonCodec) (ops : SourceStage.SourceOps ω)
    (mg : MapTransform.MapStageGlobals) (operations : List Operation) :
    (∀ s, (overSource SourceStage.execSetSource (SourceStage.execGetNext codec ops)).Along
        (AtGetNext (Honest (SourceStage.execGetNext codec ops)
          (SourceStage.getNextError codec ops))) s operations ↔
      (overSource SourceStage.execSetSource (SourceStage.execGetNext codec ops)).Along
        (AtGetNext fun s frame => ¬ Stranded s ∧ ∀ reason,
          SourceStage.getNextError codec ops s frame ≠ some (.hostError statusOkCode reason))
        s operations) ∧
    (∀ s, (overSource MapTransform.execSetSource (MapTransform.execGetNext codec mg)).Along
      (AtGetNext (Honest (MapTransform.execGetNext codec mg)
        fun s _ => MapTransform.getNextError codec mg s)) s operations) ∧
    ∀ s, (overSource Passthrough.execSetSource Passthrough.execGetNext).Along
      (AtGetNext (Honest Passthrough.execGetNext fun _ _ => (none : Option String)))
      s operations := by
  refine ⟨fun s => ?_, fun s => ?_, fun s => ?_⟩
  · exact atGetNext_congr (source_honest_iff codec ops) s operations
  · exact atGetNext_of_every (map_honest codec mg) s operations
  · exact atGetNext_of_every pass_honest s operations

section Run

/-- A stage that requires input, and whose generator fails with a host error of code `0`. -/
def zeroCodeOps : SourceStage.SourceOps Unit where
  openFromDoc _ _ hooks := (.error (.error (.hostError 0 "no reason")), hooks)
  dropState _ hooks := (some (), hooks)
  next _ _ hooks := (.ok .eof, hooks)
  staticPropertiesDoc := some []

/-- Slots in which a row of an earlier call is left. -/
def staleFrame : Frame := ⟨none, ⟨.advanced, .byteView (some [5, 0, 0, 0, 0]), .empty⟩, rfl⟩

/-- A stage that forwarded a row and lost its upstream leaves the slots as they were, under an OK
status. A stage whose open hook fails with code `0` does so as well. -/
theorem getNext_leaves_slots :
    let codec : BsonCodec := ⟨fun _ => .ok [5, 0, 0, 0, 0], fun _ => .ok []⟩
    let getNext := SourceStage.execGetNext codec zeroCodeOps
    let start := SourceStage.Stage.compiled (SourceStage.execAlloc [] none) ()
    let operations : List Operation :=
      [.setSource (some SourceStage.rowsForever), .getNext .blank, .setSource none,
        .getNext staleFrame]
    (overSource SourceStage.execSetSource getNext).outputs start operations =
        [none, some ⟨statusOk, staleFrame.result⟩, none, some ⟨statusOk, staleFrame.result⟩] ∧
      ¬ (overSource SourceStage.execSetSource getNext).Along
        (AtGetNext (Honest getNext (SourceStage.getNextError codec zeroCodeOps))) start operations ∧
      (getNext start staleFrame).1.status.isOk = true ∧
      (getNext start staleFrame).1.result = staleFrame.result := by
  intro codec getNext start operations
  refine ⟨rfl, ?_, rfl, rfl⟩
  intro honest
  have written := (honest.2.2.2.1 staleFrame rfl).writes rfl .blank rfl
  cases congrArg GetNextResult.code written

end Run

/-! ## Panics at the boundary -/

/-- **The entries of source and map stages guard their hooks**, whatever these do, exactly when they
are not exposed to a panic. -/
theorem entries_guard_iff (codec : BsonCodec) :
    (∀ {ω η : Type} (table : SourceStage.SourceTable ω) (entry : SourceStage.Entry ω η),
      Guards (SourceStage.runEntry codec table entry) ↔ ¬ entry.Exposed table) ∧
    ∀ (table : MapTransform.MapTable) (entry : MapTransform.Entry),
      Guards (MapTransform.runEntry codec table entry) ↔ ¬ entry.Exposed table :=
  ⟨fun table entry => SourceStage.guards_runEntry_iff codec table entry,
    fun table entry => MapTransform.guards_runEntry_iff codec table entry⟩

/-- A panic of the properties hook goes through `ast_get_properties` of both stages. -/
theorem properties_panic_crosses :
    let source := SourceStage.limitedSource none
    let map : MapTransform.MapTable := { echoMap with staticPropertiesDoc := none }
    let sourceEntry : SourceStage.Entry Unit ℕ := .astGetProperties
    (SourceStage.runEntry echoCodec source sourceEntry).value = none ∧
      (MapTransform.runEntry echoCodec map .astGetProperties).value = none ∧
      ¬ Guards (SourceStage.runEntry echoCodec source sourceEntry) ∧
      ¬ Guards (MapTransform.runEntry echoCodec map .astGetProperties) := by
  intro source map sourceEntry
  refine ⟨rfl, rfl, ?_, ?_⟩
  · rintro ⟨status, value, -⟩
    cases value
  · rintro ⟨status, value, -⟩
    cases value

end Stages

end ExtensionSdkMongodb

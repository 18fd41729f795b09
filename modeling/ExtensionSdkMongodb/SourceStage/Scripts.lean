import ExtensionSdkMongodb.SourceStage.Export

/-!
# Sources that come to an end

A source whose states yield finitely many results and then the end has a script: the results, each
with the world after it. A source that cannot be opened has one, too: it fails at every pull, and
each time it may leave something in the world.

The runs of an exported stage are those of its script (`Script.runs`). So of such a source only its
own functions have to be read.
-/

set_option autoImplicit false

namespace ExtensionSdkMongodb.SourceStage

variable {α σ ω : Type}

/-- A result that is not the end: a document with its metadata, or a fault. -/
abbrev RowOutcome := HookOutcome ExtensionError (Document × Option Document)

/-- The answer of `next` for a result. -/
def RowOutcome.next (result : RowOutcome) : HookOutcome ExtensionError Next :=
  result.map fun row => .advanced row.1 row.2

/-- What a pull yields for a result. -/
def RowOutcome.shown (codec : BsonCodec) : RowOutcome → Except Status Contents
  | .error fault => .error (faultStatus fault)
  | .ok row => Cursor.rowContents codec row.1 row.2

theorem deliver_next (codec : BsonCodec) (stage : SourceStageImpl α σ ω) (result : RowOutcome)
    (c : Cursor σ ω) : c.deliver codec stage result.next = (result.shown codec, c) := by
  cases result with
  | error fault => rfl
  | ok row => exact Cursor.deliver_advanced row.1 row.2 c

/-- How a source goes on: it fails whenever it is opened, or it yields its results and ends. -/
inductive Script (ω : Type) where
  | refused (fault : Fault ExtensionError) (retried : ω → ω)
  | told (results : List (RowOutcome × ω)) (final : ω)

namespace Script

/-- What the pull after `k` others yields. -/
def pulled (codec : BsonCodec) (script : Script ω) (k : ℕ) : Except Status Contents :=
  match script with
  | .refused fault _ => .error (faultStatus fault)
  | .told results _ =>
    match results[k]? with
    | some result => result.1.shown codec
    | none => .ok endOfStream

/-- What so many pulls yield, in order. -/
def pulls (codec : BsonCodec) (script : Script ω) (count : ℕ) : List (Except Status Contents) :=
  (List.range count).map (script.pulled codec)

/-- The world after so many pulls. -/
def world (script : Script ω) (start : ω) : ℕ → ω
  | 0 => start
  | k + 1 =>
    match script with
    | .refused _ retried => retried^[k + 1] start
    | .told results final => ((results[k]?).map Prod.snd).getD final

end Script

section Tells

variable (codec : BsonCodec) (stage : SourceStageImpl α σ ω) (setup : Setup)

/-- Opening the source of a cursor: its arguments are decoded and parsed first. -/
def openAttempt (world : ω) : HookOutcome ExtensionError σ × ω :=
  match codec.decode setup.args with
  | .error e => (.error (.error (.failedToParse e)), world)
  | .ok argsDoc =>
    match stage.parse argsDoc with
    | .error fault => (.error fault, world)
    | .ok a => stage.openArgs a setup.openContext world

/-- A state yields the results, and then the end, in every query. -/
inductive Yields : σ → ω → List (RowOutcome × ω) → ω → Prop where
  | ended {s s' : σ} {w w' : ω}
      (next : ∀ q, stage.next s (setup.nextContext q) w = ((.ok .eof, s'), w')) :
      Yields s w [] (stage.dropInPlace s' w').2
  | more {s s' : σ} {w w' final : ω} {result : RowOutcome} {results : List (RowOutcome × ω)}
      (next : ∀ q, stage.next s (setup.nextContext q) w = ((result.next, s'), w'))
      (rest : Yields s' w' results final) : Yields s w ((result, w') :: results) final

/-- The script of a source that starts in a world. -/
inductive Tells (world : ω) : Script ω → Prop where
  | refused {fault : Fault ExtensionError} {retried : ω → ω}
      (opens : ∀ w, openAttempt codec stage setup w = (.error fault, retried w)) :
      Tells world (.refused fault retried)
  | told {s : σ} {w final : ω} {results : List (RowOutcome × ω)}
      (opens : openAttempt codec stage setup world = (.ok s, w))
      (yields : Yields stage setup s w results final) : Tells world (.told results final)

variable {codec stage setup}

/-- The first pull fails when the source cannot be opened. -/
theorem pull_refused {world world' : ω} {fault : Fault ExtensionError}
    (opens : openAttempt codec stage setup world = (.error fault, world')) (queryCtx : Option ℕ) :
    (Cursor.start world).pull codec stage setup queryCtx =
      (.error (faultStatus fault), .start world') := by
  unfold openAttempt at opens
  simp only [Cursor.pull, Cursor.start, Bool.false_eq_true, if_false, Cursor.advance]
  cases decoded : codec.decode setup.args with
  | error e =>
      rw [decoded] at opens
      cases opens
      rfl
  | ok argsDoc =>
      rw [decoded] at opens
      simp only [Cursor.opened] at opens ⊢
      cases parsed : stage.parse argsDoc with
      | error fault =>
          rw [parsed] at opens
          cases opens
          rfl
      | ok a =>
          rw [parsed] at opens
          simp only at opens
          simp only [opens]
          rfl

/-- A source that can be opened is pulled as if it were open. -/
theorem pull_opened {world w : ω} {s : σ} (opens : openAttempt codec stage setup world = (.ok s, w))
    (queryCtx : Option ℕ) :
    (Cursor.start world).pull codec stage setup queryCtx =
      Cursor.pull codec stage setup ⟨some s, false, w⟩ queryCtx := by
  unfold openAttempt at opens
  simp only [Cursor.pull, Cursor.start, Bool.false_eq_true, if_false, Cursor.advance]
  cases decoded : codec.decode setup.args with
  | error e =>
      rw [decoded] at opens
      cases opens
  | ok argsDoc =>
      rw [decoded] at opens
      simp only [Cursor.opened] at opens ⊢
      cases parsed : stage.parse argsDoc with
      | error fault =>
          rw [parsed] at opens
          cases opens
      | ok a =>
          rw [parsed] at opens
          simp only at opens
          simp only [opens]

/-- A source that opens in an unchanged world runs as if it were open. -/
theorem run_opened {world : ω} {s : σ}
    (opens : openAttempt codec stage setup world = (.ok s, world)) (ctxs : List (Option ℕ)) :
    (Cursor.pull codec stage setup).outputs (.start world) ctxs =
        (Cursor.pull codec stage setup).outputs ⟨some s, false, world⟩ ctxs ∧
      ((Cursor.pull codec stage setup).after (.start world) ctxs).world =
        ((Cursor.pull codec stage setup).after ⟨some s, false, world⟩ ctxs).world := by
  cases ctxs with
  | nil => exact ⟨rfl, rfl⟩
  | cons q ctxs =>
      rw [Machine.outputs_cons, Machine.after_cons, pull_opened opens]
      exact ⟨rfl, rfl⟩

/-- A pull of an open source. -/
theorem pull_some {s : σ} {w : ω} {argsDoc : Document}
    (decoded : codec.decode setup.args = .ok argsDoc) (queryCtx : Option ℕ) :
    Cursor.pull codec stage setup ⟨some s, false, w⟩ queryCtx =
      Cursor.deliver codec stage (stage.next s (setup.nextContext queryCtx) w).1.1
        ⟨some (stage.next s (setup.nextContext queryCtx) w).1.2, false,
          (stage.next s (setup.nextContext queryCtx) w).2⟩ := by
  exact Cursor.pull_of_opened rfl decoded rfl

/-- A source is opened with arguments that can be decoded. -/
theorem decode_of_openAttempt {world w : ω} {s : σ}
    (opens : openAttempt codec stage setup world = (.ok s, w)) :
    ∃ argsDoc, codec.decode setup.args = .ok argsDoc := by
  unfold openAttempt at opens
  cases decoded : codec.decode setup.args with
  | error e =>
      rw [decoded] at opens
      cases opens
  | ok argsDoc => exact ⟨argsDoc, rfl⟩

/-- **An open source yields its results and then the end**, and leaves the worlds of its script. -/
theorem Yields.run {argsDoc : Document} (decoded : codec.decode setup.args = .ok argsDoc) {s : σ}
    {w final : ω} {results : List (RowOutcome × ω)} (yields : Yields stage setup s w results final)
    (ctxs : List (Option ℕ)) :
    (Cursor.pull codec stage setup).outputs ⟨some s, false, w⟩ ctxs =
        (Script.told results final).pulls codec ctxs.length ∧
      ((Cursor.pull codec stage setup).after ⟨some s, false, w⟩ ctxs).world =
        (Script.told results final).world w ctxs.length := by
  induction yields generalizing ctxs with
  | @ended s s' w w' next =>
      cases ctxs with
      | nil => exact ⟨rfl, rfl⟩
      | cons q ctxs =>
          have fixed : ∀ q, Cursor.pull codec stage setup ⟨none, true, (stage.dropInPlace s' w').2⟩
              q = (.ok endOfStream, ⟨none, true, (stage.dropInPlace s' w').2⟩) :=
            fun q => Cursor.pull_of_finished rfl
          have finished := Machine.run_of_fixed fixed ctxs
          have first : Cursor.pull codec stage setup ⟨some s, false, w⟩ q =
              (.ok endOfStream, ⟨none, true, (stage.dropInPlace s' w').2⟩) := by
            rw [pull_some decoded, next]
            rfl
          rw [Machine.outputs_cons, Machine.after_cons, first, finished.1, finished.2]
          have always : Script.pulled codec (.told [] (stage.dropInPlace s' w').2) =
              fun _ => .ok endOfStream := by
            funext k
            simp [Script.pulled]
          refine ⟨?_, rfl⟩
          simp only [Script.pulls, always, List.map_const', List.length_range, List.length_cons,
            List.replicate_succ]
  | @more s s' w w' final result results next rest ih =>
      cases ctxs with
      | nil => exact ⟨rfl, rfl⟩
      | cons q ctxs =>
          have first : Cursor.pull codec stage setup ⟨some s, false, w⟩ q =
              (result.shown codec, ⟨some s', false, w'⟩) := by
            rw [pull_some decoded, next, deliver_next]
          obtain ⟨shown, worlds⟩ := ih ctxs
          rw [Machine.outputs_cons, Machine.after_cons, first, shown, worlds]
          refine ⟨?_, ?_⟩
          · simp only [Script.pulls, List.length_cons, List.range_succ_eq_map, List.map_cons,
              List.map_map]
            rfl
          · cases ctxs with
            | nil => rfl
            | cons q' ctxs => rfl

/-- **A cursor yields what its script tells**, and leaves the worlds of the script. -/
theorem Tells.run {world : ω} {script : Script ω} (tells : Tells codec stage setup world script)
    (ctxs : List (Option ℕ)) :
    (Cursor.pull codec stage setup).outputs (.start world) ctxs = script.pulls codec ctxs.length ∧
      ((Cursor.pull codec stage setup).after (.start world) ctxs).world =
        script.world world ctxs.length := by
  cases tells with
  | @refused fault retried opens =>
      have step : ∀ (k : ℕ) (c : Cursor σ ω) (q : Option ℕ), c = Cursor.start (retried^[k] world) →
          (Cursor.pull codec stage setup c q).1 = .error (faultStatus fault) ∧
            (Cursor.pull codec stage setup c q).2 = Cursor.start (retried^[k + 1] world) := by
        rintro k c q rfl
        rw [pull_refused (opens _), Function.iterate_succ_apply']
        exact ⟨rfl, rfl⟩
      have start : Cursor.start (σ := σ) world = Cursor.start (retried^[0] world) := rfl
      have shown := Machine.outputs_of_schedule step start ctxs
      have last := Machine.after_of_schedule (fun k c q here => (step k c q here).2) start ctxs
      rw [Nat.zero_add] at last
      refine ⟨?_, ?_⟩
      · rw [shown, Script.pulls, List.range_eq_range']
        rfl
      · rw [last]
        cases ctxs <;> rfl
  | @told s w final results opens yields =>
      obtain ⟨argsDoc, decoded⟩ := decode_of_openAttempt opens
      cases ctxs with
      | nil => exact ⟨rfl, rfl⟩
      | cons q ctxs =>
          have run := yields.run decoded (q :: ctxs)
          rw [Machine.outputs_cons, Machine.after_cons, ← pull_opened opens] at run
          exact run

end Tells

/-- **The runs of an exported stage are those of its script.** -/
theorem Script.runs (codec : BsonCodec) (stage : SourceStageImpl α σ ω)
    (drops : stage.DropsQuietly) (setup : Setup) (world : ω) {script : Script ω}
    (tells : Tells codec stage setup world script) (source : Option Upstream)
    (frames : List Frame) :
    RunsAs stage.requires source (fun ctxs => script.pulls codec ctxs.length)
      (fun ctxs => script.world world ctxs.length) frames
      ((execGetNext codec stage.sdkSourceOps.toSourceOps).outputs
        (setup.compiled ⟨.empty, world⟩ source) frames)
      ((execGetNext codec stage.sdkSourceOps.toSourceOps).after
        (setup.compiled ⟨.empty, world⟩ source) frames).hooks.world
      ((execGetNext codec stage.sdkSourceOps.toSourceOps).after
        (setup.compiled ⟨.empty, world⟩ source) frames).pulls := by
  apply (runsAs_cursor codec stage drops setup world source frames).map id
  · intro ctxs
    exact (tells.run ctxs).1
  · intro ctxs
    exact (tells.run ctxs).2

end ExtensionSdkMongodb.SourceStage

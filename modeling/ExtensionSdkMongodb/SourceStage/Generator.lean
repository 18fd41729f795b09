import ExtensionSdkMongodb.SourceStage.Route

/-!
# The generator on its own

A generator is what the hooks of a source stage mean without upstreams, modes, slots and
buffers. It opens its state when it has none, asks `next` for one result per pull, encodes the
rows, and after the end it only reports the end (`Generator.pull`, `outputs_finished`). A pull
that fails changes nothing but the hooks' world and the state they returned, so the next pull
resumes.

The generating calls of the executable stage are the pulls of this generator
(`getNextGenerator_pull`).
-/

set_option autoImplicit false

namespace ExtensionSdkMongodb.SourceStage

variable {ω : Type}

/-- A generator: the state its `open` hook returned, whether it reported its end, and the world
of its hooks. -/
structure Generator (ω : Type) where
  state : StatePtr
  finished : Bool
  hooks : ω

/-- A generator before its first pull. -/
def Generator.start (hooks : ω) : Generator ω := ⟨none, false, hooks⟩

/-- What the end of the stream looks like to a reader. -/
def endOfStream : Contents := ⟨.eof, [], []⟩

/-- What never changes about a generator: its arguments and what its hooks are told. -/
structure Setup where
  args : Bytes
  catalog : Option CatalogContext
  metrics : Option ℕ

section Pull

variable (codec : BsonCodec) (ops : SourceOps ω) (setup : Setup)

/-- The context of the `open` hook. -/
def Setup.openContext : StageContext := StageContext.new.bindCatalog setup.catalog

/-- The context of the `next` hook. -/
def Setup.nextContext (queryCtx : Option ℕ) : StageContext :=
  setup.openContext.bindExecution queryCtx setup.metrics

/-- The state to ask for the next result, opened if there is none. -/
def Generator.opened (argsDoc : Document) (g : Generator ω) :
    HookOutcome ExtensionError Unit × Generator ω :=
  match g.state with
  | some _ => (.ok (), g)
  | none =>
    match ops.openFromDoc argsDoc setup.openContext g.hooks with
    | (.error fault, hooks) => (.error fault, { g with hooks })
    | (.ok state, hooks) => (.ok (), { g with state, hooks })

/-- The contents of a row, once encoded. -/
def encodeRow (document : Document) (metadata : Option Document) : Except String Contents := do
  let bytes ← codec.encode document
  match metadata with
  | none => return ⟨.advanced, bytes, []⟩
  | some metaDoc => return ⟨.advanced, bytes, ← codec.encode metaDoc⟩

/-- The hooks of one pull: `open` if there is no state, then `next`. -/
def Generator.runHooks (queryCtx : Option ℕ) (g : Generator ω) :
    HookOutcome ExtensionError Next × Generator ω :=
  match codec.decode setup.args with
  | .error e => (.error (.error (.failedToParse e)), g)
  | .ok argsDoc =>
    match g.opened ops setup argsDoc with
    | (.error fault, g) => (.error fault, g)
    | (.ok (), g) =>
      let answer := ops.next g.state (setup.nextContext queryCtx) g.hooks
      (answer.1, { g with hooks := answer.2 })

/-- What a pull yields for what `next` returned: an error's status, the end, or a row. -/
def Generator.deliver (outcome : HookOutcome ExtensionError Next) (g : Generator ω) :
    Except Status Contents × Generator ω :=
  match outcome with
  | .error fault => (.error (faultStatus fault), g)
  | .ok .eof =>
    match ops.dropState g.state g.hooks with
    | (none, hooks) => (.error (faultStatus .panic), { g with hooks })
    | (some (), hooks) => (.ok endOfStream, ⟨none, true, hooks⟩)
  | .ok (.advanced document metadata) =>
    match encodeRow codec document metadata with
    | .error e => (.error (ExtensionError.failedToParse e).intoRawStatus, g)
    | .ok contents => (.ok contents, g)

/-- A pull: the end forever, or one result of the hooks. -/
def Generator.pull : Machine (Generator ω) (Option ℕ) (Except Status Contents) :=
  fun g queryCtx =>
    if g.finished then (.ok endOfStream, g)
    else
      let (outcome, g) := g.runHooks codec ops setup queryCtx
      g.deliver codec ops outcome

variable {codec ops setup}

/-- A finished generator reports its end on every pull. -/
theorem outputs_finished {g : Generator ω} (finished : g.finished = true)
    (pulls : List (Option ℕ)) :
    (Generator.pull codec ops setup).outputs g pulls =
      List.replicate pulls.length (.ok endOfStream) := by
  induction pulls with
  | nil => rfl
  | cons queryCtx pulls ih =>
      have step : Generator.pull codec ops setup g queryCtx = (.ok endOfStream, g) := by
        simp [Generator.pull, finished]
      rw [Machine.outputs_cons, step, List.length_cons, List.replicate_succ, ih]

theorem encodeRow_code {document : Document} {metadata : Option Document} {contents : Contents}
    (encoded : encodeRow codec document metadata = .ok contents) :
    contents.code = .advanced := by
  cases bytes : codec.encode document with
  | error e => simp [encodeRow, bytes, bind, Except.bind] at encoded
  | ok bytes' =>
      cases metadata with
      | none =>
          simp only [encodeRow, bytes, bind, Except.bind, pure, Except.pure,
            Except.ok.injEq] at encoded
          rw [← encoded]
      | some metaDoc =>
          cases metaBytes : codec.encode metaDoc with
          | error e => simp [encodeRow, bytes, metaBytes, bind, Except.bind] at encoded
          | ok _ =>
              simp only [encodeRow, bytes, metaBytes, bind, Except.bind, pure, Except.pure,
                Except.ok.injEq] at encoded
              rw [← encoded]

theorem deliver_finished {outcome : HookOutcome ExtensionError Next} {g : Generator ω}
    (ended : (g.deliver codec ops outcome).1 = .ok endOfStream) :
    (g.deliver codec ops outcome).2.finished = true := by
  rcases outcome with fault | (⟨document, metadata⟩ | _)
  · cases ended
  · simp only [Generator.deliver] at ended
    cases encoded : encodeRow codec document metadata with
    | error e => simp [encoded] at ended
    | ok contents =>
        have code := encodeRow_code encoded
        simp only [encoded, Except.ok.injEq] at ended
        rw [ended] at code
        cases code
  · simp only [Generator.deliver] at ended ⊢
    rcases dropped : ops.dropState g.state g.hooks with ⟨_ | _, hooks⟩
    · simp [dropped] at ended
    · rfl

theorem deliver_failed {outcome : HookOutcome ExtensionError Next} {g : Generator ω}
    {status : Status} (failed : (g.deliver codec ops outcome).1 = .error status) :
    (g.deliver codec ops outcome).2.state = g.state ∧
      (g.deliver codec ops outcome).2.finished = g.finished := by
  rcases outcome with fault | (⟨document, metadata⟩ | _)
  · exact ⟨rfl, rfl⟩
  · simp only [Generator.deliver]
    cases encodeRow codec document metadata with
    | error e => exact ⟨rfl, rfl⟩
    | ok contents => exact ⟨rfl, rfl⟩
  · simp only [Generator.deliver] at failed ⊢
    rcases dropped : ops.dropState g.state g.hooks with ⟨_ | _, hooks⟩
    · exact ⟨rfl, rfl⟩
    · simp [dropped] at failed

/-- A pull that reports the end leaves the generator finished. -/
theorem pull_finished {g : Generator ω} {queryCtx : Option ℕ}
    (ended : (Generator.pull codec ops setup g queryCtx).1 = .ok endOfStream) :
    (Generator.pull codec ops setup g queryCtx).2.finished = true := by
  cases finished : g.finished with
  | true => simp [Generator.pull, finished]
  | false =>
      simp only [Generator.pull, finished, Bool.false_eq_true, if_false] at ended ⊢
      exact deliver_finished ended

variable (codec ops setup) in
theorem runHooks_keeps (g : Generator ω) (queryCtx : Option ℕ) :
    (g.runHooks codec ops setup queryCtx).2.finished = g.finished ∧
      ∀ ptr, g.state = some ptr →
        (g.runHooks codec ops setup queryCtx).2.state = some ptr := by
  unfold Generator.runHooks
  cases codec.decode setup.args with
  | error e => exact ⟨rfl, fun _ state => state⟩
  | ok argsDoc =>
      obtain ⟨state, finished, hooks⟩ := g
      cases state with
      | some ptr => exact ⟨rfl, fun _ state => state⟩
      | none =>
          simp only [Generator.opened]
          rcases ops.openFromDoc argsDoc setup.openContext hooks with ⟨_ | _, _⟩
          · exact ⟨rfl, fun _ state => state⟩
          · exact ⟨rfl, fun ptr state => by cases state⟩

/-- **A failed pull leaves the generator working, with the state it had.** -/
theorem pull_resumes {g : Generator ω} {queryCtx : Option ℕ} {status : Status}
    (failed : (Generator.pull codec ops setup g queryCtx).1 = .error status) :
    (Generator.pull codec ops setup g queryCtx).2.finished = false ∧
      ∀ ptr, g.state = some ptr →
        (Generator.pull codec ops setup g queryCtx).2.state = some ptr := by
  cases finished : g.finished with
  | true => simp [Generator.pull, finished] at failed
  | false =>
      obtain ⟨working, kept⟩ := runHooks_keeps codec ops setup g queryCtx
      simp only [Generator.pull, finished, Bool.false_eq_true, if_false] at failed ⊢
      obtain ⟨state, same⟩ := deliver_failed failed
      rw [same, state]
      exact ⟨working.trans finished, kept⟩

/-- **After the end, every later pull reports the end.** -/
theorem endOfStream_forever (g : Generator ω) (pulls : List (Option ℕ)) {i j : ℕ}
    (le : i ≤ j) (lt : j < pulls.length)
    (ended : ((Generator.pull codec ops setup).outputs g pulls)[i]? = some (.ok endOfStream)) :
    ((Generator.pull codec ops setup).outputs g pulls)[j]? = some (.ok endOfStream) := by
  induction pulls generalizing g i j with
  | nil => simp at lt
  | cons queryCtx pulls ih =>
      cases i with
      | zero =>
          simp only [Machine.outputs_cons, List.getElem?_cons_zero, Option.some.injEq] at ended
          cases j with
          | zero => simp [ended]
          | succ j =>
              simp only [List.length_cons, Nat.add_lt_add_iff_right] at lt
              rw [Machine.outputs_cons, List.getElem?_cons_succ,
                outputs_finished (pull_finished ended), List.getElem?_replicate, if_pos lt]
      | succ i =>
          obtain ⟨j, rfl⟩ : ∃ k, j = k + 1 := ⟨j - 1, by omega⟩
          simp only [Machine.outputs_cons, List.getElem?_cons_succ] at ended ⊢
          exact ih _ (by omega) (by simpa using lt) ended

end Pull

/-! ## Generating calls are pulls -/

/-- A reply shows an outcome: a failed pull returns its status, and a result comes under the OK
status in the slots. -/
def Shows (r : Reply) : Except Status Contents → Prop
  | .error status => r.status = status
  | .ok contents => r.status = statusOk ∧ r.result.contents = contents

/-- The generator inside a stage. -/
def Stage.generator (s : Stage ω) : Generator ω := ⟨s.exec.state, s.exec.generatorDone, s.hooks⟩

/-- The setup of the generator inside a stage. -/
def Stage.setup (s : Stage ω) : Setup := ⟨s.exec.args, s.exec.catalog, s.exec.metrics⟩

variable (codec : BsonCodec) (ops : SourceOps ω)

/-- A stage differs from an earlier one at most in its generator, its record and its heap. -/
structure SameOutside (before after : Stage ω) : Prop where
  setup : after.setup = before.setup
  source : after.exec.source = before.exec.source
  mode : after.exec.mode = before.exec.mode
  saw : after.exec.sawUpstreamAdvanced = before.exec.sawUpstreamAdvanced
  pulls : after.pulls = before.pulls

theorem SameOutside.rfl {s : Stage ω} : SameOutside s s :=
  ⟨Eq.refl _, Eq.refl _, Eq.refl _, Eq.refl _, Eq.refl _⟩

theorem SameOutside.trans {s t u : Stage ω} (first : SameOutside s t) (second : SameOutside t u) :
    SameOutside s u :=
  ⟨second.setup.trans first.setup, second.source.trans first.source,
    second.mode.trans first.mode, second.saw.trans first.saw, second.pulls.trans first.pulls⟩

theorem openState_opened (argsDoc : Document) (s : Stage ω) :
    (openState ops argsDoc s).1 = (s.generator.opened ops s.setup argsDoc).1 ∧
      (openState ops argsDoc s).2.generator = (s.generator.opened ops s.setup argsDoc).2 ∧
        SameOutside s (openState ops argsDoc s).2 := by
  obtain ⟨⟨args, catalog, source, state, done, mode, saw, metrics⟩, hooks, pulls, calls, heap⟩ := s
  cases state with
  | some ptr => exact ⟨rfl, rfl, .rfl⟩
  | none =>
      simp only [openState, Generator.opened, Stage.generator, Stage.setup, Setup.openContext]
      rcases ops.openFromDoc argsDoc (StageContext.new.bindCatalog catalog) hooks with ⟨_ | _, _⟩
      · exact ⟨rfl, rfl, rfl, rfl, rfl, rfl, rfl⟩
      · exact ⟨rfl, rfl, rfl, rfl, rfl, rfl, rfl⟩

theorem runHooks_pull (queryCtx : Option ℕ) (s : Stage ω) :
    (runHooks codec ops queryCtx s).1 =
        (s.generator.runHooks codec ops s.setup queryCtx).1 ∧
      (runHooks codec ops queryCtx s).2.generator =
        (s.generator.runHooks codec ops s.setup queryCtx).2 ∧
        SameOutside s (runHooks codec ops queryCtx s).2 := by
  have args : s.setup.args = s.exec.args := rfl
  simp only [runHooks, Generator.runHooks, args]
  cases codec.decode s.exec.args with
  | error e => exact ⟨rfl, rfl, .rfl⟩
  | ok argsDoc =>
      obtain ⟨outcome, generator, same⟩ := openState_opened ops argsDoc s
      simp only
      generalize openState ops argsDoc s = opened at outcome generator same ⊢
      generalize s.generator.opened ops s.setup argsDoc = pulled at outcome generator ⊢
      obtain ⟨result, s'⟩ := opened
      obtain ⟨result', g⟩ := pulled
      obtain rfl : result = result' := outcome
      obtain rfl : s'.generator = g := generator
      cases result with
      | error fault => exact ⟨rfl, rfl, same⟩
      | ok _ =>
          have context : s.setup.nextContext queryCtx = s'.setup.nextContext queryCtx := by
            rw [same.setup]
          simp only [callNext, context]
          exact ⟨rfl, rfl, same.trans ⟨rfl, rfl, rfl, rfl, rfl⟩⟩

theorem writeRow_shows (document : Document) (metadata : Option Document) (s : Stage ω) :
    (∀ res, (writeRow codec document metadata s).1 = .ok res →
        encodeRow codec document metadata = .ok res.contents) ∧
      (∀ fault, (writeRow codec document metadata s).1 = .error fault →
        ∃ e, fault = .error (.failedToParse e) ∧ encodeRow codec document metadata = .error e) ∧
      ∃ heap, (writeRow codec document metadata s).2 = { s with heap } := by
  cases bytes : codec.encode document with
  | error e =>
      simp only [writeRow, Heap.fromBson, bytes, Except.map, encodeRow, bind, Except.bind]
      exact ⟨by simp, by simp, s.heap, rfl⟩
  | ok raw =>
      cases metadata with
      | none =>
          simp only [writeRow, Heap.fromBson, bytes, Except.map, encodeRow, bind, Except.bind,
            pure, Except.pure]
          refine ⟨?_, by simp, _, rfl⟩
          rintro res written
          cases written
          rfl
      | some metaDoc =>
          cases metaBytes : codec.encode metaDoc with
          | error e =>
              simp only [writeRow, Heap.fromBson, bytes, metaBytes, Except.map, encodeRow, bind,
                Except.bind]
              exact ⟨by simp, by simp, _, rfl⟩
          | ok mraw =>
              simp only [writeRow, Heap.fromBson, bytes, metaBytes, Except.map, encodeRow, bind,
                Except.bind, pure, Except.pure]
              refine ⟨?_, by simp, _, rfl⟩
              rintro res written
              cases written
              rfl

theorem deliver_pull (outcome : HookOutcome ExtensionError Next) (res : GetNextResult)
    (s : Stage ω) :
    Shows (closureReply res (deliver codec ops outcome s).1)
        (s.generator.deliver codec ops outcome).1 ∧
      (deliver codec ops outcome s).2.generator = (s.generator.deliver codec ops outcome).2 ∧
        SameOutside s (deliver codec ops outcome s).2 := by
  rcases outcome with fault | (⟨document, metadata⟩ | _)
  · exact ⟨rfl, rfl, .rfl⟩
  · obtain ⟨written, failed, heap, stage⟩ := writeRow_shows codec document metadata s
    simp only [deliver, Generator.deliver]
    rcases row : writeRow codec document metadata s with ⟨fault | result, s'⟩
    · obtain ⟨e, rfl, encoded⟩ := failed fault (by rw [row])
      rw [row] at stage
      subst stage
      rw [encoded]
      exact ⟨rfl, rfl, rfl, rfl, rfl, rfl, rfl⟩
    · rw [row] at stage
      subst stage
      rw [written result (by rw [row])]
      exact ⟨⟨rfl, rfl⟩, rfl, rfl, rfl, rfl, rfl, rfl⟩
  · have state : s.generator.state = s.exec.state := rfl
    have hooks : s.generator.hooks = s.hooks := rfl
    simp only [deliver, finish, Generator.deliver, state, hooks]
    rcases ops.dropState s.exec.state s.hooks with ⟨_ | _, hooks⟩
    · exact ⟨rfl, rfl, rfl, rfl, rfl, rfl, rfl⟩
    · exact ⟨⟨rfl, rfl⟩, rfl, rfl, rfl, rfl, rfl, rfl⟩

/-- **A generating call is a pull of the generator inside the stage**, whatever the slots hold
when it begins. -/
theorem getNextGenerator_pull (queryCtx : Option ℕ) (res : GetNextResult) (s : Stage ω) :
    Shows (getNextGenerator codec ops queryCtx res s).1
        (Generator.pull codec ops s.setup s.generator queryCtx).1 ∧
      (getNextGenerator codec ops queryCtx res s).2.generator =
        (Generator.pull codec ops s.setup s.generator queryCtx).2 ∧
        SameOutside s (getNextGenerator codec ops queryCtx res s).2 := by
  have finished : s.generator.finished = s.exec.generatorDone := rfl
  simp only [getNextGenerator, Generator.pull, finished]
  cases s.exec.generatorDone with
  | true => exact ⟨⟨rfl, rfl⟩, rfl, .rfl⟩
  | false =>
      obtain ⟨outcome, generator, same⟩ := runHooks_pull codec ops queryCtx s
      obtain ⟨shows, generator', same'⟩ := deliver_pull codec ops
        (runHooks codec ops queryCtx s).1 res (runHooks codec ops queryCtx s).2
      rw [outcome, generator] at shows generator'
      simp only [Bool.false_eq_true, if_false, generate]
      rw [outcome] at same' ⊢
      exact ⟨shows, generator', same.trans same'⟩

end ExtensionSdkMongodb.SourceStage

import ExtensionSdkMongodb.Library.Ownership
import ExtensionSdkMongodb.Sdk.StageProperties
import ExtensionSdkMongodb.SourceStage.Nodes
import ExtensionSdkMongodb.SourceStage.Refinement

/-!
# Exported source stages

The author of a source implements a trait with an argument type and a state type of its own. The
export makes a table of functions on documents and raw pointers of it, and the state of a cursor is
a box behind such a pointer (`sdkSourceOps`).

A `Cursor` is what the author means: it has its state, without a pointer. Under a state that drops
without panicking, the generator over the exported table yields what the cursor yields, among any
other boxes of the process, and uses no pointer that is not valid (`Denotes.pull`). So every run of
a compiled stage shows its upstream or its cursor (`exported_runs`).
-/

set_option autoImplicit false

namespace ExtensionSdkMongodb.SourceStage

/-- An implementation of the trait `SourceStage`, with arguments `α` and states `σ`. Its functions
act on a world `ω`; those without an error result return or panic (`none`), as does the destructor
of a state. -/
structure SourceStageImpl (α σ ω : Type) where
  name : String
  parse : Document → HookOutcome ExtensionError α
  openArgs : α → StageContext → ω → HookOutcome ExtensionError σ × ω
  next : σ → StageContext → ω → (HookOutcome ExtensionError Next × σ) × ω
  dropInPlace : σ → ω → Option Unit × ω
  expand : α → Option Expansion := fun _ => some .selfStage
  properties : Option StageProperties := some StagePlan.sourceDefault.properties
  hostType : Option HostTypeRequirement := some .none
  mergingPipeline :
    α → Option CatalogContext → HookOutcome ExtensionError (Option (List Document)) :=
    fun _ _ => .ok none

/-- The boxes of the process, and the rest of the world. -/
structure Memory (σ ω : Type) where
  boxes : Boxes σ
  world : ω

variable {α σ ω : Type}

namespace SourceStageImpl

variable (stage : SourceStageImpl α σ ω)

/-! ## The exported table -/

/-- `__sdk_source_open`. -/
def sdkSourceOpen (d : Document) (ctx : StageContext) (m : Memory σ ω) :
    HookOutcome ExtensionError StatePtr × Memory σ ω :=
  match stage.parse d with
  | .error fault => (.error fault, m)
  | .ok a =>
    match stage.openArgs a ctx m.world with
    | (.error fault, world) => (.error fault, { m with world })
    | (.ok s, world) => (.ok (m.boxes.intoRaw s).1, ⟨(m.boxes.intoRaw s).2, world⟩)

/-- `__sdk_source_drop`. The box is freed even when the destructor of the state panics. -/
def sdkSourceDrop (ptr : StatePtr) (m : Memory σ ω) : Option Unit × Memory σ ω :=
  match ptr with
  | none => (some (), m)
  | some i =>
    match m.boxes.read (some i) with
    | none => (some (), { m with boxes := m.boxes.misuse })
    | some s =>
      let dropped := stage.dropInPlace s m.world
      (dropped.1, ⟨m.boxes.fromRaw (some i), dropped.2⟩)

/-- `__sdk_source_next`. -/
def sdkSourceNext (ptr : StatePtr) (ctx : StageContext) (m : Memory σ ω) :
    HookOutcome ExtensionError Next × Memory σ ω :=
  match m.boxes.read ptr with
  -- What follows from a pointer that is not valid is undefined; the boxes remember the use.
  | none => (.error .panic, { m with boxes := m.boxes.misuse })
  | some s =>
    let answer := stage.next s ctx m.world
    (answer.1.1, ⟨m.boxes.write ptr answer.1.2, answer.2⟩)

/-- `__sdk_source_static_properties`. -/
def sdkSourceStaticProperties : Option Document := do
  let properties ← stage.properties
  let hostType ← stage.hostType
  return properties.toDocumentWithHostType hostType

/-- `__sdk_source_expand_inner`. -/
def sdkSourceExpandInner (d : Document) : HookOutcome ExtensionError Expansion := do
  let a ← stage.parse d
  match stage.expand a with
  | none => .error .panic
  | some expansion => .ok expansion

/-- `__sdk_source_merging_pipeline`. -/
def sdkSourceMergingPipeline (d : Document) (catalog : Option CatalogContext) :
    HookOutcome ExtensionError (Option (List Document)) := do
  let a ← stage.parse d
  stage.mergingPipeline a catalog

/-- `__SDK_SOURCE_OPS`, the table that `export_source_stage!` makes. -/
def sdkSourceOps : SourceTable (Memory σ ω) where
  openFromDoc := stage.sdkSourceOpen
  dropState := stage.sdkSourceDrop
  next := stage.sdkSourceNext
  staticPropertiesDoc := stage.sdkSourceStaticProperties
  name := stage.name
  expectEmpty := false
  expandInner := stage.sdkSourceExpandInner
  mergingPipeline := some stage.sdkSourceMergingPipeline
  onExtensionInitialized := none

/-- Whether the stage requires input, by its own functions; `none` when one of them panics. -/
def requires : Option Bool := do
  let properties ← stage.properties
  let _ ← stage.hostType
  return properties.requiresInput

/-- The executable stage reads off the document what the properties say. -/
theorem requiresInput_sdkSourceOps :
    requiresInput stage.sdkSourceOps.toSourceOps = stage.requires := by
  simp only [requiresInput, sdkSourceOps, sdkSourceStaticProperties, requires]
  cases stage.properties with
  | none => rfl
  | some properties =>
      cases stage.hostType with
      | none => rfl
      | some hostType =>
          obtain ⟨-, -, read, -⟩ := properties.get_toDocumentWithHostType hostType
          simp [Document.getBool, read]

/-- The destructor of a state never panics. -/
def DropsQuietly : Prop := ∀ s w, (stage.dropInPlace s w).1 = some ()

variable {stage}

theorem sdkSourceDrop_quiet (drops : stage.DropsQuietly) (ptr : StatePtr) (m : Memory σ ω) :
    (stage.sdkSourceDrop ptr m).1 = some () := by
  cases ptr with
  | none => rfl
  | some i =>
      simp only [sdkSourceDrop]
      cases m.boxes.read (some i) with
      | none => rfl
      | some s => exact drops s m.world

end SourceStageImpl

/-! ## Cursors -/

/-- A cursor over an implementation: its state once it was opened, whether it reported its end, and
the world. -/
structure Cursor (σ ω : Type) where
  state : Option σ
  finished : Bool
  world : ω

namespace Cursor

/-- A cursor before its first pull. -/
def start (world : ω) : Cursor σ ω := ⟨none, false, world⟩

section Pull

variable (codec : BsonCodec) (stage : SourceStageImpl α σ ω) (setup : Setup)

/-- The state to ask for the next result, opened if there is none. -/
def opened (argsDoc : Document) (c : Cursor σ ω) : HookOutcome ExtensionError σ × Cursor σ ω :=
  match c.state with
  | some s => (.ok s, c)
  | none =>
    match stage.parse argsDoc with
    | .error fault => (.error fault, c)
    | .ok a =>
      match stage.openArgs a setup.openContext c.world with
      | (.error fault, world) => (.error fault, { c with world })
      | (.ok s, world) => (.ok s, { c with state := some s, world })

/-- The next result of the implementation, with the state that it leaves. -/
def advance (queryCtx : Option ℕ) (c : Cursor σ ω) :
    HookOutcome ExtensionError Next × Cursor σ ω :=
  match codec.decode setup.args with
  | .error e => (.error (.error (.failedToParse e)), c)
  | .ok argsDoc =>
    match c.opened stage setup argsDoc with
    | (.error fault, c) => (.error fault, c)
    | (.ok s, c) =>
      let answer := stage.next s (setup.nextContext queryCtx) c.world
      (answer.1.1, { c with state := some answer.1.2, world := answer.2 })

/-- The cursor at its end: its state is dropped. -/
def ended (c : Cursor σ ω) : Cursor σ ω :=
  match c.state with
  | none => ⟨none, true, c.world⟩
  | some s => ⟨none, true, (stage.dropInPlace s c.world).2⟩

/-- What a pull yields for a result: an error's status, the end, or a row. -/
def deliver (outcome : HookOutcome ExtensionError Next) (c : Cursor σ ω) :
    Except Status Contents × Cursor σ ω :=
  match outcome with
  | .error fault => (.error (faultStatus fault), c)
  | .ok .eof => (.ok endOfStream, c.ended stage)
  | .ok (.advanced document metadata) =>
    match encodeRow codec document metadata with
    | .error e => (.error (ExtensionError.failedToParse e).intoRawStatus, c)
    | .ok contents => (.ok contents, c)

/-- A pull: the end forever, or one result of the implementation. -/
def pull : Machine (Cursor σ ω) (Option ℕ) (Except Status Contents) :=
  fun c queryCtx =>
    if c.finished then (.ok endOfStream, c)
    else
      let (outcome, c) := c.advance codec stage setup queryCtx
      c.deliver codec stage outcome

/-- What a pull yields for a row. -/
def rowContents (document : Document) (metadata : Option Document) : Except Status Contents :=
  (encodeRow codec document metadata).mapError fun e =>
    (ExtensionError.failedToParse e).intoRawStatus

variable {codec stage setup}

@[simp] theorem deliver_advanced (document : Document) (metadata : Option Document)
    (c : Cursor σ ω) :
    c.deliver codec stage (.ok (.advanced document metadata)) =
      (rowContents codec document metadata, c) := by
  simp only [deliver, rowContents]
  cases encodeRow codec document metadata with
  | error e => rfl
  | ok contents => rfl

/-- A pull of a cursor that is not finished, from the state that it has or opens. -/
theorem pull_of_opened {c : Cursor σ ω} {queryCtx : Option ℕ} {argsDoc : Document} {s : σ}
    {world : ω} (working : c.finished = false) (decoded : codec.decode setup.args = .ok argsDoc)
    (opened : c.opened stage setup argsDoc = (.ok s, ⟨some s, false, world⟩)) :
    c.pull codec stage setup queryCtx =
      let answer := stage.next s (setup.nextContext queryCtx) world
      Cursor.deliver codec stage answer.1.1 ⟨some answer.1.2, false, answer.2⟩ := by
  simp only [pull, working, Bool.false_eq_true, if_false, advance, decoded, opened]

/-- A finished cursor reports its end, and stays as it is. -/
theorem pull_of_finished {c : Cursor σ ω} {queryCtx : Option ℕ} (finished : c.finished = true) :
    c.pull codec stage setup queryCtx = (.ok endOfStream, c) := by
  simp [pull, finished]

end Pull

end Cursor

/-! ## Pointers denote states -/

section Denotes

variable {ι : Type} [DecidableEq ι]

/-- The generator of an owner denotes its cursor, beside the boxes of other owners. -/
structure Denotes (owners : ι → StatePtr) (content : ι → Option σ) (i : ι)
    (g : Generator (Memory σ ω)) (c : Cursor σ ω) : Prop where
  finished : g.finished = c.finished
  world : g.hooks.world = c.world
  holds : g.hooks.boxes.Holds (Function.update owners i g.state) (Function.update content i c.state)

namespace Denotes

variable (codec : BsonCodec) {stage : SourceStageImpl α σ ω} (setup : Setup)
variable {owners : ι → StatePtr} {content : ι → Option σ} {i : ι}
variable {g : Generator (Memory σ ω)} {c : Cursor σ ω}

/-- The box behind the generator's pointer has the cursor's state. -/
theorem read (denotes : Denotes owners content i g c) : g.hooks.boxes.read g.state = c.state := by
  have each := denotes.holds.each i
  simpa only [Function.update_self] using each

theorem null (denotes : Denotes owners content i g c) (none_ : c.state = none) :
    g.state = none := by
  have null := denotes.holds.null i
  simp only [Function.update_self] at null
  exact null none_

/-- A cursor with a state has a generator with a pointer. -/
theorem pointer (denotes : Denotes owners content i g c) {s : σ} (has : c.state = some s) :
    ∃ p, g.state = some p := by
  cases state : g.state with
  | some p => exact ⟨p, rfl⟩
  | none =>
      have read := denotes.read
      rw [state, has] at read
      cases read

variable (stage) in
/-- Opening fails alike, or boxes the state of the cursor. -/
theorem opened (denotes : Denotes owners content i g c) (argsDoc : Document) :
    Denotes owners content i (g.opened stage.sdkSourceOps.toSourceOps setup argsDoc).2
        (c.opened stage setup argsDoc).2 ∧
      ((∃ fault, (g.opened stage.sdkSourceOps.toSourceOps setup argsDoc).1 = .error fault ∧
          (c.opened stage setup argsDoc).1 = .error fault) ∨
        ∃ s, (g.opened stage.sdkSourceOps.toSourceOps setup argsDoc).1 = .ok () ∧
          (c.opened stage setup argsDoc).1 = .ok s ∧
          (c.opened stage setup argsDoc).2.state = some s) := by
  obtain ⟨state, finished, m⟩ := g
  obtain ⟨cstate, cfinished, world⟩ := c
  cases cstate with
  | some s =>
      obtain ⟨p, pointer⟩ := denotes.pointer rfl
      obtain rfl : state = some p := pointer
      exact ⟨denotes, .inr ⟨s, rfl, rfl, rfl⟩⟩
  | none =>
      have null := denotes.null rfl
      obtain rfl : state = none := null
      obtain ⟨same, here, holds⟩ := denotes
      obtain rfl : finished = cfinished := same
      obtain rfl : m.world = world := here
      simp only [Generator.opened, Cursor.opened, SourceStageImpl.sdkSourceOps,
        SourceStageImpl.sdkSourceOpen]
      cases stage.parse argsDoc with
      | error fault => exact ⟨⟨rfl, rfl, holds⟩, .inl ⟨fault, rfl, rfl⟩⟩
      | ok a =>
          simp only
          rcases stage.openArgs a setup.openContext m.world with ⟨fault | s, world⟩
          · exact ⟨⟨rfl, rfl, holds⟩, .inl ⟨fault, rfl, rfl⟩⟩
          · have boxed := holds.intoRaw (i := i) (by simp) s
            simp only [Function.update_idem] at boxed
            exact ⟨⟨rfl, rfl, boxed⟩, .inr ⟨s, rfl, rfl, rfl⟩⟩

variable (stage) in
/-- The hooks answer what the implementation answers. -/
theorem advance (denotes : Denotes owners content i g c) (queryCtx : Option ℕ) :
    (g.runHooks codec stage.sdkSourceOps.toSourceOps setup queryCtx).1 =
        (c.advance codec stage setup queryCtx).1 ∧
      Denotes owners content i
        (g.runHooks codec stage.sdkSourceOps.toSourceOps setup queryCtx).2
        (c.advance codec stage setup queryCtx).2 := by
  simp only [Generator.runHooks, Cursor.advance]
  cases codec.decode setup.args with
  | error e => exact ⟨rfl, denotes⟩
  | ok argsDoc =>
      simp only
      obtain ⟨denotes', outcomes⟩ := denotes.opened stage setup argsDoc
      generalize g.opened stage.sdkSourceOps.toSourceOps setup argsDoc = first
        at denotes' outcomes ⊢
      generalize c.opened stage setup argsDoc = second at denotes' outcomes ⊢
      obtain ⟨outcome, g'⟩ := first
      obtain ⟨outcome', c'⟩ := second
      rcases outcomes with ⟨fault, rfl, rfl⟩ | ⟨s, rfl, rfl, has⟩
      · exact ⟨rfl, denotes'⟩
      · have read := denotes'.read
        rw [has] at read
        have answered : stage.sdkSourceOps.next g'.state (setup.nextContext queryCtx) g'.hooks =
            ((stage.next s (setup.nextContext queryCtx) c'.world).1.1,
              ⟨g'.hooks.boxes.write g'.state
                (stage.next s (setup.nextContext queryCtx) c'.world).1.2,
                (stage.next s (setup.nextContext queryCtx) c'.world).2⟩) := by
          rw [← denotes'.world]
          simp only [SourceStageImpl.sdkSourceOps, SourceStageImpl.sdkSourceNext, read]
        have held : Function.update content i c'.state i = some s := by
          rw [Function.update_self, has]
        have written := denotes'.holds.write held
          (stage.next s (setup.nextContext queryCtx) c'.world).1.2
        simp only [Function.update_self, Function.update_idem] at written
        simp only [answered]
        exact ⟨trivial, denotes'.finished, rfl, written⟩

/-- A result is delivered alike; at the end the box is gone. -/
theorem deliver (drops : stage.DropsQuietly) (denotes : Denotes owners content i g c)
    (outcome : HookOutcome ExtensionError Next) :
    (g.deliver codec stage.sdkSourceOps.toSourceOps outcome).1 = (c.deliver codec stage outcome).1 ∧
      Denotes owners content i (g.deliver codec stage.sdkSourceOps.toSourceOps outcome).2
        (c.deliver codec stage outcome).2 := by
  rcases outcome with fault | (⟨document, metadata⟩ | _)
  · exact ⟨rfl, denotes⟩
  · simp only [Generator.deliver, Cursor.deliver]
    cases encodeRow codec document metadata with
    | error e => exact ⟨rfl, denotes⟩
    | ok contents => exact ⟨rfl, denotes⟩
  · obtain ⟨state, finished, m⟩ := g
    obtain ⟨cstate, cfinished, world⟩ := c
    cases cstate with
    | none =>
        obtain rfl : state = none := denotes.null rfl
        exact ⟨rfl, rfl, denotes.world, denotes.holds⟩
    | some s =>
        obtain ⟨p, pointer⟩ := denotes.pointer rfl
        obtain rfl : state = some p := pointer
        have read : m.boxes.read (some p) = some s := denotes.read
        obtain rfl : m.world = world := denotes.world
        have dropped : stage.sdkSourceOps.dropState (some p) m =
            (some (), ⟨m.boxes.fromRaw (some p), (stage.dropInPlace s m.world).2⟩) := by
          simp only [SourceStageImpl.sdkSourceOps, SourceStageImpl.sdkSourceDrop, read,
            drops s m.world]
        have held : Function.update content i (some s) i = some s := Function.update_self ..
        have freed := denotes.holds.fromRaw held
        simp only [Function.update_self, Function.update_idem] at freed
        simp only [Generator.deliver, Cursor.deliver, dropped, Cursor.ended]
        exact ⟨trivial, rfl, rfl, freed⟩

/-- **A pull of the generator over the exported table is a pull of the cursor**, and keeps the boxes
of all other owners. -/
theorem pull (drops : stage.DropsQuietly) (denotes : Denotes owners content i g c)
    (queryCtx : Option ℕ) :
    (Generator.pull codec stage.sdkSourceOps.toSourceOps setup g queryCtx).1 =
        (Cursor.pull codec stage setup c queryCtx).1 ∧
      Denotes owners content i
        (Generator.pull codec stage.sdkSourceOps.toSourceOps setup g queryCtx).2
        (Cursor.pull codec stage setup c queryCtx).2 := by
  simp only [Generator.pull, Cursor.pull, denotes.finished]
  cases c.finished with
  | true => exact ⟨rfl, denotes⟩
  | false =>
      simp only [Bool.false_eq_true, if_false]
      obtain ⟨outcome, denotes'⟩ :=
        denotes.advance codec stage setup queryCtx
      rw [outcome]
      exact denotes'.deliver codec drops _

/-- The generator over the exported table simulates the cursor. -/
def simulation (stage : SourceStageImpl α σ ω) (drops : stage.DropsQuietly)
    (owners : ι → StatePtr) (content : ι → Option σ) (i : ι) :
    Machine.Simulation (Generator.pull codec stage.sdkSourceOps.toSourceOps setup)
      (Cursor.pull codec stage setup) id Eq where
  related := Denotes owners content i
  answer := fun _ _ queryCtx denotes => (denotes.pull codec setup drops queryCtx).1
  step := fun _ _ queryCtx denotes => (denotes.pull codec setup drops queryCtx).2

/-- A fresh generator among fresh boxes denotes a fresh cursor. -/
theorem start (world : ω) :
    Denotes (fun _ => none) (fun _ => none) () (.start (⟨.empty, world⟩ : Memory σ ω))
      (.start world) where
  finished := rfl
  world := rfl
  holds := by
    have empty := Boxes.Holds.empty (σ := σ) (ι := Unit)
    simpa only [Generator.start, Cursor.start, Function.update_eq_self] using empty

end Denotes

end Denotes

/-! ## Runs -/

/-- How a compiled stage runs whose generator yields `pulls` and leaves its world at `worlds`. Every
call fails under a properties hook that panics. A stage without need of an upstream, or without an
upstream, shows the pulls from the first call on. Any other stage shows its upstream, and from its
first end on the pulls. -/
structure RunsAs (required : Option Bool) (source : Option Upstream)
    (pulls : List (Option ℕ) → List (Except Status Contents)) (worlds : List (Option ℕ) → ω)
    (frames : List Frame) (replies : List Reply) (last : ω) (taken : ℕ) : Prop where
  refused : required = none →
    replies = (frames.map fun frame => ⟨propertiesPanic, frame.result⟩) ∧ last = worlds []
  generates : required = some false ∨ (required = some true ∧ source = none) →
    List.Forall₂ Shows replies (pulls (frames.map Frame.queryCtx)) ∧
      last = worlds (frames.map Frame.queryCtx) ∧ taken = 0
  forwards : ∀ up, required = some true → source = some up →
    (∀ k < frames.length, ¬ up.EndsFirst 0 k) →
      replies = up.answer.outputs 0 frames ∧ last = worlds [] ∧ taken = frames.length
  handsOver : ∀ up k, required = some true → source = some up → k < frames.length →
    up.EndsFirst 0 k →
      replies.take k = up.answer.outputs 0 (frames.take k) ∧
        List.Forall₂ Shows (replies.drop k) (pulls ((frames.drop k).map Frame.queryCtx)) ∧
        last = worlds ((frames.drop k).map Frame.queryCtx) ∧ taken = k + 1

section Runs

variable (codec : BsonCodec) (ops : SourceOps ω)

/-- A generating call leaves the generator that its pull leaves. -/
theorem after_generating {s : Stage ω} {frame : Frame} {res : GetNextResult} {pulls : ℕ}
    (frames : List Frame) (first : route ops s frame = .generate res pulls) :
    ((execGetNext codec ops).after s (frame :: frames)).generator =
      (Generator.pull codec ops s.setup).after s.generator
        ((frame :: frames).map Frame.queryCtx) := by
  have generating : Generating s.setup pulls (s.generating pulls) s.generator :=
    ⟨rfl, rfl, rfl, rfl⟩
  obtain ⟨-, next⟩ := generating.step codec ops frame.queryCtx res
  have step : execGetNext codec ops s frame =
      getNextGenerator codec ops frame.queryCtx res (s.generating pulls) := by
    rw [execGetNext_eq, first]
  have related := (generatorSimulation codec ops s.setup pulls).after_related next frames
  rw [Machine.after_cons, List.map_cons, Machine.after_cons, step]
  exact related.generator

theorem hooks_forwarded (s : Stage ω) (up : Upstream) : (s.forwarded up).hooks = s.hooks := by
  unfold Stage.forwarded
  split <;> rfl

theorem generator_forwarded (s : Stage ω) (up : Upstream) :
    (s.forwarded up).generator = s.generator := by
  unfold Stage.generator
  rw [state_forwarded, generatorDone_forwarded, hooks_forwarded]

theorem after_passthrough {up : Upstream} {s : Stage ω} (mode : s.exec.mode = .passthrough)
    (source : s.exec.source = some up) (frames : List Frame) :
    ((execGetNext codec ops).after s frames).generator = s.generator := by
  induction frames generalizing s with
  | nil => rfl
  | cons frame frames ih =>
      have step : execGetNext codec ops s frame = ((up s.pulls).reply frame.result, s.pulled) := by
        have forwarded : s.forwarded up = s.pulled := by simp [Stage.forwarded, mode]
        have first : route ops s frame = .forward up := by simp [route, mode, source]
        rw [execGetNext_eq, first]
        simp only [forwarded]
      rw [Machine.after_cons, step]
      exact ih mode source

variable {ops}

/-- While the upstream does not end first, the generator stays fresh. -/
theorem after_undecided {up : Upstream} {s : Stage ω} (undecided : Undecided ops up s)
    (frames : List Frame) (never : ∀ k < s.pulls + frames.length, ¬ up.EndsFirst s.pulls k) :
    ((execGetNext codec ops).after s frames).generator = s.generator := by
  induction frames generalizing s with
  | nil => rfl
  | cons frame frames ih =>
      rw [List.length_cons] at never
      have ends : ¬ (up s.pulls).Ends := by
        intro ended
        exact never s.pulls (by omega) (Upstream.endsFirst_self ended)
      have step : execGetNext codec ops s frame =
          ((up s.pulls).reply frame.result, s.forwarded up) := by
        rw [execGetNext_eq, undecided.route_of_not_ends frame ends]
      rw [Machine.after_cons, step, ← generator_forwarded s up]
      by_cases advances : (up s.pulls).Advances
      · have mode : (s.forwarded up).exec.mode = .passthrough := by
          simp [Stage.forwarded, undecided.mode, advances]
        have source : (s.forwarded up).exec.source = some up := by
          simp [Stage.forwarded, undecided.mode, advances, Stage.pulled, undecided.source]
        exact after_passthrough codec ops mode source frames
      · rw [undecided.forwarded advances]
        apply ih undecided.pulled
        intro k lt
        rw [pulls_pulled] at lt ⊢
        rw [← Upstream.endsFirst_succ ends advances]
        exact never k (by omega)

/-- From the upstream's first end on the generator is pulled. -/
theorem after_ending {up : Upstream} {s : Stage ω} (undecided : Undecided ops up s)
    (before : List Frame) (frame : Frame) (rest : List Frame)
    (ends : up.EndsFirst s.pulls (s.pulls + before.length)) :
    ((execGetNext codec ops).after s (before ++ frame :: rest)).generator =
      (Generator.pull codec ops s.setup).after s.generator
        ((frame :: rest).map Frame.queryCtx) := by
  induction before generalizing s with
  | nil =>
      obtain ⟨res, first⟩ := undecided.route_of_ends frame ends.2.1
      exact after_generating codec ops rest first
  | cons first before ih =>
      obtain ⟨le, ended, earlier⟩ := ends
      obtain ⟨ends, advances⟩ := earlier s.pulls le_rfl (by simp)
      have step : execGetNext codec ops s first = ((up s.pulls).reply first.result, s.pulled) := by
        rw [execGetNext_eq, undecided.route_of_not_ends first ends]
        simp only [undecided.forwarded advances]
      have later : up.EndsFirst s.pulled.pulls (s.pulled.pulls + before.length) := by
        have total : s.pulls + 1 + before.length = s.pulls + (first :: before).length := by
          rw [List.length_cons]
          omega
        rw [pulls_pulled, ← Upstream.endsFirst_succ ends advances, total]
        exact ⟨le, ended, earlier⟩
      rw [List.cons_append, Machine.after_cons, step]
      exact ih undecided.pulled later

variable (ops) in
/-- A compiled stage runs as its generator. -/
theorem runsAs (setup : Setup) (hooks : ω) (source : Option Upstream) (frames : List Frame) :
    RunsAs (requiresInput ops) source
      (fun ctxs => (Generator.pull codec ops setup).outputs (.start hooks) ctxs)
      (fun ctxs => ((Generator.pull codec ops setup).after (.start hooks) ctxs).hooks) frames
      ((execGetNext codec ops).outputs (setup.compiled hooks source) frames)
      ((execGetNext codec ops).after (setup.compiled hooks source) frames).hooks
      ((execGetNext codec ops).after (setup.compiled hooks source) frames).pulls where
  refused := by
    intro panics
    obtain ⟨outputs, last⟩ :=
      outputs_refused codec ops (setup.compiled hooks source) panics rfl frames
    exact ⟨outputs, congrArg Stage.hooks last⟩
  generates := by
    intro alone
    cases frames with
    | nil => exact ⟨.nil, rfl, rfl⟩
    | cons frame frames =>
        have first : route ops (setup.compiled hooks source) frame = .generate frame.result 0 := by
          simp only [Setup.compiled, execSetSource, Stage.compiled, execAlloc, route]
          rcases alone with required | ⟨required, rfl⟩ <;> simp only [required]
        obtain ⟨shown, taken⟩ := outputs_generating codec ops frames first rfl rfl
        exact ⟨shown, congrArg Generator.hooks (after_generating codec ops frames first), taken⟩
  forwards := by
    rintro up required rfl never
    have undecided : Undecided ops up (setup.compiled hooks (some up)) := ⟨required, rfl, rfl, rfl⟩
    have unpulled : (setup.compiled hooks (some up)).pulls = 0 := rfl
    have never' : ∀ k < (setup.compiled hooks (some up)).pulls + frames.length,
        ¬ up.EndsFirst (setup.compiled hooks (some up)).pulls k := by
      rwa [unpulled, Nat.zero_add]
    obtain ⟨outputs, pulls, -⟩ := outputs_undecided codec undecided frames never'
    rw [unpulled] at outputs pulls
    exact ⟨outputs, congrArg Generator.hooks (after_undecided codec undecided frames never'),
      by rw [pulls, Nat.zero_add]⟩
  handsOver := by
    rintro up k required rfl lt ends
    have undecided : Undecided ops up (setup.compiled hooks (some up)) := ⟨required, rfl, rfl, rfl⟩
    have unpulled : (setup.compiled hooks (some up)).pulls = 0 := rfl
    have length : (frames.take k).length = k := List.length_take_of_le lt.le
    have whole : frames = frames.take k ++ frames[k] :: frames.drop (k + 1) := by
      rw [← List.drop_eq_getElem_cons lt, List.take_append_drop]
    have first : up.EndsFirst (setup.compiled hooks (some up)).pulls
        ((setup.compiled hooks (some up)).pulls + (frames.take k).length) := by
      rwa [unpulled, length, Nat.zero_add]
    obtain ⟨generated, outputs, shown, pulls⟩ := outputs_ending codec undecided
      (frames.take k) frames[k] (frames.drop (k + 1)) first
    have last := after_ending codec undecided (frames.take k) frames[k] (frames.drop (k + 1)) first
    rw [← whole] at outputs pulls last
    rw [unpulled] at outputs pulls
    rw [← List.drop_eq_getElem_cons lt] at last shown
    have answered : (up.answer.outputs 0 (frames.take k)).length = k := by simp [length]
    refine ⟨?_, ?_, congrArg Generator.hooks last, ?_⟩
    · rw [outputs]
      exact List.take_left' answered
    · rw [outputs, List.drop_left' answered]
      exact shown
    · rw [pulls, length, Nat.zero_add]

end Runs

/-- In every case a run ends in a world of the generator. -/
theorem RunsAs.last {required : Option Bool} {source : Option Upstream}
    {pulls : List (Option ℕ) → List (Except Status Contents)} {worlds : List (Option ℕ) → ω}
    {frames : List Frame} {replies : List Reply} {last : ω} {taken : ℕ}
    (runs : RunsAs required source pulls worlds frames replies last taken) :
    ∃ ctxs, last = worlds ctxs := by
  cases needed : required with
  | none => exact ⟨[], (runs.refused needed).2⟩
  | some needs =>
      cases needs with
      | false => exact ⟨_, (runs.generates (.inl needed)).2.1⟩
      | true =>
          cases sourced : source with
          | none => exact ⟨_, (runs.generates (.inr ⟨needed, sourced⟩)).2.1⟩
          | some up =>
              by_cases ended : ∃ k < frames.length, up.EndsFirst 0 k
              · obtain ⟨k, lt, ends⟩ := ended
                exact ⟨_, (runs.handsOver up k needed sourced lt ends).2.2.1⟩
              · have never : ∀ k < frames.length, ¬ up.EndsFirst 0 k :=
                  fun k lt ends => ended ⟨k, lt, ends⟩
                exact ⟨_, (runs.forwards up needed sourced never).2.1⟩

/-- Pulls and worlds may be described in another way, and less of the world. -/
theorem RunsAs.map {τ : Type} {required : Option Bool} {source : Option Upstream}
    {pulls pulls' : List (Option ℕ) → List (Except Status Contents)}
    {worlds : List (Option ℕ) → ω} {worlds' : List (Option ℕ) → τ} {frames : List Frame}
    {replies : List Reply} {last : ω} {taken : ℕ}
    (runs : RunsAs required source pulls worlds frames replies last taken) (read : ω → τ)
    (same : ∀ ctxs, pulls ctxs = pulls' ctxs) (reads : ∀ ctxs, read (worlds ctxs) = worlds' ctxs) :
    RunsAs required source pulls' worlds' frames replies (read last) taken := by
  obtain rfl : pulls = pulls' := funext same
  obtain rfl : (fun ctxs => read (worlds ctxs)) = worlds' := funext reads
  refine ⟨?_, ?_, ?_, ?_⟩
  · intro panics
    obtain ⟨shown, here⟩ := runs.refused panics
    exact ⟨shown, congrArg read here⟩
  · intro alone
    obtain ⟨shown, here, took⟩ := runs.generates alone
    exact ⟨shown, congrArg read here, took⟩
  · intro up requires sourced never
    obtain ⟨shown, here, took⟩ := runs.forwards up requires sourced never
    exact ⟨shown, congrArg read here, took⟩
  · intro up k requires sourced lt ends
    obtain ⟨before, shown, here, took⟩ := runs.handsOver up k requires sourced lt ends
    exact ⟨before, shown, congrArg read here, took⟩

section Cursor

variable (codec : BsonCodec) (stage : SourceStageImpl α σ ω) (drops : stage.DropsQuietly)
variable (setup : Setup) (world : ω) (source : Option Upstream) (frames : List Frame)

include drops in
/-- A table with the hooks of the export and properties of its own runs as the cursor. -/
theorem runsAs_cursor_with {ops : SourceOps (Memory σ ω)}
    (exported : { ops with staticPropertiesDoc := stage.sdkSourceStaticProperties } =
      stage.sdkSourceOps.toSourceOps) :
    RunsAs (requiresInput ops) source
      (fun ctxs => (Cursor.pull codec stage setup).outputs (.start world) ctxs)
      (fun ctxs => ((Cursor.pull codec stage setup).after (.start world) ctxs).world) frames
      ((execGetNext codec ops).outputs (setup.compiled ⟨.empty, world⟩ source) frames)
      ((execGetNext codec ops).after
        (setup.compiled ⟨.empty, world⟩ source) frames).hooks.world
      ((execGetNext codec ops).after (setup.compiled ⟨.empty, world⟩ source) frames).pulls := by
  have same : Generator.pull codec ops setup =
      Generator.pull codec stage.sdkSourceOps.toSourceOps setup := by
    rw [← exported]
    rfl
  apply (runsAs codec ops setup ⟨.empty, world⟩ source frames).map Memory.world
  · intro ctxs
    have shown := (Denotes.simulation codec setup stage drops (fun _ : Unit => none)
      (fun _ => none) ()).outputs_show (Denotes.start world) ctxs
    rw [List.map_id, List.forall₂_eq_eq_eq] at shown
    rw [same]
    exact shown
  · intro ctxs
    have related := (Denotes.simulation codec setup stage drops (fun _ : Unit => none)
      (fun _ => none) ()).after_related (Denotes.start world) ctxs
    rw [List.map_id] at related
    rw [same]
    exact related.world

include drops in
/-- **The runs of an exported stage are those of its cursor.** -/
theorem runsAs_cursor :
    RunsAs stage.requires source
      (fun ctxs => (Cursor.pull codec stage setup).outputs (.start world) ctxs)
      (fun ctxs => ((Cursor.pull codec stage setup).after (.start world) ctxs).world) frames
      ((execGetNext codec stage.sdkSourceOps.toSourceOps).outputs
        (setup.compiled ⟨.empty, world⟩ source) frames)
      ((execGetNext codec stage.sdkSourceOps.toSourceOps).after
        (setup.compiled ⟨.empty, world⟩ source) frames).hooks.world
      ((execGetNext codec stage.sdkSourceOps.toSourceOps).after
        (setup.compiled ⟨.empty, world⟩ source) frames).pulls := by
  rw [← stage.requiresInput_sdkSourceOps]
  exact runsAs_cursor_with codec stage drops setup world source frames rfl

end Cursor

end ExtensionSdkMongodb.SourceStage

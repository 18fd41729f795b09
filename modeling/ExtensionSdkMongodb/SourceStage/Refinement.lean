import ExtensionSdkMongodb.SourceStage.Generator

/-!
# Runs of a source stage

A compiled stage is undecided until its first deciding call. In a run it shows its upstream's
answers call for call, and from the call on that makes it a generator it shows the pulls of a
fresh generator. Each phase is a simulation or an induction over the calls: generating stages
(`generatorSimulation`), passthrough stages (`outputs_passthrough`) and undecided ones
(`outputs_undecided`, `outputs_ending`).

`execGetNext_run` puts the phases together for every script of the upstream and every number of
calls. A properties hook that panics is the one thing that keeps a stage from all of them.
-/

set_option autoImplicit false

namespace ExtensionSdkMongodb

namespace SourceStage

variable {ω : Type} (codec : BsonCodec) (ops : SourceOps ω)

/-! ## Generating stages -/

/-- The stage is a generator and matches one. -/
structure Generating (setup : Setup) (pulls : ℕ) (s : Stage ω) (g : Generator ω) : Prop where
  mode : s.exec.mode = .generator
  generator : s.generator = g
  setup : s.setup = setup
  pulls : s.pulls = pulls

theorem Generating.step {setup : Setup} {pulls : ℕ} {s : Stage ω} {g : Generator ω}
    (generating : Generating setup pulls s g) (queryCtx : Option ℕ) (res : GetNextResult) :
    Shows (getNextGenerator codec ops queryCtx res s).1
        (Generator.pull codec ops setup g queryCtx).1 ∧
      Generating setup pulls (getNextGenerator codec ops queryCtx res s).2
        (Generator.pull codec ops setup g queryCtx).2 := by
  obtain ⟨mode, rfl, rfl, rfl⟩ := generating
  obtain ⟨shows, generator, same⟩ := getNextGenerator_pull codec ops queryCtx res s
  exact ⟨shows, same.mode.trans mode, generator, same.setup, same.pulls⟩

theorem route_generating {setup : Setup} {pulls : ℕ} {s : Stage ω} {g : Generator ω}
    (generating : Generating setup pulls s g) (frame : Frame) :
    execGetNext codec ops s frame = getNextGenerator codec ops frame.queryCtx frame.result s := by
  have same : s.generating s.pulls = s := by
    obtain ⟨⟨_, _, _, _, _, mode, _, _⟩, _, _, _, _⟩ := s
    obtain rfl : mode = .generator := generating.mode
    rfl
  rw [execGetNext_eq, route, generating.mode]
  simp only [same]

/-- A stage in generator mode simulates the generator it holds. -/
def generatorSimulation (setup : Setup) (pulls : ℕ) :
    Machine.Simulation (execGetNext codec ops) (Generator.pull codec ops setup) Frame.queryCtx
      Shows where
  related := Generating setup pulls
  answer := by
    intro s g frame generating
    rw [route_generating codec ops generating]
    exact (generating.step codec ops frame.queryCtx frame.result).1
  step := by
    intro s g frame generating
    rw [route_generating codec ops generating]
    exact (generating.step codec ops frame.queryCtx frame.result).2

/-- A run whose first call generates shows the generator's pulls, and takes no more answers from
upstream than that call did. -/
theorem outputs_generating {setup : Setup} {pulls : ℕ} {s : Stage ω} {g : Generator ω}
    {frame : Frame} {res : GetNextResult} (frames : List Frame)
    (first : route ops s frame = .generate res pulls)
    (generator : s.generator = g) (same : s.setup = setup) :
    List.Forall₂ Shows ((execGetNext codec ops).outputs s (frame :: frames))
        ((Generator.pull codec ops setup).outputs g ((frame :: frames).map Frame.queryCtx)) ∧
      ((execGetNext codec ops).after s (frame :: frames)).pulls = pulls := by
  have generating : Generating setup pulls (s.generating pulls) g := ⟨rfl, generator, same, rfl⟩
  obtain ⟨shows, next⟩ := generating.step codec ops frame.queryCtx res
  have step : execGetNext codec ops s frame =
      getNextGenerator codec ops frame.queryCtx res (s.generating pulls) := by
    rw [execGetNext_eq, first]
  rw [Machine.outputs_cons, Machine.after_cons, List.map_cons, Machine.outputs_cons, step]
  have shown := (generatorSimulation codec ops setup pulls).outputs_show next frames
  have related := (generatorSimulation codec ops setup pulls).after_related next frames
  exact ⟨.cons shows shown, related.pulls⟩

/-! ## Stages that forward -/

/-- What a run of forwarding calls shows: the upstream's answers, one for each call, and no hook
of the generator is called. -/
def Forwards (up : Upstream) (s : Stage ω) (frames : List Frame) : Prop :=
  (execGetNext codec ops).outputs s frames = up.answer.outputs s.pulls frames ∧
    ((execGetNext codec ops).after s frames).pulls = s.pulls + frames.length ∧
    ((execGetNext codec ops).after s frames).calls = s.calls

variable {codec ops}

theorem Forwards.nil (up : Upstream) (s : Stage ω) : Forwards codec ops up s [] :=
  ⟨rfl, rfl, rfl⟩

/-- A forwarding call before a run of forwarding calls. -/
theorem Forwards.cons {up : Upstream} {s : Stage ω} {frame : Frame} {frames : List Frame}
    (first : route ops s frame = .forward up)
    (rest : Forwards codec ops up (s.forwarded up) frames) :
    Forwards codec ops up s (frame :: frames) := by
  have step : execGetNext codec ops s frame =
      ((up s.pulls).reply frame.result, s.forwarded up) := by
    rw [execGetNext_eq, first]
  obtain ⟨outputs, pulls, calls⟩ := rest
  rw [pulls_forwarded] at outputs pulls
  rw [calls_forwarded] at calls
  refine ⟨?_, ?_, ?_⟩
  · rw [Machine.outputs_cons, step, outputs]
    rfl
  · rw [Machine.after_cons, step, pulls, List.length_cons]
    omega
  · rw [Machine.after_cons, step, calls]

/-- **A passthrough shows its upstream, call for call.** -/
theorem outputs_passthrough {up : Upstream} {s : Stage ω} (mode : s.exec.mode = .passthrough)
    (source : s.exec.source = some up) (frames : List Frame) : Forwards codec ops up s frames := by
  induction frames generalizing s with
  | nil => exact .nil up s
  | cons frame frames ih =>
      have forwarded : s.forwarded up = s.pulled := by simp [Stage.forwarded, mode]
      refine .cons (by simp [route, mode, source]) (ih ?_ ?_)
      · rw [forwarded]
        exact mode
      · rw [forwarded]
        exact source

/-! ## Undecided stages -/

/-- A stage that requires input and has seen neither a row nor an end. -/
structure Undecided (ops : SourceOps ω) (up : Upstream) (s : Stage ω) : Prop where
  required : requiresInput ops = some true
  mode : s.exec.mode = .init
  source : s.exec.source = some up
  saw : s.exec.sawUpstreamAdvanced = false

namespace Undecided

variable {up : Upstream} {s : Stage ω}

theorem route_of_ends (undecided : Undecided ops up s) (frame : Frame)
    (ends : (up s.pulls).Ends) : ∃ res, route ops s frame = .generate res (s.pulls + 1) := by
  obtain ⟨required, mode, source, saw⟩ := undecided
  simp only [route, mode, required, source]
  rcases answer : up s.pulls with ⟨status, okay, res, _⟩ | ⟨status, bad, written⟩
  · have code : res.code = .eof := by simpa [answer, Pulled.Ends] using ends
    exact ⟨res, by simp [code, saw]⟩
  · simp [answer, Pulled.Ends] at ends

theorem route_of_not_ends (undecided : Undecided ops up s) (frame : Frame)
    (ends : ¬ (up s.pulls).Ends) : route ops s frame = .forward up := by
  obtain ⟨required, mode, source, saw⟩ := undecided
  simp only [route, mode, required, source]
  rcases answer : up s.pulls with ⟨status, okay, res, _⟩ | ⟨status, bad, written⟩
  · have code : res.code ≠ .eof := by simpa [answer, Pulled.Ends] using ends
    simp [code]
  · rfl

/-- A pause or an error leaves the stage undecided. -/
theorem forwarded (_ : Undecided ops up s) (advances : ¬ (up s.pulls).Advances) :
    s.forwarded up = s.pulled := by
  simp [Stage.forwarded, advances]

theorem pulled (undecided : Undecided ops up s) : Undecided ops up s.pulled :=
  ⟨undecided.required, undecided.mode, undecided.source, undecided.saw⟩

end Undecided

variable (codec)

/-- **While the upstream does not end first, an undecided stage forwards.** -/
theorem outputs_undecided {up : Upstream} {s : Stage ω} (undecided : Undecided ops up s)
    (frames : List Frame)
    (never : ∀ k < s.pulls + frames.length, ¬ up.EndsFirst s.pulls k) :
    Forwards codec ops up s frames := by
  induction frames generalizing s with
  | nil => exact .nil up s
  | cons frame frames ih =>
      rw [List.length_cons] at never
      have ends : ¬ (up s.pulls).Ends := by
        intro ended
        exact never s.pulls (by omega) (Upstream.endsFirst_self ended)
      apply Forwards.cons (undecided.route_of_not_ends frame ends)
      by_cases advances : (up s.pulls).Advances
      · have forwarded : s.forwarded up =
            { s.pulled with exec.sawUpstreamAdvanced := true, exec.mode := .passthrough } := by
          simp [Stage.forwarded, undecided.mode, advances]
        rw [forwarded]
        apply outputs_passthrough
        · rfl
        · exact undecided.source
      · rw [undecided.forwarded advances]
        apply ih undecided.pulled
        intro k lt
        rw [pulls_pulled] at lt ⊢
        rw [← Upstream.endsFirst_succ ends advances]
        exact never k (by omega)

/-- **At the upstream's first end an undecided stage hands over to its generator**: the calls
before it forward, and that call and all later ones show the generator's pulls. -/
theorem outputs_ending {up : Upstream} {s : Stage ω} (undecided : Undecided ops up s)
    (before : List Frame) (frame : Frame) (rest : List Frame)
    (ends : up.EndsFirst s.pulls (s.pulls + before.length)) :
    ∃ generated, (execGetNext codec ops).outputs s (before ++ frame :: rest) =
        up.answer.outputs s.pulls before ++ generated ∧
      List.Forall₂ Shows generated ((Generator.pull codec ops s.setup).outputs s.generator
        ((frame :: rest).map Frame.queryCtx)) ∧
      ((execGetNext codec ops).after s (before ++ frame :: rest)).pulls =
        s.pulls + before.length + 1 := by
  induction before generalizing s with
  | nil =>
      obtain ⟨res, first⟩ := undecided.route_of_ends frame ends.2.1
      obtain ⟨shown, pulls⟩ := outputs_generating codec ops rest first rfl rfl
      exact ⟨_, rfl, shown, pulls⟩
  | cons first before ih =>
      obtain ⟨le, ended, earlier⟩ := ends
      obtain ⟨ends, advances⟩ := earlier s.pulls le_rfl (by simp)
      have step : execGetNext codec ops s first = ((up s.pulls).reply first.result, s.pulled) := by
        rw [execGetNext_eq, undecided.route_of_not_ends first ends]
        simp only [undecided.forwarded advances]
      have later : up.EndsFirst s.pulled.pulls (s.pulled.pulls + before.length) := by
        have total : s.pulls + 1 + before.length = s.pulls + (first :: before).length := by
          rw [List.length_cons]
          omega
        rw [pulls_pulled, ← Upstream.endsFirst_succ ends advances, total]
        exact ⟨le, ended, earlier⟩
      obtain ⟨generated, outputs, shown, pulls⟩ := ih undecided.pulled later
      refine ⟨generated, ?_, shown, ?_⟩
      · rw [List.cons_append, Machine.outputs_cons, step, outputs]
        rfl
      · rw [List.cons_append, Machine.after_cons, step, pulls, pulls_pulled, List.length_cons]
        omega

/-! ## Refused stages -/

/-- An undecided stage whose properties hook panics never changes. -/
theorem outputs_refused (codec : BsonCodec) (ops : SourceOps ω) (s : Stage ω)
    (panics : requiresInput ops = none) (mode : s.exec.mode = .init) (frames : List Frame) :
    (execGetNext codec ops).outputs s frames =
        frames.map (fun frame => ⟨propertiesPanic, frame.result⟩) ∧
      (execGetNext codec ops).after s frames = s := by
  induction frames with
  | nil => exact ⟨rfl, rfl⟩
  | cons frame frames ih =>
      have step : execGetNext codec ops s frame = (⟨propertiesPanic, frame.result⟩, s) := by
        simp [execGetNext_eq, route, mode, panics]
      obtain ⟨outputs, last⟩ := ih
      rw [Machine.outputs_cons, Machine.after_cons, step]
      exact ⟨congrArg (_ :: ·) outputs, last⟩

/-! ## Whole runs -/

/-- A stage compiled from arguments and a catalog, with its metrics and its source set. -/
def Setup.compiled (setup : Setup) (hooks : ω) (source : Option Upstream) : Stage ω :=
  execSetSource
    (.compiled { execAlloc setup.args setup.catalog with metrics := setup.metrics } hooks) source

/-- What generating calls reply: the pulls of a fresh generator in order. A pull that fails
leaves the generator working and keeps its state, so the next pull resumes; after the end
every pull is the end. -/
structure Generates (codec : BsonCodec) (ops : SourceOps ω) (setup : Setup) (hooks : ω)
    (frames : List Frame) (replies : List Reply) : Prop where
  shows : List.Forall₂ Shows replies
    ((Generator.pull codec ops setup).outputs (.start hooks) (frames.map Frame.queryCtx))
  resumes : ∀ (g : Generator ω) queryCtx status,
    (Generator.pull codec ops setup g queryCtx).1 = .error status →
      (Generator.pull codec ops setup g queryCtx).2.finished = false ∧
        ∀ ptr, g.state = some ptr →
          (Generator.pull codec ops setup g queryCtx).2.state = some ptr
  ends : ∀ i j, i ≤ j → j < frames.length →
    ((Generator.pull codec ops setup).outputs (.start hooks)
      (frames.map Frame.queryCtx))[i]? = some (.ok endOfStream) →
    ((Generator.pull codec ops setup).outputs (.start hooks)
      (frames.map Frame.queryCtx))[j]? = some (.ok endOfStream)

variable (ops)

theorem generates (setup : Setup) (hooks : ω) {frames : List Frame} {replies : List Reply}
    (shows : List.Forall₂ Shows replies
      ((Generator.pull codec ops setup).outputs (.start hooks) (frames.map Frame.queryCtx))) :
    Generates codec ops setup hooks frames replies where
  shows := shows
  resumes := fun g queryCtx status failed => pull_resumes failed
  ends := by
    intro i j le lt ended
    exact endOfStream_forever _ _ le (by rwa [List.length_map]) ended

/-- **The runs of a compiled source stage**, for every script of its upstream and every number of
calls. Under a properties hook that panics every call fails and changes nothing. A stage
that does not require input, or has no upstream, shows its generator from the first call and never
calls upstream. Otherwise it shows its upstream, and no hook of the generator runs, unless the
upstream ends before any row: from that call on it shows its generator, and upstream is not
called again. -/
theorem execGetNext_run (setup : Setup) (hooks : ω) (source : Option Upstream)
    (frames : List Frame) :
    let stage := setup.compiled hooks source
    let replies := (execGetNext codec ops).outputs stage frames
    let last := (execGetNext codec ops).after stage frames
    (requiresInput ops = none →
      replies = frames.map (fun frame => ⟨propertiesPanic, frame.result⟩) ∧ last = stage) ∧
    (requiresInput ops = some false ∨ (requiresInput ops = some true ∧ source = none) →
      Generates codec ops setup hooks frames replies ∧ last.pulls = 0) ∧
    ∀ up, requiresInput ops = some true → source = some up →
      ((∀ k < frames.length, ¬ up.EndsFirst 0 k) →
        replies = up.answer.outputs 0 frames ∧ last.pulls = frames.length ∧ last.calls = []) ∧
      ∀ k < frames.length, up.EndsFirst 0 k →
        replies.take k = up.answer.outputs 0 (frames.take k) ∧
        Generates codec ops setup hooks (frames.drop k) (replies.drop k) ∧
        last.pulls = k + 1 := by
  intro stage replies last
  refine ⟨?_, ?_, ?_⟩
  · intro panics
    exact outputs_refused codec ops stage panics rfl frames
  · intro alone
    cases frames with
    | nil => exact ⟨generates codec ops setup hooks .nil, rfl⟩
    | cons frame frames =>
        have first : route ops stage frame = .generate frame.result 0 := by
          rcases alone with required | ⟨required, rfl⟩
          · simp [stage, Setup.compiled, execSetSource, Stage.compiled, execAlloc, route, required]
          · simp [stage, Setup.compiled, execSetSource, Stage.compiled, execAlloc, route, required]
        obtain ⟨shown, pulls⟩ := outputs_generating codec ops frames first rfl rfl
        exact ⟨generates codec ops setup hooks shown, pulls⟩
  · rintro up required rfl
    have undecided : Undecided ops up stage := ⟨required, rfl, rfl, rfl⟩
    have unpulled : stage.pulls = 0 := rfl
    refine ⟨?_, ?_⟩
    · intro never
      obtain ⟨outputs, pulls, calls⟩ := outputs_undecided codec undecided frames
        (by rwa [unpulled, Nat.zero_add])
      rw [unpulled] at outputs pulls
      exact ⟨outputs, by rw [pulls, Nat.zero_add], calls⟩
    · intro k lt ends
      have length : (frames.take k).length = k := List.length_take_of_le lt.le
      obtain ⟨frame, rest, split⟩ : ∃ frame rest, frames.drop k = frame :: rest :=
        ⟨frames[k], frames.drop (k + 1), List.drop_eq_getElem_cons lt⟩
      have whole : frames = frames.take k ++ frame :: rest := by
        rw [← split, List.take_append_drop]
      obtain ⟨generated, outputs, shown, pulls⟩ := outputs_ending codec undecided
        (frames.take k) frame rest (by rwa [unpulled, length, Nat.zero_add])
      rw [← whole, unpulled] at outputs pulls
      rw [length, Nat.zero_add] at pulls
      have answered : (up.answer.outputs 0 (frames.take k)).length = k := by simp [length]
      refine ⟨?_, ?_, ?_⟩
      · simp only [replies, outputs]
        exact List.take_left' answered
      · simp only [replies, outputs]
        rw [List.drop_left' answered]
        exact generates codec ops setup hooks (by rw [split]; exact shown)
      · exact pulls

/-! ## A properties hook that panics -/

/-- A table whose properties hook panics. -/
def panickingProperties : SourceOps Unit where
  openFromDoc := fun _ _ hooks => (.ok (some 1), hooks)
  dropState := fun _ hooks => (some (), hooks)
  next := fun _ _ hooks => (.ok .eof, hooks)
  staticPropertiesDoc := none

/-- An upstream of rows. -/
def rowsForever : Upstream := fun _ => 
  .ofResult ⟨.advanced, .byteView (some [5, 0, 0, 0, 0]), .empty⟩ (by decide)

/-- Under a properties hook that panics a stage with an upstream does not show its upstream. -/
theorem execGetNext_run_properties_panic :
    let codec : BsonCodec := ⟨fun _ => .ok [5, 0, 0, 0, 0], fun _ => .ok []⟩
    let stage : Stage Unit := Setup.compiled ⟨[], none, none⟩ () (some rowsForever)
    requiresInput panickingProperties ≠ some false ∧
      (∀ k < 1, ¬ rowsForever.EndsFirst 0 k) ∧
      (execGetNext codec panickingProperties).outputs stage [.blank] ≠
        rowsForever.answer.outputs 0 [.blank] := by
  refine ⟨by decide, ?_, ?_⟩
  · intro k _
    have advances : (rowsForever 0).Advances := by decide
    exact Upstream.not_endsFirst_of_advances advances
  · intro same
    have status := congrArg (List.map fun r : Reply => r.status.isOk) same
    revert status
    decide

end SourceStage

end ExtensionSdkMongodb

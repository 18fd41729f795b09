import ExtensionSdkMongodb.MapTransform.Runs
import ExtensionSdkMongodb.SourceStage.Determinism
import ExtensionSdkMongodb.SourceStage.Refinement

/-!
# Stages that start over

A host starts an executable stage over by `reopen`, or by `close` and `open`, and its upstream with
it. The stage should then yield what a freshly compiled one yields (`YieldsLike`). None of the
three calls changes anything in a source or map stage, so what its calls left behind stays.

A source stage still yields like a fresh one when it is undecided, when it forwards, and when it is
a generator that has neither a state nor an end and never had an upstream to ask (`Lingers`). A map
stage does exactly unless its flags suppress the row of `on_eof` at an end where a fresh stage
makes it (`reopened_yields_like_fresh`).
-/

set_option autoImplicit false

namespace ExtensionSdkMongodb

/-- How a host starts a stage over. -/
inductive Restart where
  | reopen
  | closeOpen
  deriving DecidableEq, Repr

/-- Two states of a stage yield the same, call for call. -/
def YieldsLike {σ : Type} (getNext : Machine σ Frame Reply) (s t : σ) : Prop :=
  ∀ frames, (getNext.outputs s frames).map Reply.contents =
    (getNext.outputs t frames).map Reply.contents

/-- States related by what the calls keep yield the same, when related states do so in one call. -/
theorem yieldsLike_of_related {σ : Type} {getNext : Machine σ Frame Reply} {related : σ → σ → Prop}
    (step : ∀ s t frame, related s t →
      (getNext s frame).1.contents = (getNext t frame).1.contents ∧
        related (getNext s frame).2 (getNext t frame).2) {s t : σ} (start : related s t) :
    YieldsLike getNext s t := by
  intro frames
  induction frames generalizing s t with
  | nil => rfl
  | cons frame frames ih =>
      obtain ⟨same, next⟩ := step s t frame start
      simp only [Machine.outputs_cons, List.map_cons, same, ih next]

/-! ## Source stages -/

namespace SourceStage

variable {ω : Type}

/-- The stage after the host started it over, with its upstream back at the first result. -/
def restarted (restart : Restart) (s : Stage ω) : Stage ω :=
  match restart with
  | .reopen => { (execReopen s).2 with pulls := 0 }
  | .closeOpen => { (execOpen (execClose s).2).2 with pulls := 0 }

@[simp] theorem restarted_eq (restart : Restart) (s : Stage ω) :
    restarted restart s = { s with pulls := 0 } := by
  cases restart <;> rfl

/-- A generator that its calls left with a state or with its end, or that left its upstream. -/
def Lingers (ops : SourceOps ω) (s : Stage ω) : Prop :=
  s.exec.mode = .generator ∧
    (s.exec.state ≠ none ∨ s.exec.generatorDone = true ∨
      (requiresInput ops ≠ some false ∧ s.exec.source ≠ none))

variable (codec : BsonCodec) {ops : SourceOps ω}

/-! ### Stages that go on alike -/

/-- Two stages that differ in their heaps and records only, up to alike generators. -/
structure AlikeStages (same : StatePtr × ω → StatePtr × ω → Prop) (s t : Stage ω) : Prop where
  mode : s.exec.mode = t.exec.mode
  source : s.exec.source = t.exec.source
  saw : s.exec.sawUpstreamAdvanced = t.exec.sawUpstreamAdvanced
  pulls : s.pulls = t.pulls
  setup : s.setup = t.setup
  generators : Alike same s.generator t.generator

variable {same : StatePtr × ω → StatePtr × ω → Prop}

theorem AlikeStages.route_eq {s t : Stage ω} (alike : AlikeStages same s t) (frame : Frame) :
    route ops s frame = route ops t frame := by
  simp only [route, alike.mode, alike.source, alike.saw, alike.pulls]

theorem AlikeStages.forwarded {s t : Stage ω} (alike : AlikeStages same s t) (up : Upstream) :
    AlikeStages same (s.forwarded up) (t.forwarded up) := by
  simp only [Stage.forwarded, alike.mode, alike.pulls]
  have pulls : s.pulls + 1 = t.pulls + 1 := by rw [alike.pulls]
  split
  · exact ⟨rfl, alike.source, rfl, pulls, alike.setup, alike.generators⟩
  · exact ⟨alike.mode, alike.source, alike.saw, pulls, alike.setup, alike.generators⟩

/-- A call of alike stages takes the same route, and the reply has the same contents. -/
theorem AlikeStages.step (answers : Indistinguishable ops same) {s t : Stage ω}
    (alike : AlikeStages same s t) (frame : Frame) :
    (execGetNext codec ops s frame).1.contents = (execGetNext codec ops t frame).1.contents ∧
      AlikeStages same (execGetNext codec ops s frame).2 (execGetNext codec ops t frame).2 := by
  rw [execGetNext_eq, execGetNext_eq, ← alike.route_eq frame]
  cases route ops s frame with
  | refused => exact ⟨rfl, alike⟩
  | silent => exact ⟨rfl, alike⟩
  | forward up =>
      simp only [alike.pulls]
      exact ⟨trivial, alike.forwarded up⟩
  | generate res pulls =>
      have setup : (s.generating pulls).setup = (t.generating pulls).setup := alike.setup
      have generators : Alike same (s.generating pulls).generator (t.generating pulls).generator :=
        alike.generators
      obtain ⟨pull, generators'⟩ :=
        generators.pull codec (t.generating pulls).setup answers frame.queryCtx
      obtain ⟨-, generator, kept⟩ :=
        getNextGenerator_pull codec ops frame.queryCtx res (s.generating pulls)
      obtain ⟨-, generator', kept'⟩ :=
        getNextGenerator_pull codec ops frame.queryCtx res (t.generating pulls)
      refine ⟨?_, ?_⟩
      · simp only [getNextGenerator_contents, setup, pull]
      · refine ⟨kept.mode.trans kept'.mode.symm, ?_, ?_, kept.pulls.trans kept'.pulls.symm, ?_, ?_⟩
        · exact kept.source.trans (alike.source.trans kept'.source.symm)
        · exact kept.saw.trans (alike.saw.trans kept'.saw.symm)
        · exact kept.setup.trans (setup.trans kept'.setup.symm)
        · simp only [generator, generator', setup]
          exact generators'

theorem AlikeStages.yieldsLike (answers : Indistinguishable ops same) {s t : Stage ω}
    (alike : AlikeStages same s t) : YieldsLike (execGetNext codec ops) s t :=
  yieldsLike_of_related (fun _ _ frame related => related.step codec answers frame) alike

/-- Where every call generates over the caller's slots, a stage yields what it yields once it is a
generator. -/
theorem yieldsLike_generating {s : Stage ω}
    (generates : ∀ frame, route ops s frame = .generate frame.result s.pulls) :
    YieldsLike (execGetNext codec ops) s (s.generating s.pulls) := by
  intro frames
  cases frames with
  | nil => rfl
  | cons frame frames =>
      have step : execGetNext codec ops s frame =
          execGetNext codec ops (s.generating s.pulls) frame := by
        rw [execGetNext_eq, execGetNext_eq, generates frame]
        rfl
      simp only [Machine.outputs_cons, step]

/-! ### What calls leave behind -/

/-- What the calls of a compiled stage lead to: the stage itself, which took answers that were
neither rows nor ends; a passthrough of an upstream whose first row comes before its first end; or
a generator. -/
inductive Reached (ops : SourceOps ω) (compiled : Stage ω) : Stage ω → Prop where
  | undecided (pulls : ℕ)
      (quiet : ∀ up, compiled.exec.source = some up →
        ∀ k < pulls, ¬ (up k).Ends ∧ ¬ (up k).Advances) :
      Reached ops compiled { compiled with pulls }
  | passthrough {s : Stage ω} {up : Upstream} (mode : s.exec.mode = .passthrough)
      (required : requiresInput ops = some true) (source : compiled.exec.source = some up)
      (kept : s.exec.source = some up) (rowFirst : ∀ k, ¬ up.EndsFirst 0 k) :
      Reached ops compiled s
  | generator {s : Stage ω} (mode : s.exec.mode = .generator)
      (required : requiresInput ops ≠ none) (source : s.exec.source = compiled.exec.source)
      (saw : s.exec.sawUpstreamAdvanced = compiled.exec.sawUpstreamAdvanced)
      (setup : s.setup = compiled.setup) : Reached ops compiled s

theorem Reached.generating {compiled s : Stage ω} (source : s.exec.source = compiled.exec.source)
    (saw : s.exec.sawUpstreamAdvanced = compiled.exec.sawUpstreamAdvanced)
    (setup : s.setup = compiled.setup) (required : requiresInput ops ≠ none) (queryCtx : Option ℕ)
    (res : GetNextResult) (pulls : ℕ) :
    Reached ops compiled (getNextGenerator codec ops queryCtx res (s.generating pulls)).2 := by
  obtain ⟨-, -, kept⟩ := getNextGenerator_pull codec ops queryCtx res (s.generating pulls)
  exact .generator kept.mode required (kept.source.trans source) (kept.saw.trans saw)
    (kept.setup.trans setup)

/-- **Every call leads on to one of the three.** -/
theorem Reached.step {compiled s : Stage ω} (mode : compiled.exec.mode = .init)
    (saw : compiled.exec.sawUpstreamAdvanced = false) (reached : Reached ops compiled s)
    (frame : Frame) : Reached ops compiled (execGetNext codec ops s frame).2 := by
  cases reached with
  | generator mode' required source saw' setup =>
      have first : route ops s frame = .generate frame.result s.pulls := by
        simp only [route, mode']
      rw [execGetNext_eq, first]
      exact .generating codec source saw' setup required _ _ _
  | @passthrough _ up mode' required source kept rowFirst =>
      have first : route ops s frame = .forward up := by
        simp only [route, mode', kept]
      have forwarded : s.forwarded up = s.pulled := by
        simp [Stage.forwarded, mode']
      rw [execGetNext_eq, first]
      simp only [forwarded]
      exact .passthrough mode' required source kept rowFirst
  | undecided pulls quiet =>
      cases required : requiresInput ops with
      | none =>
          have first : route ops { compiled with pulls } frame = .refused := by
            simp [route, mode, required]
          rw [execGetNext_eq, first]
          exact .undecided pulls quiet
      | some requires =>
          have known : requiresInput ops ≠ none := by simp [required]
          cases requires with
          | false =>
              have first : route ops { compiled with pulls } frame =
                  .generate frame.result pulls := by
                simp [route, mode, required]
              rw [execGetNext_eq, first]
              exact .generating codec rfl rfl rfl known _ _ _
          | true =>
              cases source : compiled.exec.source with
              | none =>
                  have first : route ops { compiled with pulls } frame =
                      .generate frame.result pulls := by
                    simp [route, mode, required, source]
                  rw [execGetNext_eq, first]
                  exact .generating codec rfl rfl rfl known _ _ _
              | some up =>
                  have undecided : Undecided ops up { compiled with pulls } :=
                    ⟨required, mode, source, saw⟩
                  by_cases ends : (up pulls).Ends
                  · obtain ⟨res, first⟩ := undecided.route_of_ends frame ends
                    rw [execGetNext_eq, first]
                    exact .generating codec rfl rfl rfl known _ _ _
                  · rw [execGetNext_eq, undecided.route_of_not_ends frame ends]
                    by_cases advances : (up pulls).Advances
                    · have forwarded : Stage.forwarded { compiled with pulls } up =
                          { compiled with
                            pulls := pulls + 1
                            exec.sawUpstreamAdvanced := true
                            exec.mode := .passthrough } := by
                        simp [Stage.forwarded, mode, advances, Stage.pulled]
                      simp only [forwarded]
                      refine .passthrough rfl required source source ?_
                      exact Upstream.not_endsFirst_of_row advances (quiet up source)
                    · simp only [undecided.forwarded advances]
                      refine .undecided (pulls + 1) ?_
                      intro up' source' k lt
                      obtain rfl : up = up' := Option.some.inj (source.symm.trans source')
                      rcases Nat.eq_or_lt_of_le (Nat.le_of_lt_succ lt) with rfl | before
                      · exact ⟨ends, advances⟩
                      · exact quiet up source k before

theorem reached_after (setup : Setup) (hooks : ω) (source : Option Upstream)
    (before : List Frame) :
    Reached ops (setup.compiled hooks source)
      ((execGetNext codec ops).after (setup.compiled hooks source) before) := by
  have start : Reached ops (setup.compiled hooks source) (setup.compiled hooks source) :=
    .undecided 0 fun _ _ k lt => absurd lt (Nat.not_lt_zero k)
  apply Machine.after_invariant _ start before
  intro s frame reached
  exact reached.step codec rfl rfl frame

/-! ### Starting over -/

/-- Compiled stages are alike whatever the worlds of their hooks. -/
theorem compiled_alike (setup : Setup) (hooks fresh : ω) (source : Option Upstream) :
    AlikeStages same (setup.compiled hooks source) (setup.compiled fresh source) :=
  ⟨rfl, rfl, rfl, rfl, rfl, .unopened same rfl rfl rfl⟩

/-- **A stage that does not linger yields like a fresh one once started over.** -/
theorem Reached.yieldsLike (answers : Indistinguishable ops same) {setup : Setup} {hooks : ω}
    {source : Option Upstream} {s : Stage ω} (reached : Reached ops (setup.compiled hooks source) s)
    (settled : ¬ Lingers ops s) (fresh : ω) :
    YieldsLike (execGetNext codec ops) { s with pulls := 0 } (setup.compiled fresh source) := by
  cases reached with
  | undecided pulls quiet =>
      exact (compiled_alike setup hooks fresh source).yieldsLike codec answers
  | @passthrough _ up mode required known kept rowFirst =>
      obtain rfl : source = some up := known
      intro frames
      have undecided : Undecided ops up (setup.compiled fresh (some up)) :=
        ⟨required, rfl, rfl, rfl⟩
      obtain ⟨forwards, -, -⟩ :=
        @outputs_passthrough _ codec ops up { s with pulls := 0 } mode kept frames
      obtain ⟨forwards', -, -⟩ := outputs_undecided codec undecided frames fun k _ => rowFirst k
      rw [forwards, forwards']
      rfl
  | generator mode required known saw kept =>
      obtain ⟨stateless, working, alone⟩ : s.exec.state = none ∧ s.exec.generatorDone = false ∧
          (requiresInput ops = some false ∨ s.exec.source = none) := by
        simp only [Lingers, mode, true_and, not_or, not_and_or, not_not,
          Bool.not_eq_true] at settled
        exact settled
      have generates : ∀ frame, route ops (setup.compiled fresh source) frame =
          .generate frame.result (setup.compiled fresh source).pulls := by
        intro frame
        have init : (setup.compiled fresh source).exec.mode = .init := rfl
        have source' : (setup.compiled fresh source).exec.source = source := rfl
        simp only [route, init, source']
        rcases alone with ignores | unsourced
        · simp only [ignores]
        · obtain rfl : source = none := known.symm.trans unsourced
          obtain ⟨requires, answered⟩ := Option.ne_none_iff_exists'.mp required
          rw [answered]
          cases requires <;> rfl
      have alike : AlikeStages same { s with pulls := 0 }
          ((setup.compiled fresh source).generating (setup.compiled fresh source).pulls) :=
        ⟨mode, known, saw, rfl, kept, .unopened same working stateless rfl⟩
      intro frames
      rw [alike.yieldsLike codec answers frames, yieldsLike_generating codec generates frames]

end SourceStage

/-! ## Map stages -/

namespace MapTransform

/-- A stage compiled from arguments, with its source set. -/
def compiled (args : Bytes) (source : Option Upstream) : Stage :=
  execSetSource (.compiled (execAlloc args)) source

/-- The stage after the host started it over, with its upstream back at the first result. -/
def restarted (restart : Restart) (s : Stage) : Stage :=
  match restart with
  | .reopen => { (execReopen s).2 with pulls := 0 }
  | .closeOpen => { (execOpen (execClose s).2).2 with pulls := 0 }

@[simp] theorem restarted_eq (restart : Restart) (s : Stage) :
    restarted restart s = { s with pulls := 0 } := by
  cases restart <;> rfl

/-- The stage remembers a row or an emitted one, so it forwards every end. -/
def Stage.forwardsEnds (s : Stage) : Bool :=
  s.exec.sawUpstreamAdvanced || s.exec.emittedEofSynthetic

/-- The stage forwards the first end of an upstream, where a fresh stage asks `on_eof`. -/
def Lingers (mg : MapStageGlobals) (s : Stage) : Prop :=
  ∃ up onEof k, s.exec.source = some up ∧ mg.onEofNoRows = some onEof ∧ s.forwardsEnds = true ∧
    up.EndsFirst 0 k

/-! ### One call -/

section Call

variable (codec : BsonCodec) (mg : MapStageGlobals)

/-- A row of the same computation over the same metadata reads the same. -/
theorem RowReply.contents_eq {outcome outcome' : HookOutcome String Bytes} {panicText : String}
    {metadata : ByteContainer} {r r' : Reply} (same : outcome = outcome')
    (row : RowReply outcome panicText metadata r)
    (row' : RowReply outcome' panicText metadata r') : r.contents = r'.contents := by
  subst same
  cases outcome with
  | ok bytes =>
      obtain ⟨status, code, document, slot⟩ := row
      obtain ⟨status', code', document', slot'⟩ := row'
      simp only [Reply.contents, status, status', GetNextResult.contents, code, code', document,
        document', slot, slot']
  | error fault =>
      have failed : (faultStatus panicText fault).isOk = false := by
        cases fault <;> rfl
      simp only [RowReply] at row row'
      simp only [Reply.contents, row, row', failed]
      rfl

/-- A call with an upstream, by its answer. -/
theorem execGetNext_of_source {s : Stage} {up : Upstream} (source : s.exec.source = some up)
    (frame : Frame) :
    execGetNext codec mg s frame =
      match up s.pulls with
      | .failure status _ written =>
        (⟨status, written.getD frame.result⟩, { s with pulls := s.pulls + 1 })
      | .success _ _ res _ => mapResult codec mg res { s with pulls := s.pulls + 1 } := by
  rcases answer : up s.pulls with _ | _ <;> simp [execGetNext, source, answer]

/-- An end that no row is made for is forwarded. -/
theorem mapResult_forwards {s : Stage} {res : GetNextResult} (ended : res.code = .eof)
    (forwards : mg.onEofNoRows = none ∨ s.forwardsEnds = true) :
    mapResult codec mg res s = (⟨statusOk, res⟩, s) := by
  unfold mapResult
  rw [ended]
  rcases forwards with hookless | remembered
  · simp only [hookless]
    split <;> rfl
  · simp only [Stage.forwardsEnds] at remembered
    simp only [remembered, if_true]

theorem mapResult_synthesizes {s : Stage} {res : GetNextResult} (ended : res.code = .eof)
    {onEof : Document → HookOutcome String Document} (hook : mg.onEofNoRows = some onEof)
    (asks : s.forwardsEnds = false) :
    mapResult codec mg res s = syntheticRow codec onEof res s := by
  simp only [Stage.forwardsEnds] at asks
  simp only [mapResult, ended, asks, hook, Bool.false_eq_true, if_false]

end Call

/-! ### Stages that go on alike -/

/-- Two stages that treat the ends they can meet alike: no row is made for any, they remember the
same, or no end comes first and both remember every row. -/
inductive EndsAlike (mg : MapStageGlobals) (up : Upstream) (s t : Stage) : Prop where
  | hookless (none : mg.onEofNoRows = none)
  | remembered (saw : s.exec.sawUpstreamAdvanced = t.exec.sawUpstreamAdvanced)
      (emitted : s.exec.emittedEofSynthetic = t.exec.emittedEofSynthetic)
  | rowFirst (never : ∀ k, ¬ up.EndsFirst 0 k)
      (seen : ∀ k < s.pulls, (up k).Advances →
        s.exec.sawUpstreamAdvanced = true ∧ t.exec.sawUpstreamAdvanced = true)

/-- Two stages over the same answers of the same upstream that treat its ends alike. -/
structure AlikeStages (mg : MapStageGlobals) (s t : Stage) : Prop where
  args : s.exec.args = t.exec.args
  source : s.exec.source = t.exec.source
  pulls : s.pulls = t.pulls
  ends : ∀ up, s.exec.source = some up → EndsAlike mg up s t

section Alike

variable {codec : BsonCodec} {mg : MapStageGlobals} {s t : Stage} {up : Upstream}

/-- An answer that is no row leaves the stages alike. -/
theorem AlikeStages.pulled (alike : AlikeStages mg s t) (source : s.exec.source = some up)
    (advances : ¬ (up s.pulls).Advances) :
    AlikeStages mg { s with pulls := s.pulls + 1 } { t with pulls := t.pulls + 1 } := by
  refine ⟨alike.args, alike.source, congrArg (· + 1) alike.pulls, ?_⟩
  intro up' source'
  obtain rfl : up = up' := Option.some.inj (source.symm.trans source')
  cases alike.ends up source with
  | hookless none => exact .hookless none
  | remembered saw emitted => exact .remembered saw emitted
  | rowFirst never seen =>
      refine .rowFirst never ?_
      intro k lt row
      rcases Nat.eq_or_lt_of_le (Nat.le_of_lt_succ lt) with rfl | before
      · exact absurd row advances
      · exact seen k before row

/-- After a row both stages remember it. -/
theorem AlikeStages.advanced (alike : AlikeStages mg s t) (source : s.exec.source = some up)
    (heap heap' : Heap) :
    AlikeStages mg { s with pulls := s.pulls + 1, exec.sawUpstreamAdvanced := true, heap }
      { t with pulls := t.pulls + 1, exec.sawUpstreamAdvanced := true, heap := heap' } := by
  refine ⟨alike.args, alike.source, congrArg (· + 1) alike.pulls, ?_⟩
  intro up' source'
  obtain rfl : up = up' := Option.some.inj (source.symm.trans source')
  cases alike.ends up source with
  | hookless none => exact .hookless none
  | remembered saw emitted => exact .remembered rfl emitted
  | rowFirst never seen => exact .rowFirst never fun _ _ _ => ⟨rfl, rfl⟩

variable (codec) in
/-- At an end alike stages reply alike and stay alike. -/
theorem AlikeStages.mapEnd (alike : AlikeStages mg s t) (source : s.exec.source = some up)
    {res : GetNextResult} (ended : res.code = .eof) (ends : (up s.pulls).Ends)
    (advances : ¬ (up s.pulls).Advances) :
    (mapResult codec mg res { s with pulls := s.pulls + 1 }).1.contents =
        (mapResult codec mg res { t with pulls := t.pulls + 1 }).1.contents ∧
      AlikeStages mg (mapResult codec mg res { s with pulls := s.pulls + 1 }).2
        (mapResult codec mg res { t with pulls := t.pulls + 1 }).2 := by
  have next := alike.pulled source advances
  cases alike.ends up source with
  | hookless none =>
      rw [mapResult_forwards codec mg ended (.inl none),
        mapResult_forwards codec mg ended (.inl none)]
      exact ⟨rfl, next⟩
  | rowFirst never seen =>
      obtain ⟨k, before, row⟩ : ∃ k < s.pulls, (up k).Advances := by
        by_contra rowless
        push Not at rowless
        obtain ⟨j, -, first⟩ := Upstream.exists_endsFirst (Nat.zero_le _) ends
          fun k _ before => rowless k before
        exact never j first
      obtain ⟨saw, saw'⟩ := seen k before row
      rw [mapResult_forwards codec mg ended (.inr (by simp [Stage.forwardsEnds, saw])),
        mapResult_forwards codec mg ended (.inr (by simp [Stage.forwardsEnds, saw']))]
      exact ⟨rfl, next⟩
  | remembered saw emitted =>
      have flags : Stage.forwardsEnds { s with pulls := s.pulls + 1 } =
          Stage.forwardsEnds { t with pulls := t.pulls + 1 } := by
        simp only [Stage.forwardsEnds, saw, emitted]
      cases hook : mg.onEofNoRows with
      | none =>
          rw [mapResult_forwards codec mg ended (.inl hook),
            mapResult_forwards codec mg ended (.inl hook)]
          exact ⟨rfl, next⟩
      | some onEof =>
          cases forwards : Stage.forwardsEnds { s with pulls := s.pulls + 1 } with
          | true =>
              rw [mapResult_forwards codec mg ended (.inr forwards),
                mapResult_forwards codec mg ended (.inr (flags.symm.trans forwards))]
              exact ⟨rfl, next⟩
          | false =>
              rw [mapResult_synthesizes codec mg ended hook forwards,
                mapResult_synthesizes codec mg ended hook (flags.symm.trans forwards)]
              obtain ⟨row, heap, stage⟩ :=
                syntheticRow_spec codec onEof res { s with pulls := s.pulls + 1 }
              obtain ⟨row', heap', stage'⟩ :=
                syntheticRow_spec codec onEof res { t with pulls := t.pulls + 1 }
              simp only [stage, stage']
              refine ⟨row.contents_eq (by simp only [alike.args]) row', alike.args, alike.source,
                congrArg (· + 1) alike.pulls, ?_⟩
              intro _ _
              exact .remembered saw (by simp only [emitted, alike.args])

/-- **A call of alike stages replies alike and leaves them alike.** -/
theorem AlikeStages.step (alike : AlikeStages mg s t) (frame : Frame) :
    (execGetNext codec mg s frame).1.contents = (execGetNext codec mg t frame).1.contents ∧
      AlikeStages mg (execGetNext codec mg s frame).2 (execGetNext codec mg t frame).2 := by
  cases source : s.exec.source with
  | none =>
      have source' : t.exec.source = none := alike.source.symm.trans source
      simp only [execGetNext, source, source']
      exact ⟨trivial, alike⟩
  | some up =>
      have source' : t.exec.source = some up := alike.source.symm.trans source
      rw [execGetNext_of_source codec mg source, execGetNext_of_source codec mg source',
        ← alike.pulls]
      cases answer : up s.pulls with
      | failure status bad written =>
          have advances : ¬ (up s.pulls).Advances := by simp [answer, Pulled.Advances]
          have next := alike.pulled source advances
          rw [← alike.pulls] at next
          exact ⟨rfl, next⟩
      | success status okay res exclusive =>
          simp only
          rw [alike.pulls]
          cases code : res.code with
          | advanced =>
              obtain ⟨row, heap, stage⟩ := advancedRow_spec codec mg res
                { s with pulls := t.pulls + 1, exec.sawUpstreamAdvanced := true } code
              obtain ⟨row', heap', stage'⟩ := advancedRow_spec codec mg res
                { t with pulls := t.pulls + 1, exec.sawUpstreamAdvanced := true } code
              simp only [mapResult, code, stage, stage']
              have next := alike.advanced source heap heap'
              rw [alike.pulls] at next
              exact ⟨row.contents_eq (by simp only [alike.args]) row', next⟩
          | eof =>
              have advances : ¬ (up s.pulls).Advances := by simp [answer, Pulled.Advances, code]
              have ends : (up s.pulls).Ends := by simp [answer, Pulled.Ends, code]
              have both := alike.mapEnd codec source code ends advances
              rw [alike.pulls] at both
              exact both
          | pauseExecution =>
              have advances : ¬ (up s.pulls).Advances := by simp [answer, Pulled.Advances, code]
              have next := alike.pulled source advances
              rw [alike.pulls] at next
              simp only [mapResult, code]
              exact ⟨trivial, next⟩

end Alike

/-! ### Starting over -/

section Restarting

variable (codec : BsonCodec) (mg : MapStageGlobals)

/-- What the stage makes of a result keeps the arguments, the source, the count of answers, and
what makes the stage forward ends. -/
theorem mapResult_keeps (res : GetNextResult) (s : Stage) :
    (mapResult codec mg res s).2.exec.args = s.exec.args ∧
      (mapResult codec mg res s).2.exec.source = s.exec.source ∧
      (mapResult codec mg res s).2.pulls = s.pulls ∧
      (s.forwardsEnds = true → (mapResult codec mg res s).2.forwardsEnds = true) := by
  cases code : res.code with
  | advanced =>
      obtain ⟨-, heap, stage⟩ := advancedRow_spec codec mg res
        { s with exec.sawUpstreamAdvanced := true } code
      simp only [mapResult, code, stage]
      exact ⟨trivial, trivial, trivial, fun _ => rfl⟩
  | pauseExecution =>
      simp only [mapResult, code]
      exact ⟨trivial, trivial, trivial, id⟩
  | eof =>
      cases hook : mg.onEofNoRows with
      | none =>
          rw [mapResult_forwards codec mg code (.inl hook)]
          exact ⟨rfl, rfl, rfl, id⟩
      | some onEof =>
          cases forwards : s.forwardsEnds with
          | true =>
              rw [mapResult_forwards codec mg code (.inr forwards)]
              exact ⟨rfl, rfl, rfl, fun _ => forwards⟩
          | false =>
              obtain ⟨-, heap, stage⟩ := syntheticRow_spec codec onEof res s
              rw [mapResult_synthesizes codec mg code hook forwards, stage]
              exact ⟨rfl, rfl, rfl, fun remembered => by cases remembered⟩

theorem execGetNext_keeps (s : Stage) (frame : Frame) :
    (execGetNext codec mg s frame).2.exec.args = s.exec.args ∧
      (execGetNext codec mg s frame).2.exec.source = s.exec.source := by
  cases source : s.exec.source with
  | none =>
      simp only [execGetNext, source]
      exact ⟨trivial, trivial⟩
  | some up =>
      rw [execGetNext_of_source codec mg source]
      cases up s.pulls with
      | failure status bad written => exact ⟨rfl, source⟩
      | success status okay res exclusive =>
          obtain ⟨args, kept, -, -⟩ := mapResult_keeps codec mg res { s with pulls := s.pulls + 1 }
          exact ⟨args, kept.trans source⟩

/-- A stage that forwards ends still does after any calls. -/
theorem after_forwardsEnds {s : Stage} {up : Upstream} (source : s.exec.source = some up)
    (forwards : s.forwardsEnds = true) (frames : List Frame) :
    ((execGetNext codec mg).after s frames).exec.source = some up ∧
      ((execGetNext codec mg).after s frames).forwardsEnds = true ∧
      ((execGetNext codec mg).after s frames).pulls = s.pulls + frames.length := by
  induction frames generalizing s with
  | nil => exact ⟨source, forwards, rfl⟩
  | cons frame frames ih =>
      obtain ⟨forwards', pulls⟩ : (execGetNext codec mg s frame).2.forwardsEnds = true ∧
          (execGetNext codec mg s frame).2.pulls = s.pulls + 1 := by
        rw [execGetNext_of_source codec mg source]
        cases up s.pulls with
        | failure status bad written => exact ⟨forwards, rfl⟩
        | success status okay res exclusive =>
            obtain ⟨-, -, pulls, remembered⟩ :=
              mapResult_keeps codec mg res { s with pulls := s.pulls + 1 }
            exact ⟨remembered forwards, pulls⟩
      obtain ⟨-, kept⟩ := execGetNext_keeps codec mg s frame
      obtain ⟨source', last, total⟩ := ih (kept.trans source) forwards'
      refine ⟨source', last, ?_⟩
      rw [Machine.after_cons, total, pulls, List.length_cons]
      omega

/-- A stage that forwards ends forwards the end it gets. -/
theorem reply_of_forwardsEnds {s : Stage} {up : Upstream} (source : s.exec.source = some up)
    (forwards : s.forwardsEnds = true) (ends : (up s.pulls).Ends) (frame : Frame) :
    ∃ res, res.code = .eof ∧ (execGetNext codec mg s frame).1 = ⟨statusOk, res⟩ ∧
      ∀ slots, (up s.pulls).reply slots = ⟨statusOk, res⟩ := by
  rw [execGetNext_of_source codec mg source]
  cases answer : up s.pulls with
  | failure status bad written => simp [answer, Pulled.Ends] at ends
  | success status okay res exclusive =>
      have code : res.code = .eof := by simpa [answer, Pulled.Ends] using ends
      have forwards' : Stage.forwardsEnds { s with pulls := s.pulls + 1 } = true := forwards
      simp only
      rw [mapResult_forwards codec mg code (.inr forwards')]
      exact ⟨res, code, rfl, fun _ => rfl⟩

variable {codec mg}

/-- What is owed at an answer that ends. -/
theorem Owes.owesEnd {args : Bytes} {up : Upstream} {k : ℕ} {frame : Frame} {r : Reply}
    (owed : Owes codec mg args up k frame r) (ends : (up k).Ends) {res : GetNextResult}
    (answer : ∀ slots, (up k).reply slots = ⟨statusOk, res⟩) :
    OwesEnd codec mg args up k res r := by
  cases given : up k with
  | failure status bad written => simp [given, Pulled.Ends] at ends
  | success status okay res' exclusive =>
      have code : res'.code = .eof := by simpa [given, Pulled.Ends] using ends
      obtain rfl : res' = res := by
        have reply := answer res
        rw [given] at reply
        exact congrArg Reply.result reply
      simpa only [Owes, given, code] using owed

/-- A row or a failure of `on_eof` does not read as an end. -/
theorem OwesEnd.not_end {args : Bytes} {up : Upstream} {k : ℕ} {res : GetNextResult} {r : Reply}
    {onEof : Document → HookOutcome String Document} (hook : mg.onEofNoRows = some onEof)
    (first : up.EndsFirst 0 k) (owed : OwesEnd codec mg args up k res r) {contents : Contents}
    (ended : contents.code = .eof) : r.contents ≠ .ok contents := by
  simp only [OwesEnd, hook] at owed
  have made := owed.2 fun j before => (first.2.2 j (Nat.zero_le j) before).2
  cases outcome : emptyInputRow codec args onEof with
  | error fault =>
      rw [outcome] at made
      have failed : (faultStatus "panic during on_eof_no_rows" fault).isOk = false := by
        cases fault <;> rfl
      simp [Reply.contents, made, failed]
  | ok bytes =>
      rw [outcome] at made
      obtain ⟨status, code, -, -⟩ := made.1 first
      simp only [Reply.contents, status, statusOk_isOk, if_true]
      intro same
      have code' : r.result.contents.code = contents.code := by rw [Except.ok.inj same]
      rw [GetNextResult.contents, code, ended] at code'
      cases code'

/-- A stage that lingers forwards the end at which a fresh one makes its row. -/
theorem Lingers.differs {s : Stage} (lingers : Lingers mg s) (args : Bytes) :
    ¬ YieldsLike (execGetNext codec mg) { s with pulls := 0 } (compiled args s.exec.source) := by
  obtain ⟨up, onEof, k, source, hook, forwards, first⟩ := lingers
  intro same
  have blanks : (List.replicate (k + 1) Frame.blank)[k]? = some .blank := by simp
  obtain ⟨-, -, r, replied, owed⟩ :=
    owes_run codec mg args up (List.replicate (k + 1) .blank) k .blank blanks
  obtain ⟨source', forwards', pulls⟩ := @after_forwardsEnds codec mg { s with pulls := 0 } up
    source forwards ((List.replicate (k + 1) .blank).take k)
  have reached : ((execGetNext codec mg).after { s with pulls := 0 }
      ((List.replicate (k + 1) .blank).take k)).pulls = k := by
    rw [pulls, List.length_take, List.length_replicate, Nat.zero_add]
    omega
  obtain ⟨res, code, forwarded, answer⟩ := reply_of_forwardsEnds codec mg source' forwards'
    (by rw [reached]; exact first.2.1) .blank
  rw [reached] at answer
  have notEnd : r.contents ≠ .ok res.contents :=
    (owed.owesEnd first.2.1 answer).not_end hook first code
  have contents := congrArg (fun replies => replies[k]?) (same (List.replicate (k + 1) .blank))
  have fresh : compiled args s.exec.source = start args up := by
    rw [source]
    rfl
  simp only [fresh, List.getElem?_map, replied, Option.map_some] at contents
  rw [Machine.getElem?_outputs, blanks] at contents
  simp only [Option.map_some, Option.some.injEq, forwarded] at contents
  exact notEnd contents.symm

/-- **A map stage yields like a fresh one once started over exactly when it does not linger.** -/
theorem yieldsLike_iff {s : Stage} {args : Bytes} {source : Option Upstream}
    (kept : s.exec.args = args) (known : s.exec.source = source) :
    YieldsLike (execGetNext codec mg) { s with pulls := 0 } (compiled args source) ↔
      ¬ Lingers mg s := by
  subst kept known
  constructor
  · intro same lingers
    exact lingers.differs s.exec.args same
  · intro settled
    have alike : AlikeStages mg { s with pulls := 0 } (compiled s.exec.args s.exec.source) := by
      refine ⟨rfl, rfl, rfl, ?_⟩
      intro up source
      cases hook : mg.onEofNoRows with
      | none => exact .hookless hook
      | some onEof =>
          cases forwards : s.forwardsEnds with
          | false =>
              obtain ⟨saw, emitted⟩ := Bool.or_eq_false_iff.mp forwards
              exact .remembered saw emitted
          | true =>
              refine .rowFirst ?_ fun k before => absurd before (Nat.not_lt_zero k)
              intro k first
              exact settled ⟨up, onEof, k, source, hook, forwards, first⟩
    exact yieldsLike_of_related (fun _ _ frame related => related.step frame) alike

variable (codec mg) in
theorem after_keeps (s : Stage) (frames : List Frame) :
    ((execGetNext codec mg).after s frames).exec.args = s.exec.args ∧
      ((execGetNext codec mg).after s frames).exec.source = s.exec.source := by
  induction frames generalizing s with
  | nil => exact ⟨rfl, rfl⟩
  | cons frame frames ih =>
      obtain ⟨args, source⟩ := execGetNext_keeps codec mg s frame
      obtain ⟨args', source'⟩ := ih (execGetNext codec mg s frame).2
      exact ⟨args'.trans args, source'.trans source⟩

end Restarting

end MapTransform

/-! ## Starting over -/

namespace Stages

/-- **Stages that start over**, for every script of the upstream and after any calls. A source
stage with deterministic hooks yields what a fresh one yields unless it lingers as a generator, and
a map stage does exactly unless its flags forward an end that a fresh one makes a row for. -/
theorem reopened_yields_like_fresh (codec : BsonCodec) (restart : Restart) (before : List Frame) :
    (∀ {ω : Type} (ops : SourceStage.SourceOps ω), SourceStage.Deterministic ops →
      ∀ (setup : SourceStage.Setup) (hooks fresh : ω) (source : Option Upstream),
        let s := (SourceStage.execGetNext codec ops).after (setup.compiled hooks source) before
        ¬ SourceStage.Lingers ops s →
          YieldsLike (SourceStage.execGetNext codec ops) (SourceStage.restarted restart s)
            (setup.compiled fresh source)) ∧
    ∀ (mg : MapTransform.MapStageGlobals) (args : Bytes) (source : Option Upstream),
      let s := (MapTransform.execGetNext codec mg).after (MapTransform.compiled args source) before
      YieldsLike (MapTransform.execGetNext codec mg) (MapTransform.restarted restart s)
          (MapTransform.compiled args source) ↔
        ¬ MapTransform.Lingers mg s := by
  refine ⟨?_, ?_⟩
  · intro ω ops deterministic setup hooks fresh source s settled
    obtain ⟨same, answers⟩ := deterministic
    rw [SourceStage.restarted_eq]
    exact (SourceStage.reached_after codec setup hooks source before).yieldsLike codec answers
      settled fresh
  · intro mg args source s
    obtain ⟨kept, known⟩ := MapTransform.after_keeps codec mg (MapTransform.compiled args source)
      before
    rw [MapTransform.restarted_eq]
    exact MapTransform.yieldsLike_iff kept known

/-! ## A stage of one row -/

/-- A generator of one row. -/
def oneRow : SourceStage.StageFunctions Unit ℕ where
  parse _ := .ok ()
  openArgs _ _ := .ok 1
  next left _ :=
    match left with
    | 0 => (.ok .eof, 0)
    | left + 1 => (.ok (.advanced [] none), left)
  properties := some []

/-- A codec for empty documents. -/
def emptyCodec : BsonCodec := ⟨fun _ => .ok [5, 0, 0, 0, 0], fun _ => .ok []⟩

/-- A passthrough of rows yields like a fresh stage once reopened. -/
theorem reopened_yields_like_fresh_passthrough :
    let ops := SourceStage.exportSourceStage oneRow
    let stage : SourceStage.Stage (List (Option ℕ)) :=
      SourceStage.Setup.compiled ⟨[], none, none⟩ [] (some SourceStage.rowsForever)
    SourceStage.Deterministic ops ∧
      YieldsLike (SourceStage.execGetNext emptyCodec ops)
        (SourceStage.restarted .reopen
          ((SourceStage.execGetNext emptyCodec ops).after stage [.blank])) stage := by
  have deterministic := SourceStage.exportSourceStage_deterministic oneRow
  refine ⟨deterministic, ?_⟩
  apply (reopened_yields_like_fresh emptyCodec .reopen [.blank]).1 _ deterministic
  rintro ⟨generator, -⟩
  revert generator
  decide

/-- A reopened generator of one row goes on after its row, and after its end, and a reopened map
stage does not make its row again. -/
theorem reopen_goes_on :
    let ops := SourceStage.exportSourceStage oneRow
    let stage : SourceStage.Stage (List (Option ℕ)) :=
      SourceStage.Setup.compiled ⟨[], none, none⟩ [] none
    let mg : MapTransform.MapStageGlobals := ⟨fun row _ => .ok row, some fun args => .ok args⟩
    let mapStage := MapTransform.compiled [] (some fun _ => .ofResult .setEofEmpty (by decide))
    SourceStage.Deterministic ops ∧
      ∀ restart : Restart,
        (∀ before ∈ [[Frame.blank], [.blank, .blank]],
          ¬ YieldsLike (SourceStage.execGetNext emptyCodec ops)
            (SourceStage.restarted restart
              ((SourceStage.execGetNext emptyCodec ops).after stage before)) stage) ∧
        ¬ YieldsLike (MapTransform.execGetNext emptyCodec mg)
          (MapTransform.restarted restart
            ((MapTransform.execGetNext emptyCodec mg).after mapStage [.blank])) mapStage := by
  intro ops stage mg mapStage
  refine ⟨SourceStage.exportSourceStage_deterministic oneRow, ?_⟩
  intro restart
  refine ⟨?_, ?_⟩
  · intro before member same
    have codes := congrArg (List.map fun r => r.toOption.map Contents.code) (same [.blank])
    simp only [List.mem_cons, List.not_mem_nil, or_false] at member
    rcases member with rfl | rfl
    · revert codes
      cases restart <;> decide
    · revert codes
      cases restart <;> decide
  · intro same
    have codes := congrArg (List.map fun r => r.toOption.map Contents.code) (same [.blank])
    revert codes
    cases restart <;> decide

end Stages

end ExtensionSdkMongodb

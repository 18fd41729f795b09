import ExtensionSdkMongodb.SourceStage.Export
import ExtensionSdkMongodb.SourceStage.Lifecycle
import ExtensionSdkMongodb.Stages.Reopening

/-!
# Many cursors in one process

A host compiles any number of executable stages of one extension, and calls and destroys them in
any order. The stages share the memory of the process, with the boxes of their states.

The boxes of exported stages never mix: at every moment each live stage with a state has a box of
its own, and no other box is live (`Tidy`). So no call uses a pointer that is not valid, and nothing
is left behind by stages that were destroyed (`cursors_share_memory`). And where the implementation
acts on its own states only, a stage replies what it would reply alone (`cursors_apart`).
-/

set_option autoImplicit false

namespace ExtensionSdkMongodb.SourceStage

variable {α σ ω : Type}

/-! ## Stages that share a memory -/

/-- A stage over the shared memory. -/
def Stage.within (s : Stage Unit) (hooks : ω) : Stage ω := ⟨s.exec, hooks, s.pulls, s.calls, s.heap⟩

/-- A stage without the shared memory. -/
def Stage.without (s : Stage ω) : Stage Unit := ⟨s.exec, (), s.pulls, s.calls, s.heap⟩

@[simp] theorem Stage.within_without (s : Stage ω) : s.without.within s.hooks = s := rfl

/-- The executable stages of a process, by the pointers that the host knows, and the memory. -/
structure Cursors (ω : Type) where
  stages : Boxes (Stage Unit)
  hooks : ω

/-- What the host does: it compiles a stage, calls one, or destroys one. -/
inductive HostCall where
  | compile (setup : Setup)
  | call (ptr : Option ℕ) (operation : Operation)
  | destroy (ptr : Option ℕ)

namespace Cursors

/-- A process without stages. -/
def start (hooks : ω) : Cursors ω := ⟨.empty, hooks⟩

/-- The host's calls, in any order. A pointer to no live stage is one that the host does not use,
and such a call is passed over. -/
def operate (codec : BsonCodec) (ops : SourceOps ω) : Machine (Cursors ω) HostCall (Option Reply) :=
  fun p call =>
    match call with
    | .compile setup => (none, { p with stages := (p.stages.intoRaw (setup.compiled () none)).2 })
    | .call ptr operation =>
      match p.stages.read ptr with
      | none => (none, p)
      | some s =>
        let answer := SourceStage.operate codec ops (s.within p.hooks) operation
        (answer.1, ⟨p.stages.write ptr answer.2.without, answer.2.hooks⟩)
    | .destroy ptr =>
      match p.stages.read ptr with
      | none => (none, p)
      | some s => (none, ⟨p.stages.fromRaw ptr, (execDestroy ops (s.within p.hooks)).1⟩)

/-- The state pointers of the live stages. -/
def owners (p : Cursors ω) (ptr : Option ℕ) : StatePtr :=
  (p.stages.read ptr).bind fun s => s.exec.state

theorem owners_compile (p : Cursors ω) (setup : Setup) :
    owners { p with stages := (p.stages.intoRaw (setup.compiled () none)).2 } = p.owners := by
  funext ptr
  simp only [owners, Boxes.read_intoRaw]
  split
  · next here =>
      rw [here, Boxes.read_fresh]
      rfl
  · rfl

theorem owners_set {p : Cursors ω} {ptr : Option ℕ} {s : Stage Unit}
    (live : p.stages.read ptr = some s) (cell : Option (Stage Unit)) (hooks : ω) :
    owners ⟨p.stages.set ptr cell, hooks⟩ =
      Function.update p.owners ptr (cell.bind fun t => t.exec.state) := by
  funext other
  simp only [owners, Boxes.read_set (show (p.stages.read ptr).isSome by rw [live]; rfl)]
  by_cases here : other = ptr
  · rw [if_pos here, here, Function.update_self]
  · rw [if_neg here, Function.update_of_ne here]
    rfl

end Cursors

/-! ## One call -/

section Step

variable (codec : BsonCodec) {stage : SourceStageImpl α σ ω}
variable {ι : Type} [DecidableEq ι] {owners : ι → StatePtr} {content : ι → Option σ} {i : ι}

/-- The boxes hold the states of the owners, when this owner's is the one of the stage. -/
def HoldsAt (owners : ι → StatePtr) (content : ι → Option σ) (i : ι) (s : Stage (Memory σ ω)) :
    Prop :=
  ∃ value, s.hooks.boxes.Holds (Function.update owners i s.exec.state)
    (Function.update content i value)

/-- A stage whose state's box is held denotes a cursor. -/
theorem HoldsAt.denotes {s : Stage (Memory σ ω)} (holds : HoldsAt owners content i s) :
    ∃ c, Denotes owners content i s.generator c := by
  obtain ⟨value, holds⟩ := holds
  exact ⟨⟨value, s.exec.generatorDone, s.hooks.world⟩, rfl, rfl, holds⟩

/-- **A call of one stage keeps the boxes of all others.** -/
theorem HoldsAt.operate (drops : stage.DropsQuietly) {s : Stage (Memory σ ω)}
    (holds : HoldsAt owners content i s) (operation : Operation) :
    HoldsAt owners content i (operate codec stage.sdkSourceOps.toSourceOps s operation).2 := by
  cases operation with
  | setSource source => exact holds
  | getNext frame =>
      simp only [SourceStage.operate]
      rw [execGetNext_eq]
      cases route stage.sdkSourceOps.toSourceOps s frame with
      | refused => exact holds
      | silent => exact holds
      | forward up =>
          obtain ⟨value, holds⟩ := holds
          refine ⟨value, ?_⟩
          have hooks : (s.forwarded up).hooks = s.hooks := by
            unfold Stage.forwarded
            split <;> rfl
          simp only [state_forwarded, hooks]
          exact holds
      | generate res pulls =>
          have generating : HoldsAt owners content i (s.generating pulls) := holds
          obtain ⟨c, denotes⟩ := generating.denotes
          obtain ⟨-, generator, -⟩ := getNextGenerator_pull codec stage.sdkSourceOps.toSourceOps
            frame.queryCtx res (s.generating pulls)
          obtain ⟨-, denotes'⟩ := denotes.pull codec (s.generating pulls).setup drops
            frame.queryCtx
          rw [← generator] at denotes'
          exact ⟨_, denotes'.holds⟩

variable (stage) in
/-- Destroying a stage frees the box of its state, and no other. -/
theorem HoldsAt.destroy {s : Stage (Memory σ ω)}
    (holds : HoldsAt owners content i s) :
    (execDestroy stage.sdkSourceOps.toSourceOps s).1.boxes.Holds (Function.update owners i none)
      (Function.update content i none) := by
  obtain ⟨value, holds⟩ := holds
  cases state : s.exec.state with
  | none =>
      rw [state] at holds
      have each := holds.each i
      simp only [Function.update_self, Boxes.read_none] at each
      simp only [execDestroy, state, each]
      exact holds
  | some ptr =>
      rw [state] at holds
      have each := holds.each i
      simp only [Function.update_self] at each
      cases value with
      | none =>
          have null := holds.null i
          simp only [Function.update_self, true_implies] at null
          cases null
      | some old =>
          have held : Function.update content i (some old) i = some old := Function.update_self ..
          have freed := holds.fromRaw held
          simp only [Function.update_self, Function.update_idem] at freed
          simp only [execDestroy, state, SourceStageImpl.sdkSourceOps,
            SourceStageImpl.sdkSourceDrop, each]
          exact freed

end Step

/-- **An exported stage runs as its author means it**, for every script of its upstream and every
number of calls: its replies are those of the cursor with the author's own state. Meanwhile it uses
valid pointers only, and once it is destroyed its box is gone. -/
theorem exported_runs (codec : BsonCodec) (stage : SourceStageImpl α σ ω)
    (drops : stage.DropsQuietly) (setup : Setup) (world : ω) (source : Option Upstream)
    (frames : List Frame) :
    let ops := stage.sdkSourceOps.toSourceOps
    let last := (execGetNext codec ops).after (setup.compiled ⟨.empty, world⟩ source) frames
    RunsAs stage.requires source
        (fun ctxs => (Cursor.pull codec stage setup).outputs (.start world) ctxs)
        (fun ctxs => ((Cursor.pull codec stage setup).after (.start world) ctxs).world) frames
        ((execGetNext codec ops).outputs (setup.compiled ⟨.empty, world⟩ source) frames)
        last.hooks.world last.pulls ∧
      last.hooks.boxes.misused = false ∧
      (execDestroy ops last).1.boxes.misused = false ∧
      ∀ ptr, (execDestroy ops last).1.boxes.read ptr = none := by
  intro ops last
  have start : HoldsAt (fun _ : Unit => none) (fun _ => none) ()
      (setup.compiled (⟨.empty, world⟩ : Memory σ ω) source) := by
    refine ⟨none, ?_⟩
    have empty := Boxes.Holds.empty (σ := σ) (ι := Unit)
    simpa only [Setup.compiled, execSetSource, Stage.compiled, execAlloc,
      Function.update_eq_self] using empty
  have held : HoldsAt (fun _ : Unit => none) (fun _ => none) () last :=
    Machine.after_invariant
      (fun s frame holds => holds.operate codec drops (.getNext frame)) start frames
  have destroyed := held.destroy stage
  obtain ⟨_, holds⟩ := held
  refine ⟨runsAs_cursor codec stage drops setup world source frames, holds.sound,
    destroyed.sound, destroyed.none_live fun _ => Function.update_self ..⟩

/-- A counter, which counts down from the number of its arguments. -/
def countdown : SourceStageImpl ℕ ℕ Unit where
  name := "$countdown"
  parse := fun d => .ok d.length
  openArgs := fun n _ w => (.ok n, w)
  next := fun n _ w => ((if n = 0 then .ok .eof else .ok (.advanced [] none), n - 1), w)
  dropInPlace := fun _ w => (some (), w)

/-- A counter without an upstream, called twice. -/
theorem exported_runs_countdown :
    let codec : BsonCodec := ⟨fun _ => .ok [5, 0, 0, 0, 0], fun _ => .ok [("n", .null)]⟩
    let ops := countdown.sdkSourceOps.toSourceOps
    let last := (execGetNext codec ops).after
      (Setup.compiled ⟨[], none, none⟩ ⟨.empty, ()⟩ none) [.blank, .blank]
    last.hooks.boxes.misused = false ∧ ∀ ptr, (execDestroy ops last).1.boxes.read ptr = none := by
  intro codec ops last
  obtain ⟨-, sound, -, gone⟩ :=
    exported_runs codec countdown (fun _ _ => rfl) ⟨[], none, none⟩ () none [.blank, .blank]
  exact ⟨sound, gone⟩

/-! ## Every run -/

/-- Every live stage with a state has a box of its own with that state, no other box is live, and no
pointer that is not valid was used. -/
def Tidy (p : Cursors (Memory σ ω)) (content : Option ℕ → Option σ) : Prop :=
  p.hooks.boxes.Holds p.owners content

section Runs

variable (codec : BsonCodec) {stage : SourceStageImpl α σ ω}

/-- What is held of the live stage behind a pointer. -/
theorem Tidy.holdsAt {p : Cursors (Memory σ ω)} {content : Option ℕ → Option σ}
    (tidy : Tidy p content) {ptr : Option ℕ} {s : Stage Unit}
    (live : p.stages.read ptr = some s) : HoldsAt p.owners content ptr (s.within p.hooks) := by
  have owner : (s.within p.hooks).exec.state = p.owners ptr := by
    simp only [Cursors.owners, live]
    rfl
  refine ⟨content ptr, ?_⟩
  rw [owner, Function.update_eq_self, Function.update_eq_self]
  exact tidy

/-- **Every call of the host keeps the boxes tidy**, and the contents of the boxes of all stages but
the one it is about. -/
theorem Tidy.step (drops : stage.DropsQuietly) {p : Cursors (Memory σ ω)}
    {content : Option ℕ → Option σ} (tidy : Tidy p content) (call : HostCall) :
    ∃ content', Tidy (Cursors.operate codec stage.sdkSourceOps.toSourceOps p call).2 content' ∧
      ∀ ptr, (∀ operation, call ≠ .call ptr operation) → call ≠ .destroy ptr →
        content' ptr = content ptr := by
  cases call with
  | compile setup =>
      refine ⟨content, ?_, fun _ _ _ => rfl⟩
      unfold Tidy
      rw [Cursors.operate, Cursors.owners_compile]
      exact tidy
  | call ptr operation =>
      simp only [Cursors.operate]
      cases live : p.stages.read ptr with
      | none => exact ⟨content, tidy, fun _ _ _ => rfl⟩
      | some s =>
          obtain ⟨value, holds⟩ := (tidy.holdsAt live).operate codec drops operation
          refine ⟨Function.update content ptr value, ?_, ?_⟩
          · unfold Tidy
            simp only [Boxes.write]
            rw [Cursors.owners_set live]
            exact holds
          · intro other elsewhere _
            apply Function.update_of_ne
            rintro rfl
            exact elsewhere operation rfl
  | destroy ptr =>
      simp only [Cursors.operate]
      cases live : p.stages.read ptr with
      | none => exact ⟨content, tidy, fun _ _ _ => rfl⟩
      | some s =>
          have holds := (tidy.holdsAt live).destroy stage
          refine ⟨Function.update content ptr none, ?_, ?_⟩
          · unfold Tidy
            simp only [Boxes.fromRaw]
            rw [Cursors.owners_set live]
            exact holds
          · intro other _ elsewhere
            apply Function.update_of_ne
            rintro rfl
            exact elsewhere rfl

theorem tidy_start (world : ω) :
    Tidy (.start (⟨.empty, world⟩ : Memory σ ω)) fun _ => none := by
  have owners : (Cursors.start (⟨.empty, world⟩ : Memory σ ω)).owners = fun _ => none := by
    funext ptr
    cases ptr <;> rfl
  unfold Tidy
  rw [owners]
  exact .empty

/-- The boxes are tidy after every run. -/
theorem tidy_after (drops : stage.DropsQuietly) (world : ω) (calls : List HostCall) :
    ∃ content, Tidy ((Cursors.operate codec stage.sdkSourceOps.toSourceOps).after
      (.start ⟨.empty, world⟩) calls) content := by
  have step : ∀ (p : Cursors (Memory σ ω)) (call : HostCall), (∃ content, Tidy p content) →
      ∃ content, Tidy (Cursors.operate codec stage.sdkSourceOps.toSourceOps p call).2 content := by
    rintro p call ⟨content, tidy⟩
    obtain ⟨content', tidy', -⟩ := tidy.step codec drops call
    exact ⟨content', tidy'⟩
  exact Machine.after_invariant step ⟨_, tidy_start world⟩ calls

end Runs

/-- In a tidy process nothing was misused, every state of a live stage is in a live box, every live
box belongs to exactly one live stage, and without live stages there are no live boxes. -/
structure SharesMemory (p : Cursors (Memory σ ω)) : Prop where
  sound : p.hooks.boxes.misused = false
  live : ∀ ptr s state, p.stages.read ptr = some s → s.exec.state = some state →
    (p.hooks.boxes.read (some state)).isSome
  owned : ∀ state, (p.hooks.boxes.read state).isSome →
    ∃! ptr, ∃ s, p.stages.read ptr = some s ∧ s.exec.state = state
  released : (∀ ptr, p.stages.read ptr = none) → ∀ state, p.hooks.boxes.read state = none

theorem Tidy.sharesMemory {p : Cursors (Memory σ ω)} {content : Option ℕ → Option σ}
    (tidy : Tidy p content) : SharesMemory p where
  sound := tidy.sound
  live := by
    intro ptr s state live has
    have owner : p.owners ptr = some state := by
      simp only [Cursors.owners, live, Option.bind_some, has]
    rw [← owner, tidy.each ptr]
    cases value : content ptr with
    | some v => rfl
    | none =>
        have null := tidy.null ptr value
        rw [owner] at null
        cases null
  owned := by
    intro state live
    have here : state ≠ none := by
      rintro rfl
      simp at live
    obtain ⟨ptr, owned⟩ := tidy.owned state live
    have stageOf : ∃ s, p.stages.read ptr = some s ∧ s.exec.state = state := by
      unfold Cursors.owners at owned
      cases read : p.stages.read ptr with
      | none =>
          rw [read] at owned
          exact absurd owned.symm here
      | some s =>
          rw [read] at owned
          exact ⟨s, rfl, owned⟩
    refine ⟨ptr, stageOf, ?_⟩
    rintro other ⟨s, live', has⟩
    have owned' : p.owners other = state := by
      simp only [Cursors.owners, live', Option.bind_some, has]
    exact tidy.apart other ptr (owned'.trans owned.symm) (by rwa [owned'])
  released := by
    intro destroyed
    apply tidy.none_live
    intro ptr
    simp only [Cursors.owners, destroyed ptr, Option.bind_none]

/-- **The cursors of a process share its memory safely**, whatever the host does with how many of
them, and leave nothing behind once they are destroyed. -/
theorem cursors_share_memory (codec : BsonCodec) (stage : SourceStageImpl α σ ω)
    (drops : stage.DropsQuietly) (world : ω) (calls : List HostCall) :
    SharesMemory ((Cursors.operate codec stage.sdkSourceOps.toSourceOps).after
      (.start ⟨.empty, world⟩) calls) := by
  obtain ⟨content, tidy⟩ := tidy_after codec drops world calls
  exact tidy.sharesMemory

/-- Two counters, called in turn; the first is destroyed with its state. -/
theorem cursors_share_memory_countdown :
    SharesMemory ((Cursors.operate ⟨fun _ => .ok [5, 0, 0, 0, 0], fun _ => .ok [("n", .null)]⟩
      countdown.sdkSourceOps.toSourceOps).after (.start ⟨.empty, ()⟩)
      [.compile ⟨[], none, none⟩, .compile ⟨[], none, none⟩, .call (some 0) (.getNext .blank),
        .call (some 1) (.getNext .blank), .call (some 1) (.getNext .blank),
        .destroy (some 0)]) :=
  cursors_share_memory _ countdown (fun _ _ => rfl) () _

/-- The destructor of a state must not panic: when it does at the end of the stream, the stage keeps
a pointer whose box is gone, and destroying the stage uses it. -/
theorem finish_dangles {stage : SourceStageImpl α σ ω} {s : Stage (Memory σ ω)}
    (panics : (stage.sdkSourceOps.dropState s.exec.state s.hooks).1 = none) :
    (execDestroy stage.sdkSourceOps.toSourceOps
      (finish stage.sdkSourceOps.toSourceOps s).2).1.boxes.misused = true := by
  cases state : s.exec.state with
  | none =>
      rw [state] at panics
      cases panics
  | some ptr =>
      rw [state] at panics
      cases read : s.hooks.boxes.read (some ptr) with
      | none => simp [SourceStageImpl.sdkSourceOps, SourceStageImpl.sdkSourceDrop, read] at panics
      | some v =>
          simp only [SourceStageImpl.sdkSourceOps, SourceStageImpl.sdkSourceDrop, read] at panics
          have gone : (s.hooks.boxes.fromRaw (some ptr)).read (some ptr) = none := by
            rw [Boxes.fromRaw, Boxes.read_set (by rw [read]; rfl), if_pos rfl]
          simp only [finish, state, execDestroy, SourceStageImpl.sdkSourceOps,
            SourceStageImpl.sdkSourceDrop, read, panics, gone]
          rfl

/-! ## One cursor among others -/

/-- What the host asks of one stage, until it destroys it. -/
def operationsOn (ptr : Option ℕ) : List HostCall → List Operation
  | [] => []
  | .compile _ :: calls => operationsOn ptr calls
  | .call other operation :: calls =>
    if other = ptr then operation :: operationsOn ptr calls else operationsOn ptr calls
  | .destroy other :: calls => if other = ptr then [] else operationsOn ptr calls

/-- What the host gets from one stage, until it destroys it. -/
def repliesOf (codec : BsonCodec) (ops : SourceOps ω) (ptr : Option ℕ) :
    Cursors ω → List HostCall → List (Option Reply)
  | _, [] => []
  | p, call :: calls =>
    let (reply, next) := Cursors.operate codec ops p call
    match call with
    | .compile _ => repliesOf codec ops ptr next calls
    | .call other _ =>
      if other = ptr then reply :: repliesOf codec ops ptr next calls
      else repliesOf codec ops ptr next calls
    | .destroy other => if other = ptr then [] else repliesOf codec ops ptr next calls

/-- What the caller reads off the replies. -/
def contentsOf (replies : List (Option Reply)) : List (Option (Except Status Contents)) :=
  replies.map (Option.map Reply.contents)

section Apart

variable (codec : BsonCodec) {stage : SourceStageImpl α σ Unit}

/-- Live boxes with the same state, wherever they are. -/
def SameState (before after : StatePtr × Memory σ Unit) : Prop :=
  ∃ s, before.2.boxes.read before.1 = some s ∧ after.2.boxes.read after.1 = some s

/-- A state answers alike in any box, when the functions act on states only. -/
theorem sameState_indistinguishable (drops : stage.DropsQuietly) :
    Indistinguishable stage.sdkSourceOps.toSourceOps SameState where
  opens := by
    intro argsDoc ctx v w
    simp only [SourceStageImpl.sdkSourceOps, SourceStageImpl.sdkSourceOpen]
    cases stage.parse argsDoc with
    | error fault => exact .inl ⟨fault, rfl, rfl⟩
    | ok a =>
        simp only
        rcases stage.openArgs a ctx () with ⟨fault | s, _⟩
        · exact .inl ⟨fault, rfl, rfl⟩
        · refine .inr ⟨_, _, rfl, rfl, by simp [Boxes.intoRaw], s, ?_, ?_⟩
          · simp [Boxes.read_intoRaw]
          · simp [Boxes.read_intoRaw]
  nexts := by
    rintro p q v w ⟨s, left, right⟩ ctx
    simp only at left right
    simp only [SourceStageImpl.sdkSourceOps, SourceStageImpl.sdkSourceNext, left, right]
    refine ⟨trivial, (stage.next s ctx ()).1.2, ?_, ?_⟩
    · rw [Boxes.write, Boxes.read_set (by rw [left]; rfl), if_pos rfl]
    · rw [Boxes.write, Boxes.read_set (by rw [right]; rfl), if_pos rfl]
  drops := by
    intro p q v w _
    have quiet := SourceStageImpl.sdkSourceDrop_quiet drops
    refine ⟨(quiet p v).trans (quiet q w).symm, fun panics => ?_⟩
    have returns := (quiet p v).symm.trans panics
    cases returns

/-- The stage behind a pointer of the process is as one that was always alone. -/
structure Keeps (p : Cursors (Memory σ Unit)) (ptr : Option ℕ) (t : Stage (Memory σ Unit)) :
    Prop where
  tidy : ∃ content, Tidy p content
  alike : ∃ s, p.stages.read ptr = some s ∧ AlikeStages SameState (s.within p.hooks) t

/-- A call about another stage keeps the stage as it is. -/
theorem Keeps.elsewhere (drops : stage.DropsQuietly) {p : Cursors (Memory σ Unit)}
    {ptr : Option ℕ} {t : Stage (Memory σ Unit)} (keeps : Keeps p ptr t) (call : HostCall)
    (other : ∀ operation, call ≠ .call ptr operation) (kept : call ≠ .destroy ptr) :
    Keeps (Cursors.operate codec stage.sdkSourceOps.toSourceOps p call).2 ptr t := by
  obtain ⟨⟨content, tidy⟩, s, live, alike⟩ := keeps
  obtain ⟨content', tidy', same⟩ := tidy.step codec drops call
  have still :
      (Cursors.operate codec stage.sdkSourceOps.toSourceOps p call).2.stages.read ptr = some s := by
    cases call with
    | compile setup =>
        simp only [Cursors.operate]
        rw [Boxes.read_intoRaw, if_neg, live]
        rintro rfl
        rw [Boxes.read_fresh] at live
        cases live
    | call elsewhere operation =>
        simp only [Cursors.operate]
        cases read : p.stages.read elsewhere with
        | none => exact live
        | some u =>
            simp only [Boxes.write]
            rw [Boxes.read_set (by rw [read]; rfl), if_neg, live]
            rintro rfl
            exact other operation rfl
    | destroy elsewhere =>
        simp only [Cursors.operate]
        cases read : p.stages.read elsewhere with
        | none => exact live
        | some u =>
            simp only [Boxes.fromRaw]
            rw [Boxes.read_set (by rw [read]; rfl), if_neg, live]
            rintro rfl
            exact kept rfl
  refine ⟨⟨content', tidy'⟩, s, still, alike.mode, alike.source, alike.saw, alike.pulls,
    alike.setup, alike.generators.finished, alike.generators.null, ?_⟩
  intro opened
  -- The box of the stage has the content that it had.
  have owner : p.owners ptr = s.exec.state := by
    simp only [Cursors.owners, live, Option.bind_some]
  have owner' : (Cursors.operate codec stage.sdkSourceOps.toSourceOps p call).2.owners ptr =
      s.exec.state := by
    simp only [Cursors.owners, still, Option.bind_some]
  obtain ⟨v, before, alone⟩ := alike.generators.states opened
  refine ⟨v, ?_, alone⟩
  have each := tidy.each ptr
  have each' := tidy'.each ptr
  rw [owner] at each
  rw [owner', same ptr other kept, ← each] at each'
  exact each'.trans before

/-- A call of the stage itself gives the reply that it gives alone. -/
theorem Keeps.here (drops : stage.DropsQuietly) {p : Cursors (Memory σ Unit)}
    {ptr : Option ℕ} {t : Stage (Memory σ Unit)} (keeps : Keeps p ptr t) (operation : Operation) :
    (Cursors.operate codec stage.sdkSourceOps.toSourceOps p (.call ptr operation)).1.map
        Reply.contents =
      (SourceStage.operate codec stage.sdkSourceOps.toSourceOps t operation).1.map
        Reply.contents ∧
    Keeps (Cursors.operate codec stage.sdkSourceOps.toSourceOps p (.call ptr operation)).2 ptr
      (SourceStage.operate codec stage.sdkSourceOps.toSourceOps t operation).2 := by
  obtain ⟨⟨content, tidy⟩, s, live, alike⟩ := keeps
  obtain ⟨content', tidy', -⟩ := tidy.step codec drops (.call ptr operation)
  have written : ∀ u, (p.stages.write ptr u).read ptr = some u := by
    intro u
    rw [Boxes.write, Boxes.read_set (by rw [live]; rfl), if_pos rfl]
  have called : Cursors.operate codec stage.sdkSourceOps.toSourceOps p (.call ptr operation) =
      ((SourceStage.operate codec stage.sdkSourceOps.toSourceOps (s.within p.hooks) operation).1,
        ⟨p.stages.write ptr (SourceStage.operate codec stage.sdkSourceOps.toSourceOps
            (s.within p.hooks) operation).2.without,
          (SourceStage.operate codec stage.sdkSourceOps.toSourceOps
            (s.within p.hooks) operation).2.hooks⟩) := by
    simp only [Cursors.operate, live]
  rw [called] at tidy' ⊢
  cases operation with
  | setSource source =>
      refine ⟨rfl, ⟨content', tidy'⟩, _, written _, ?_⟩
      exact ⟨alike.mode, rfl, alike.saw, alike.pulls, alike.setup, alike.generators⟩
  | getNext frame =>
      obtain ⟨same, next⟩ := alike.step codec (sameState_indistinguishable drops) frame
      refine ⟨congrArg some same, ⟨content', tidy'⟩, _, written _, ?_⟩
      exact next

/-- A stage of the process replies as the one that is alone. -/
theorem Keeps.replies (drops : stage.DropsQuietly) {p : Cursors (Memory σ Unit)}
    {ptr : Option ℕ} {t : Stage (Memory σ Unit)} (keeps : Keeps p ptr t) (calls : List HostCall) :
    contentsOf (repliesOf codec stage.sdkSourceOps.toSourceOps ptr p calls) =
      contentsOf ((SourceStage.operate codec stage.sdkSourceOps.toSourceOps).outputs t
        (operationsOn ptr calls)) := by
  induction calls generalizing p t with
  | nil => rfl
  | cons call calls ih =>
      cases call with
      | compile setup =>
          simp only [repliesOf, operationsOn]
          exact ih (keeps.elsewhere codec drops _ (fun _ => by simp) (by simp))
      | call other operation =>
          simp only [repliesOf, operationsOn]
          by_cases here : other = ptr
          · subst here
            obtain ⟨same, next⟩ := keeps.here codec drops operation
            have rest := ih next
            simp only [contentsOf] at rest ⊢
            simp only [if_true, Machine.outputs_cons, List.map_cons, same, rest]
          · simp only [here, if_false]
            apply ih (keeps.elsewhere codec drops _ _ (by simp))
            rintro operation' same
            cases same
            exact here rfl
      | destroy other =>
          simp only [repliesOf, operationsOn]
          by_cases here : other = ptr
          · simp only [here, if_true]
            rfl
          · simp only [here, if_false]
            apply ih (keeps.elsewhere codec drops _ (fun _ => by simp) _)
            rintro same
            cases same
            exact here rfl

end Apart

/-- **Cursors do not notice each other.** When the implementation acts on its states only, a stage
that is compiled at any moment replies, until it is destroyed, what it would reply alone in a
process of its own, however its calls are interleaved with those of other stages. -/
theorem cursors_apart (codec : BsonCodec) (stage : SourceStageImpl α σ Unit)
    (drops : stage.DropsQuietly) (setup : Setup) (before after : List HostCall) :
    let machine := Cursors.operate codec stage.sdkSourceOps.toSourceOps
    let p := machine.after (.start ⟨.empty, ()⟩) before
    let ptr := (p.stages.intoRaw (setup.compiled () none)).1
    contentsOf (repliesOf codec stage.sdkSourceOps.toSourceOps ptr (machine p (.compile setup)).2
        after) =
      contentsOf ((SourceStage.operate codec stage.sdkSourceOps.toSourceOps).outputs
        (setup.compiled ⟨.empty, ()⟩ none) (operationsOn ptr after)) := by
  intro machine p ptr
  obtain ⟨content, tidy⟩ := tidy_after codec drops () before
  obtain ⟨content', tidy', -⟩ := tidy.step codec drops (.compile setup)
  apply Keeps.replies codec drops
  refine ⟨⟨content', tidy'⟩, setup.compiled () none, ?_, ?_⟩
  · simp only [machine, Cursors.operate]
    rw [Boxes.read_intoRaw, if_pos rfl]
  · exact compiled_alike setup _ _ none

/-- Two counters, whose calls are interleaved. -/
theorem cursors_apart_countdown :
    let codec : BsonCodec := ⟨fun _ => .ok [5, 0, 0, 0, 0], fun _ => .ok [("n", .null)]⟩
    let ops := countdown.sdkSourceOps.toSourceOps
    let setup : Setup := ⟨[], none, none⟩
    let machine := Cursors.operate codec ops
    let first := machine.after (.start ⟨.empty, ()⟩) [.compile setup]
    contentsOf (repliesOf codec ops (some 1) (machine first (.compile setup)).2
        [.call (some 0) (.getNext .blank), .call (some 1) (.getNext .blank),
          .call (some 0) (.getNext .blank), .call (some 1) (.getNext .blank), .destroy (some 0)]) =
      contentsOf ((SourceStage.operate codec ops).outputs (setup.compiled ⟨.empty, ()⟩ none)
        [.getNext .blank, .getNext .blank]) := by
  intro codec ops setup machine first
  exact cursors_apart codec countdown (fun _ _ => rfl) setup [.compile setup]
    [.call (some 0) (.getNext .blank), .call (some 1) (.getNext .blank),
      .call (some 0) (.getNext .blank), .call (some 1) (.getNext .blank), .destroy (some 0)]

end ExtensionSdkMongodb.SourceStage

import ExtensionSdkMongodb.SourceStage.Generator
import Mathlib.Data.List.Count

/-!
# The life of a generator's state

The record of hook calls of a source stage always tells one of three stories (`Life`): opens that
failed; opens that failed, one that succeeded, and calls of `next` on the pointer it returned;
or such a story with an end, after which the pointer was dropped. Every call of `set_source`
and `get_next` keeps the story going (`life_step`), and `destroy` finishes it.

`destroy_story` reads off the finished story what a hook author relies on: one open, `next` on
a live pointer only, nothing after the end, and one drop for the pointer.
-/

set_option autoImplicit false

namespace ExtensionSdkMongodb.SourceStage

variable {ω : Type}

/-! ## What hooks promise -/

/-- `open_from_doc` returns a box, so the pointer is never null. -/
def SourceOps.OpensBox (ops : SourceOps ω) : Prop :=
  ∀ argsDoc sctx hooks state hooks',
    ops.openFromDoc argsDoc sctx hooks = (.ok state, hooks') → ∃ ptr, state = some ptr

/-- `drop_state` returns normally. -/
def SourceOps.DropsNormally (ops : SourceOps ω) : Prop :=
  ∀ state hooks, (ops.dropState state hooks).1 = some ()

/-! ## Stories -/

/-- A call of `open_from_doc` that returned a pointer. -/
def HookCall.opened : HookCall → Bool
  | .openFromDoc (some _) => true
  | .openFromDoc none | .next .. | .dropState _ => false

/-- Opens that failed, one that returned the pointer, and calls of `next` before the end. -/
def opening (failures ptr rows : ℕ) : List HookCall :=
  .replicate failures (.openFromDoc none) ++
    .openFromDoc (some (some ptr)) :: .replicate rows (.next (some ptr) false)

/-- The story of a stage's hook calls so far, with the state it left. -/
inductive Life (s : Stage ω) : Prop where
  | unopened (failures : ℕ) (calls : s.calls = .replicate failures (.openFromDoc none))
      (state : s.exec.state = none) (working : s.exec.generatorDone = false)
  | working (failures ptr rows : ℕ) (calls : s.calls = opening failures ptr rows)
      (state : s.exec.state = some ptr) (working : s.exec.generatorDone = false)
  | ended (failures ptr rows : ℕ)
      (calls : s.calls = opening failures ptr rows ++
        [.next (some ptr) true, .dropState (some ptr)])
      (state : s.exec.state = none) (done : s.exec.generatorDone = true)

theorem opening_succ (failures ptr rows : ℕ) :
    opening failures ptr (rows + 1) = opening failures ptr rows ++ [.next (some ptr) false] := by
  rw [opening, opening, List.replicate_succ', List.append_assoc, List.cons_append]

/-- Stages with the same record, state and done flag tell the same story. -/
theorem Life.congr {s t : Stage ω} (life : Life s) (calls : t.calls = s.calls)
    (state : t.exec.state = s.exec.state)
    (done : t.exec.generatorDone = s.exec.generatorDone) : Life t := by
  cases life with
  | unopened failures told null working =>
      exact .unopened failures (calls.trans told) (state.trans null) (done.trans working)
  | working failures ptr rows told held working =>
      exact .working failures ptr rows (calls.trans told) (state.trans held) (done.trans working)
  | ended failures ptr rows told null finished =>
      exact .ended failures ptr rows (calls.trans told) (state.trans null) (done.trans finished)

/-! ## One call -/

section Step

variable (codec : BsonCodec) {ops : SourceOps ω}

/-- Opening the state ends with a pointer, or with one more failure. -/
theorem openState_life (opensBox : ops.OpensBox) (argsDoc : Document) {s : Stage ω} (life : Life s)
    (working : s.exec.generatorDone = false) :
    Life (openState ops argsDoc s).2 ∧
      ((openState ops argsDoc s).1 = .ok () →
        ∃ failures ptr rows, (openState ops argsDoc s).2.calls = opening failures ptr rows ∧
          (openState ops argsDoc s).2.exec.state = some ptr ∧
          (openState ops argsDoc s).2.exec.generatorDone = false) := by
  cases life with
  | unopened failures told null _ =>
      simp only [openState, null]
      rcases answer : ops.openFromDoc argsDoc (StageContext.new.bindCatalog s.exec.catalog) s.hooks
        with ⟨fault | state, hooks⟩
      · refine ⟨.unopened (failures + 1) ?_ null working, fun opened => by cases opened⟩
        simp only [told, List.replicate_succ']
      · obtain ⟨ptr, rfl⟩ := opensBox _ _ _ _ _ answer
        have calls : s.calls ++ [.openFromDoc (some (some ptr))] = opening failures ptr 0 := by
          rw [told]
          rfl
        exact ⟨.working failures ptr 0 calls rfl working,
          fun _ => ⟨failures, ptr, 0, calls, rfl, working⟩⟩
  | working failures ptr rows told held _ =>
      have kept : openState ops argsDoc s = (.ok (), s) := by simp [openState, held]
      rw [kept]
      exact ⟨.working failures ptr rows told held working,
        fun _ => ⟨failures, ptr, rows, told, held, working⟩⟩
  | ended _ _ _ _ _ done => simp [working] at done

theorem writeRow_story (document : Document) (metadata : Option Document) (s : Stage ω) :
    (writeRow codec document metadata s).2.calls = s.calls ∧
      (writeRow codec document metadata s).2.exec = s.exec := by
  obtain ⟨_, _, heap, stage⟩ := writeRow_shows codec document metadata s
  rw [stage]
  exact ⟨rfl, rfl⟩

/-- What `next` returned, delivered: a row and a failure lengthen the story by the call of `next`,
and the end finishes it. -/
theorem deliver_life (drops : ops.DropsNormally) (queryCtx : Option ℕ) {s : Stage ω}
    {failures ptr rows : ℕ} (told : s.calls = opening failures ptr rows)
    (held : s.exec.state = some ptr) (working : s.exec.generatorDone = false) :
    Life (deliver codec ops (callNext ops queryCtx s).1 (callNext ops queryCtx s).2).2 := by
  have called : callNext ops queryCtx s =
      ((ops.next (some ptr) (s.setup.nextContext queryCtx) s.hooks).1,
        { s with
          hooks := (ops.next (some ptr) (s.setup.nextContext queryCtx) s.hooks).2
          calls := opening failures ptr rows ++ [.next (some ptr)
            (returnedEof (ops.next (some ptr) (s.setup.nextContext queryCtx) s.hooks).1)] }) := by
    rw [← told, ← held]
    rfl
  rw [called]
  generalize ops.next (some ptr) _ s.hooks = answer
  obtain ⟨outcome, hooks⟩ := answer
  rcases outcome with fault | (⟨document, metadata⟩ | _)
  · exact .working failures ptr (rows + 1) (opening_succ ..).symm held working
  · simp only [deliver]
    obtain ⟨calls, exec⟩ := writeRow_story codec document metadata
      { s with hooks, calls := opening failures ptr rows ++ [.next (some ptr) false] }
    refine .working failures ptr (rows + 1) ?_ ?_ ?_
    · rw [opening_succ]
      exact calls
    · exact (congrArg ExecObj.state exec).trans held
    · exact (congrArg ExecObj.generatorDone exec).trans working
  · simp only [deliver, finish, held]
    have dropped := drops (some ptr) hooks
    rcases answer : ops.dropState (some ptr) hooks with ⟨_ | _, hooks'⟩
    · simp [answer] at dropped
    · exact .ended failures ptr rows (List.append_assoc ..) rfl rfl

theorem getNextGenerator_life (opensBox : ops.OpensBox) (drops : ops.DropsNormally)
    (queryCtx : Option ℕ) (res : GetNextResult) {s : Stage ω} (life : Life s) :
    Life (getNextGenerator codec ops queryCtx res s).2 := by
  unfold getNextGenerator
  cases working : s.exec.generatorDone with
  | true => exact life
  | false =>
      simp only [Bool.false_eq_true, if_false, generate, runHooks]
      cases codec.decode s.exec.args with
      | error e => exact life
      | ok argsDoc =>
          obtain ⟨story, opened⟩ := openState_life opensBox argsDoc life working
          simp only
          generalize openState ops argsDoc s = answer at story opened ⊢
          obtain ⟨outcome, s'⟩ := answer
          cases outcome with
          | error fault => exact story
          | ok _ =>
              obtain ⟨failures, ptr, rows, told, held, working'⟩ := opened rfl
              exact deliver_life codec drops queryCtx told held working'

/-- **Every call of `get_next` keeps the story going.** -/
theorem execGetNext_life (opensBox : ops.OpensBox) (drops : ops.DropsNormally) {s : Stage ω}
    (frame : Frame) (life : Life s) : Life (execGetNext codec ops s frame).2 := by
  rw [execGetNext_eq]
  cases route ops s frame with
  | refused => exact life
  | silent => exact life
  | forward up =>
      exact life.congr (calls_forwarded s up) (state_forwarded s up) (generatorDone_forwarded s up)
  | generate res pulls =>
      exact getNextGenerator_life codec opensBox drops frame.queryCtx res (life.congr rfl rfl rfl)

end Step

/-! ## Whole lives -/

/-- What the host does with a stage before it destroys it. -/
inductive Operation where
  | setSource (source : Option Upstream)
  | getNext (frame : Frame)

/-- A stage as a machine over the host's operations; only `get_next` replies. -/
def operate (codec : BsonCodec) (ops : SourceOps ω) : Machine (Stage ω) Operation (Option Reply) :=
  fun s operation =>
    match operation with
    | .setSource source => (none, execSetSource s source)
    | .getNext frame =>
      ((some (execGetNext codec ops s frame).1), (execGetNext codec ops s frame).2)

/-- The hook calls of a whole life: any operations, then `destroy`. -/
def lifeCalls (codec : BsonCodec) (ops : SourceOps ω) (exec : ExecObj) (hooks : ω)
    (operations : List Operation) : List HookCall :=
  (execDestroy ops ((operate codec ops).after (.compiled exec hooks) operations)).2

theorem life_step (codec : BsonCodec) {ops : SourceOps ω} (opensBox : ops.OpensBox)
    (drops : ops.DropsNormally) (s : Stage ω) (operation : Operation) (life : Life s) :
    Life (operate codec ops s operation).2 := by
  cases operation with
  | setSource source => exact life.congr rfl rfl rfl
  | getNext frame => exact execGetNext_life codec opensBox drops frame life

/-- A finished story: no open succeeded, or the pointer was used and dropped. -/
inductive Story : List HookCall → Prop where
  | unopened (failures : ℕ) : Story (.replicate failures (.openFromDoc none))
  | closed (failures ptr rows : ℕ) (ended : Bool) :
      Story (opening failures ptr rows ++
        ((if ended then [.next (some ptr) true] else []) ++ [.dropState (some ptr)]))

/-- **Every life tells a finished story.** -/
theorem lifeCalls_story (codec : BsonCodec) {ops : SourceOps ω} (opensBox : ops.OpensBox)
    (drops : ops.DropsNormally) (args : Bytes) (catalog : Option CatalogContext)
    (metrics : Option ℕ) (hooks : ω) (operations : List Operation) :
    Story (lifeCalls codec ops { execAlloc args catalog with metrics } hooks operations) := by
  have life : Life ((operate codec ops).after
      (.compiled { execAlloc args catalog with metrics } hooks) operations) :=
    Machine.after_invariant (life_step codec opensBox drops) (.unopened 0 rfl rfl rfl) operations
  unfold lifeCalls execDestroy
  cases life with
  | unopened failures told null _ =>
      rw [null]
      exact told ▸ .unopened failures
  | working failures ptr rows told held _ =>
      rw [held]
      exact told ▸ .closed failures ptr rows false
  | ended failures ptr rows told null _ =>
      rw [null]
      exact told ▸ .closed failures ptr rows true

/-! ## What a finished story guarantees -/

/-- What the authors of hooks rely on, of the calls of a whole life. -/
structure UsedOnce (calls : List HookCall) : Prop where
  /-- At most one open succeeds. -/
  opens : calls.countP HookCall.opened ≤ 1
  /-- `next` is called on the pointer that open returned, before it is dropped. -/
  live : ∀ before state eof after, calls = before ++ .next state eof :: after →
    .openFromDoc (some state) ∈ before ∧ .dropState state ∉ before
  /-- After the end neither `open` nor `next` is called. -/
  silent : ∀ before state after, calls = before ++ .next state true :: after →
    ∀ call ∈ after, ∃ dropped, call = .dropState dropped
  /-- The pointer that open returned is dropped exactly once. -/
  drops : ∀ state, .openFromDoc (some state) ∈ calls → calls.count (.dropState state) = 1

theorem usedOnce_unopened (failures : ℕ) :
    UsedOnce (.replicate failures (.openFromDoc none)) where
  opens := by simp [List.countP_replicate, HookCall.opened]
  live := by
    intro before state eof after split
    have mem : HookCall.next state eof ∈ List.replicate failures (HookCall.openFromDoc none) := by
      simp [split]
    cases (List.mem_replicate.mp mem).2
  silent := by
    intro before state after split
    have mem : HookCall.next state true ∈ List.replicate failures (HookCall.openFromDoc none) := by
      simp [split]
    cases (List.mem_replicate.mp mem).2
  drops := by
    intro state mem
    cases (List.mem_replicate.mp mem).2

/-- A member behind the first elements of a list, none of which it is, is split off behind them. -/
theorem split_behind {α : Type} {xs ys before after : List α} {y a : α} (notMem : a ∉ xs)
    (ne : a ≠ y)
    (split : xs ++ y :: ys = before ++ a :: after) :
    ∃ between, before = xs ++ y :: between ∧ ys = between ++ a :: after := by
  rcases List.append_eq_append_iff.mp split with ⟨between, rfl, rest⟩ | ⟨between, rfl, rest⟩
  · cases between with
    | nil =>
        rw [List.nil_append, List.cons.injEq] at rest
        exact absurd rest.1.symm ne
    | cons b between =>
        rw [List.cons_append, List.cons.injEq] at rest
        exact ⟨between, by rw [rest.1], rest.2⟩
  · cases between with
    | nil =>
        rw [List.nil_append, List.cons.injEq] at rest
        exact absurd rest.1 ne
    | cons b between =>
        rw [List.cons_append, List.cons.injEq] at rest
        rw [← rest.1] at notMem
        simp at notMem

/-- Nothing stands behind the last element of a list whose others differ from it. -/
theorem notMem_before_last {α : Type} {init before after : List α} {last a : α}
    (notMem : last ∉ init) (split : init ++ [last] = before ++ a :: after) : last ∉ before := by
  intro mem
  obtain ⟨front, back, rfl⟩ := List.append_of_mem mem
  rw [List.append_assoc, List.cons_append] at split
  obtain ⟨_, _, rest⟩ := (List.append_cons_inj_of_notMem notMem (List.not_mem_nil)).mp split
  simp at rest

theorem usedOnce_closed (failures ptr rows : ℕ) (ended : Bool) :
    UsedOnce (opening failures ptr rows ++
      ((if ended then [.next (some ptr) true] else []) ++ [.dropState (some ptr)])) where
  opens := by
    cases ended <;> simp [opening, List.countP_cons, List.countP_replicate, HookCall.opened]
  live := by
    intro before state eof after split
    rw [opening, List.append_assoc, List.cons_append, ← List.append_assoc] at split
    obtain ⟨between, rfl, rest⟩ := split_behind (by simp) (by simp) split
    have mem : HookCall.next state eof ∈ between ++ .next state eof :: after := by simp
    rw [← rest] at mem
    have same : state = some ptr := by
      cases ended <;> simp at mem <;> tauto
    subst same
    have undropped : HookCall.dropState (some ptr) ∉ between :=
      notMem_before_last (by cases ended <;> simp) rest
    refine ⟨by simp, ?_⟩
    simp [undropped]
  silent := by
    intro before state after split
    rw [opening, List.append_assoc, List.cons_append] at split
    obtain ⟨between, rfl, rest⟩ := split_behind (by simp) (by simp) split
    have mem : HookCall.next state true ∈ between ++ .next state true :: after := by simp
    rw [← rest] at mem
    cases ended with
    | false => simp at mem
    | true =>
        obtain rfl : state = some ptr := by simpa using mem
        obtain ⟨_, _, rfl⟩ :=
          (List.append_cons_inj_of_notMem (by simp) (by simp)).mp rest
        intro call last
        exact ⟨some ptr, List.mem_singleton.mp last⟩
  drops := by
    intro state mem
    have same : state = some ptr := by
      cases ended <;> simpa [opening] using mem
    subst same
    cases ended <;> simp [opening, List.count_replicate]

theorem Story.usedOnce {calls : List HookCall} (story : Story calls) : UsedOnce calls := by
  cases story with
  | unopened failures => exact usedOnce_unopened failures
  | closed failures ptr rows ended => exact usedOnce_closed failures ptr rows ended

/-- **The state pointer of a source stage is opened, used and dropped once**, in every life of
the stage: whatever the host does before it destroys it, and whichever calls of the hooks fail
or panic. -/
theorem destroy_story (codec : BsonCodec) (ops : SourceOps ω) (args : Bytes)
    (catalog : Option CatalogContext) (metrics : Option ℕ) (hooks : ω)
    (operations : List Operation) (opensBox : ops.OpensBox) (drops : ops.DropsNormally) :
    UsedOnce (lifeCalls codec ops { execAlloc args catalog with metrics } hooks operations) := by
  exact (lifeCalls_story codec opensBox drops args catalog metrics hooks operations).usedOnce

/-- A table whose first open fails, and whose generator has one row. -/
def failingOnce : SourceOps ℕ where
  openFromDoc := fun _ _ clock =>
    if clock = 0 then (.error .panic, 1) else (.ok (some 7), clock + 1)
  dropState := fun _ clock => (some (), clock)
  next := fun _ _ clock =>
    if clock = 2 then (.ok (.advanced [] none), 3) else (.ok .eof, clock + 1)
  staticPropertiesDoc := some []

theorem destroy_story_failingOnce :
    let codec : BsonCodec := ⟨fun _ => .ok [5, 0, 0, 0, 0], fun _ => .ok []⟩
    let operations : List Operation :=
      [.setSource none, .getNext .blank, .getNext .blank, .getNext .blank, .getNext .blank]
    lifeCalls codec failingOnce (execAlloc [] none) 0 operations =
        [.openFromDoc none, .openFromDoc (some (some 7)), .next (some 7) false,
          .next (some 7) true, .dropState (some 7)] ∧
      UsedOnce (lifeCalls codec failingOnce (execAlloc [] none) 0 operations) := by
  intro codec operations
  refine ⟨by decide, destroy_story codec failingOnce [] none none 0 operations ?_ ?_⟩
  · intro argsDoc sctx clock state clock' opened
    simp only [failingOnce] at opened
    split at opened
    · cases opened
    · cases opened
      exact ⟨7, rfl⟩
  · intro state clock
    rfl

end ExtensionSdkMongodb.SourceStage

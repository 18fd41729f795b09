import ExtensionSdkMongodb.SourceStage.Generator

/-!
# Deterministic hooks

The hooks of a stage are deterministic when what a state answers depends only on how it was opened
and what it was asked since (`Deterministic`). The tables exported from the functions of a
`SourceStage` implementation are (`exportSourceStage_deterministic`): each state is a box of its
own, so two boxes with the same content answer alike wherever they are.

Generators over deterministic hooks that agree on having a state and on having ended yield the same
pulls (`Alike.pull`). A reply of the executable stage is the pull over the caller's slots
(`getNextGenerator_contents`).
-/

set_option autoImplicit false

namespace ExtensionSdkMongodb.SourceStage

/-! ## Deterministic tables -/

section Deterministic

variable {ω : Type}

/-- The hooks do not tell related states apart, and two openings with the same arguments fail
alike or give related states, whatever the worlds they happen in. -/
structure Indistinguishable (ops : SourceOps ω) (same : StatePtr × ω → StatePtr × ω → Prop) :
    Prop where
  opens : ∀ argsDoc ctx v w,
    (∃ fault, (ops.openFromDoc argsDoc ctx v).1 = .error fault ∧
      (ops.openFromDoc argsDoc ctx w).1 = .error fault) ∨
    ∃ p q, (ops.openFromDoc argsDoc ctx v).1 = .ok p ∧ (ops.openFromDoc argsDoc ctx w).1 = .ok q ∧
      (p = none ↔ q = none) ∧
      same (p, (ops.openFromDoc argsDoc ctx v).2) (q, (ops.openFromDoc argsDoc ctx w).2)
  nexts : ∀ {p q v w}, same (p, v) (q, w) → ∀ ctx,
    (ops.next p ctx v).1 = (ops.next q ctx w).1 ∧
      same (p, (ops.next p ctx v).2) (q, (ops.next q ctx w).2)
  drops : ∀ {p q v w}, same (p, v) (q, w) →
    (ops.dropState p v).1 = (ops.dropState q w).1 ∧
      ((ops.dropState p v).1 = none → same (p, (ops.dropState p v).2) (q, (ops.dropState q w).2))

/-- What a state answers depends on its opening and its calls only. -/
def Deterministic (ops : SourceOps ω) : Prop := ∃ same, Indistinguishable ops same

end Deterministic

/-! ## Tables of exported stages -/

section Export

variable {α σ : Type}

/-- The functions of a `SourceStage` implementation with arguments `α` and states `σ`. -/
structure StageFunctions (α σ : Type) where
  parse : Document → HookOutcome ExtensionError α
  openArgs : α → StageContext → HookOutcome ExtensionError σ
  next : σ → StageContext → HookOutcome ExtensionError Next × σ
  properties : Option Document

/-- The content of the live box behind a pointer. -/
def unboxed (boxes : List (Option σ)) (ptr : StatePtr) : Option σ :=
  ptr.bind fun i => boxes[i]?.join

/-- `__sdk_source_open`. -/
def sdkSourceOpen (stage : StageFunctions α σ) (d : Document) (ctx : StageContext)
    (boxes : List (Option σ)) : HookOutcome ExtensionError StatePtr × List (Option σ) :=
  match stage.parse d >>= fun a => stage.openArgs a ctx with
  | .error fault => (.error fault, boxes)
  | .ok s => (.ok (some boxes.length), boxes ++ [some s])

/-- `__sdk_source_next`. -/
def sdkSourceNext (stage : StageFunctions α σ) (ptr : StatePtr) (ctx : StageContext)
    (boxes : List (Option σ)) : HookOutcome ExtensionError Next × List (Option σ) :=
  match ptr, unboxed boxes ptr with
  | some i, some s => ((stage.next s ctx).1, boxes.set i (some (stage.next s ctx).2))
  -- A pointer to no live box: no caller asks it.
  | _, _ => (.error .panic, boxes)

/-- `__sdk_source_drop`. -/
def sdkSourceDrop (ptr : StatePtr) (boxes : List (Option σ)) : Option Unit × List (Option σ) :=
  match ptr with
  | none => (some (), boxes)
  | some i => (some (), boxes.set i none)

/-- `export_source_stage!`, the hooks of its table. -/
def exportSourceStage (stage : StageFunctions α σ) : SourceOps (List (Option σ)) where
  openFromDoc := sdkSourceOpen stage
  dropState := sdkSourceDrop
  next := sdkSourceNext stage
  staticPropertiesDoc := stage.properties

theorem unboxed_append (boxes : List (Option σ)) (s : σ) :
    unboxed (boxes ++ [some s]) (some boxes.length) = some s := by
  simp [unboxed]

theorem unboxed_set {boxes : List (Option σ)} {i : ℕ} {s : σ}
    (live : unboxed boxes (some i) = some s) (t : σ) :
    unboxed (boxes.set i (some t)) (some i) = some t := by
  have lt : i < boxes.length := by
    by_contra beyond
    simp [unboxed, List.getElem?_eq_none (Nat.not_lt.mp beyond)] at live
  simp [unboxed, lt]

/-- A call of `next` on a live box changes that box only. -/
theorem sdkSourceNext_of_live (stage : StageFunctions α σ) {boxes : List (Option σ)}
    {ptr : StatePtr} {s : σ} (live : unboxed boxes ptr = some s) (ctx : StageContext) :
    (sdkSourceNext stage ptr ctx boxes).1 = (stage.next s ctx).1 ∧
      unboxed (sdkSourceNext stage ptr ctx boxes).2 ptr = some (stage.next s ctx).2 := by
  cases ptr with
  | none => cases live
  | some i =>
      simp only [sdkSourceNext, live]
      exact ⟨trivial, unboxed_set live _⟩

/-- **Exported stages are deterministic.** -/
theorem exportSourceStage_deterministic (stage : StageFunctions α σ) :
    Deterministic (exportSourceStage stage) := by
  refine ⟨fun before after => ∃ s, unboxed before.2 before.1 = some s ∧
    unboxed after.2 after.1 = some s, ?_, ?_, ?_⟩
  · intro argsDoc ctx v w
    cases opened : stage.parse argsDoc >>= fun a => stage.openArgs a ctx with
    | error fault =>
        left
        refine ⟨fault, ?_, ?_⟩ <;> simp only [exportSourceStage, sdkSourceOpen, opened]
    | ok s =>
        right
        refine ⟨some v.length, some w.length, ?_, ?_, by simp, s, ?_, ?_⟩
        · simp only [exportSourceStage, sdkSourceOpen, opened]
        · simp only [exportSourceStage, sdkSourceOpen, opened]
        · simp only [exportSourceStage, sdkSourceOpen, opened]
          exact unboxed_append v s
        · simp only [exportSourceStage, sdkSourceOpen, opened]
          exact unboxed_append w s
  · rintro p q v w ⟨s, left, right⟩ ctx
    obtain ⟨answer, content⟩ := sdkSourceNext_of_live stage left ctx
    obtain ⟨answer', content'⟩ := sdkSourceNext_of_live stage right ctx
    exact ⟨answer.trans answer'.symm, _, content, content'⟩
  · rintro p q v w ⟨s, left, right⟩
    have dropped : ∀ ptr (boxes : List (Option σ)), (sdkSourceDrop ptr boxes).1 = some () := by
      intro ptr boxes
      cases ptr <;> rfl
    refine ⟨(dropped p v).trans (dropped q w).symm, ?_⟩
    intro panics
    have returns := dropped p v
    rw [show (sdkSourceDrop p v).1 = none from panics] at returns
    cases returns

end Export

/-! ## Generators that pull alike -/

section Generators

variable {ω : Type}

/-- Two generators with related states, opened or not. -/
structure Level (same : StatePtr × ω → StatePtr × ω → Prop) (g h : Generator ω) : Prop where
  finished : g.finished = h.finished
  null : g.state = none ↔ h.state = none
  states : same (g.state, g.hooks) (h.state, h.hooks)

/-- Two generators that agree on having ended and on having a state, with related states if they
have. -/
structure Alike (same : StatePtr × ω → StatePtr × ω → Prop) (g h : Generator ω) : Prop where
  finished : g.finished = h.finished
  null : g.state = none ↔ h.state = none
  states : g.state ≠ none → same (g.state, g.hooks) (h.state, h.hooks)

/-- Generators without a state are alike. -/
theorem Alike.unopened (same : StatePtr × ω → StatePtr × ω → Prop) {g h : Generator ω}
    (finished : g.finished = h.finished) (first : g.state = none) (second : h.state = none) :
    Alike same g h :=
  ⟨finished, iff_of_true first second, fun opened => absurd first opened⟩

theorem Level.alike {same : StatePtr × ω → StatePtr × ω → Prop} {g h : Generator ω}
    (level : Level same g h) : Alike same g h :=
  ⟨level.finished, level.null, fun _ => level.states⟩

variable (codec : BsonCodec) {ops : SourceOps ω} (setup : Setup)
variable {same : StatePtr × ω → StatePtr × ω → Prop}

/-- Alike generators open alike: both fail and stay alike, or both have related states. -/
theorem Alike.opened (answers : Indistinguishable ops same) {g h : Generator ω}
    (alike : Alike same g h) (argsDoc : Document) :
    (∃ fault, (g.opened ops setup argsDoc).1 = .error fault ∧
      (h.opened ops setup argsDoc).1 = .error fault ∧
        Alike same (g.opened ops setup argsDoc).2 (h.opened ops setup argsDoc).2) ∨
    ((g.opened ops setup argsDoc).1 = .ok () ∧ (h.opened ops setup argsDoc).1 = .ok () ∧
      Level same (g.opened ops setup argsDoc).2 (h.opened ops setup argsDoc).2) := by
  obtain ⟨state, finished, hooks⟩ := g
  obtain ⟨state', finished', hooks'⟩ := h
  obtain ⟨ended, null, states⟩ := alike
  simp only at ended null states
  cases state with
  | some ptr =>
      cases state' with
      | none => exact absurd (null.mpr rfl) (by simp)
      | some ptr' =>
          right
          exact ⟨rfl, rfl, ended, null, states (by simp)⟩
  | none =>
      obtain rfl : state' = none := null.mp rfl
      simp only [Generator.opened]
      rcases answers.opens argsDoc setup.openContext hooks hooks' with
        ⟨fault, failed, failed'⟩ | ⟨p, q, returned, returned', null', related⟩
      · left
        rcases first : ops.openFromDoc argsDoc setup.openContext hooks with ⟨outcome, v⟩
        rcases second : ops.openFromDoc argsDoc setup.openContext hooks' with ⟨outcome', w⟩
        simp only [first, second] at failed failed'
        subst failed failed'
        exact ⟨fault, rfl, rfl, .unopened same ended rfl rfl⟩
      · right
        rcases first : ops.openFromDoc argsDoc setup.openContext hooks with ⟨outcome, v⟩
        rcases second : ops.openFromDoc argsDoc setup.openContext hooks' with ⟨outcome', w⟩
        simp only [first, second] at returned returned' related
        subst returned returned'
        exact ⟨rfl, rfl, ended, null', related⟩

/-- Alike generators get the same answer of their hooks, and stay alike; where `next` answered,
they have related states. -/
theorem Alike.runHooks (answers : Indistinguishable ops same) {g h : Generator ω}
    (alike : Alike same g h) (queryCtx : Option ℕ) :
    (g.runHooks codec ops setup queryCtx).1 = (h.runHooks codec ops setup queryCtx).1 ∧
      Alike same (g.runHooks codec ops setup queryCtx).2 (h.runHooks codec ops setup queryCtx).2 ∧
      ∀ out, (g.runHooks codec ops setup queryCtx).1 = .ok out →
        Level same (g.runHooks codec ops setup queryCtx).2
          (h.runHooks codec ops setup queryCtx).2 := by
  simp only [Generator.runHooks]
  cases codec.decode setup.args with
  | error e => exact ⟨rfl, alike, fun _ returned => by cases returned⟩
  | ok argsDoc =>
      simp only
      have opened := alike.opened setup answers argsDoc
      generalize g.opened ops setup argsDoc = first at opened ⊢
      generalize h.opened ops setup argsDoc = second at opened ⊢
      obtain ⟨outcome, g'⟩ := first
      obtain ⟨outcome', h'⟩ := second
      rcases opened with ⟨fault, rfl, rfl, alike'⟩ | ⟨rfl, rfl, level⟩
      · exact ⟨rfl, alike', fun _ returned => by cases returned⟩
      · obtain ⟨answer, states⟩ := answers.nexts level.states (setup.nextContext queryCtx)
        have next : Level same
            { g' with hooks := (ops.next g'.state (setup.nextContext queryCtx) g'.hooks).2 }
            { h' with hooks := (ops.next h'.state (setup.nextContext queryCtx) h'.hooks).2 } :=
          ⟨level.finished, level.null, states⟩
        exact ⟨answer, next.alike, fun _ _ => next⟩

/-- Generators with related states deliver the same and stay alike. -/
theorem Level.deliver (answers : Indistinguishable ops same) {g h : Generator ω}
    (level : Level same g h) (out : Next) :
    (g.deliver codec ops (.ok out)).1 = (h.deliver codec ops (.ok out)).1 ∧
      Alike same (g.deliver codec ops (.ok out)).2 (h.deliver codec ops (.ok out)).2 := by
  cases out with
  | advanced document metadata =>
      simp only [Generator.deliver]
      cases encodeRow codec document metadata with
      | error e => exact ⟨rfl, level.alike⟩
      | ok contents => exact ⟨rfl, level.alike⟩
  | eof =>
      obtain ⟨dropped, kept⟩ := answers.drops level.states
      simp only [Generator.deliver]
      rcases first : ops.dropState g.state g.hooks with ⟨outcome, v⟩
      rcases second : ops.dropState h.state h.hooks with ⟨outcome', w⟩
      simp only [first, second] at dropped kept
      subst dropped
      cases outcome with
      | none => exact ⟨rfl, level.finished, level.null, fun _ => kept rfl⟩
      | some _ => exact ⟨rfl, .unopened same rfl rfl rfl⟩

/-- **Alike generators yield the same pull and stay alike.** -/
theorem Alike.pull (answers : Indistinguishable ops same) {g h : Generator ω}
    (alike : Alike same g h) (queryCtx : Option ℕ) :
    (Generator.pull codec ops setup g queryCtx).1 =
        (Generator.pull codec ops setup h queryCtx).1 ∧
      Alike same (Generator.pull codec ops setup g queryCtx).2
        (Generator.pull codec ops setup h queryCtx).2 := by
  simp only [Generator.pull, ← alike.finished]
  cases g.finished with
  | true => exact ⟨rfl, alike⟩
  | false =>
      simp only [Bool.false_eq_true, if_false]
      obtain ⟨outcome, alike', level⟩ := alike.runHooks codec setup answers queryCtx
      generalize g.runHooks codec ops setup queryCtx = first at outcome alike' level ⊢
      generalize h.runHooks codec ops setup queryCtx = second at outcome alike' level ⊢
      obtain ⟨answer, g'⟩ := first
      obtain ⟨answer', h'⟩ := second
      obtain rfl : answer = answer' := outcome
      cases answer with
      | error fault => exact ⟨rfl, alike'⟩
      | ok out => exact (level out rfl).deliver codec answers out

end Generators

/-! ## Pulls over slots -/

section Slots

variable {ω : Type}

/-- What a caller reads of a pull over these slots: a failure's status counts as success when it
has that code, and then the slots are as they were. -/
def shownOver (res : GetNextResult) : Except Status Contents → Except Status Contents
  | .error status => (⟨status, res⟩ : Reply).contents
  | .ok contents => .ok contents

variable (codec : BsonCodec) (ops : SourceOps ω)

theorem deliver_contents (outcome : HookOutcome ExtensionError Next) (res : GetNextResult)
    (s : Stage ω) :
    (closureReply res (deliver codec ops outcome s).1).contents =
      shownOver res (s.generator.deliver codec ops outcome).1 := by
  rcases outcome with fault | (⟨document, metadata⟩ | _)
  · rfl
  · obtain ⟨written, failed, -⟩ := writeRow_shows codec document metadata s
    simp only [deliver, Generator.deliver]
    rcases row : (writeRow codec document metadata s).1 with fault | result
    · obtain ⟨e, rfl, encoded⟩ := failed fault row
      rw [encoded]
      rfl
    · rw [written result row]
      rfl
  · have state : s.generator.state = s.exec.state := rfl
    have hooks : s.generator.hooks = s.hooks := rfl
    simp only [deliver, finish, Generator.deliver, state, hooks]
    rcases ops.dropState s.exec.state s.hooks with ⟨_ | _, hooks⟩
    · rfl
    · rfl

/-- **A generating call replies with the pull of the stage's generator, over the slots.** -/
theorem getNextGenerator_contents (queryCtx : Option ℕ) (res : GetNextResult) (s : Stage ω) :
    (getNextGenerator codec ops queryCtx res s).1.contents =
      shownOver res (Generator.pull codec ops s.setup s.generator queryCtx).1 := by
  have finished : s.generator.finished = s.exec.generatorDone := rfl
  simp only [getNextGenerator, Generator.pull, finished]
  cases s.exec.generatorDone with
  | true => rfl
  | false =>
      obtain ⟨outcome, generator, -⟩ := runHooks_pull codec ops queryCtx s
      simp only [Bool.false_eq_true, if_false, generate]
      rw [deliver_contents, outcome, generator]

end Slots

end ExtensionSdkMongodb.SourceStage

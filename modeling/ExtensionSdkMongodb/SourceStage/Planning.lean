import ExtensionSdkMongodb.DistributedPlan.Building
import ExtensionSdkMongodb.SourceStage.Nodes
import ExtensionSdkMongodb.SourceStage.Refinement

/-!
# Distributed planning of a source

The planner clones logical stages and asks them for distributed plans, whose merger holds a clone of
the stage it was asked of. That clone is marked, so that the merger is not planned again, and a
clone carries the mark on. `Descends` is every stage such a chain of calls can lead to from a bound
stage.

`descends_plans` says what each of them is: its arguments and catalog are those of the bound stage,
a stage of a merger yields no plan, and the others yield one when the hook returns a suffix that can
be planned (`Plannable`). A plan suppresses the shards exactly when the stage, once compiled, asks
no upstream.
-/

set_option autoImplicit false

namespace ExtensionSdkMongodb.SourceStage

open DistributedPlan (Host World Plan Accepts buildMerger sourceNode parseNode singleOperator
  constantFalse requested buildMerger_ok_iff buildMerger_shards)

variable {ω : Type}

/-! ## Plans and executable stages of a logical stage -/

/-- A plan with the logical stage behind the source of its merger, and the nodes made for it. -/
structure Planned where
  plan : Plan
  source : LogicalObj
  world : World

section Functions

variable (codec : BsonCodec) (table : SourceTable ω)

/-- The closure of `log_dpl`. -/
def planOf (host : Host) (l : LogicalObj) : HookOutcome ExtensionError (Option Planned) :=
  if l.planApplied then .ok none
  else
    match table.mergingPipeline with
    | none => .ok none
    | some hook => do
      let args ← attempt ((codec.decode l.args).mapError .failedToParse)
      match ← hook args l.catalog with
      | none => return none
      | some suffix =>
        let cloned := { logicalAlloc l.args l.catalog with planApplied := true }
        match requiresInput table.toSourceOps with
        | none => .error .panic
        | some required =>
          match buildMerger host (some sourceNode) suffix (!required) .start with
          | (.error e, _) => .error (.error e)
          | (.ok plan, world) => return some ⟨plan, cloned, world⟩

/-- `log_dpl`. -/
def logDpl (host : Host) (l : LogicalObj) : Delivery Planned :=
  let delivery :=
    Reporting.typed.deliver "panic during distributed planning" (planOf codec table host l)
  ⟨delivery.status, delivery.out.join⟩

end Functions

/-- `log_compile`. -/
def logCompile (l : LogicalObj) : Delivery ExecObj := ⟨statusOk, some (execAlloc l.args l.catalog)⟩

/-! ## Chains of calls -/

/-- The stages that clones and plans lead to from a bound stage. The mark says whether the stage
descends from the source of a plan's merger. -/
inductive Descends (codec : BsonCodec) (table : SourceTable ω) (bound : LogicalObj) :
    Bool → LogicalObj → Prop where
  | bound : Descends codec table bound false bound
  | clone {merged : Bool} {l m : LogicalObj} (of : Descends codec table bound merged l)
      (made : (logClone l).out = some m) : Descends codec table bound merged m
  | plan {merged : Bool} {l : LogicalObj} {host : Host} {planned : Planned}
      (of : Descends codec table bound merged l)
      (made : (logDpl codec table host l).out = some planned) :
      Descends codec table bound true planned.source

/-- What a plan is made of: a suffix of the hook for the arguments and the catalog, of single
operators that the host accepts; properties that the hook returns; and, where these suppress the
shards' input, the host's accepting the match that does. -/
def Plannable (codec : BsonCodec) (table : SourceTable ω) (host : Host) (args : Bytes)
    (catalog : Option CatalogContext) : Prop :=
  ∃ hook d suffix required, table.mergingPipeline = some hook ∧ codec.decode args = .ok d ∧
    hook d catalog = .ok (some suffix) ∧ (∀ spec ∈ suffix, singleOperator spec = true) ∧
    requiresInput table.toSourceOps = some required ∧ Accepts host (requested suffix (!required))

/-- No run of the executable stage asks its upstream. -/
def IgnoresInput (codec : BsonCodec) (ops : SourceOps ω) (hooks : ω) (exec : ExecObj) : Prop :=
  ∀ (up : Upstream) (frames : List Frame),
    ((execGetNext codec ops).after
      (execSetSource (.compiled exec hooks) (some up)) frames).pulls = 0

section Facts

variable {codec : BsonCodec} {table : SourceTable ω} {host : Host} {l : LogicalObj}

/-- A stage of a merger yields no plan. -/
theorem logDpl_of_applied (applied : l.planApplied = true) :
    logDpl codec table host l = ⟨statusOk, none⟩ := by
  simp [logDpl, planOf, applied]

/-- A plan is delivered when the closure returns one. -/
theorem logDpl_out_iff {planned : Planned} :
    (logDpl codec table host l).out = some planned ↔
      planOf codec table host l = .ok (some planned) := by
  unfold logDpl
  rcases planOf codec table host l with (e | _) | (_ | other)
  · simp [Reporting.deliver, ffiBoundary]
  · simp [Reporting.deliver, ffiBoundary]
  · simp [Reporting.deliver, ffiBoundary]
  · simp [Reporting.deliver, ffiBoundary]

/-- **A plan is made when the stage is not marked, the hook returns a suffix, the properties can be
read and the plan is built**, and its source is a marked clone. -/
theorem planOf_ok_iff {planned : Planned} :
    planOf codec table host l = .ok (some planned) ↔
      l.planApplied = false ∧
        planned.source = { logicalAlloc l.args l.catalog with planApplied := true } ∧
        ∃ hook d suffix required, table.mergingPipeline = some hook ∧ codec.decode l.args = .ok d ∧
          hook d l.catalog = .ok (some suffix) ∧ requiresInput table.toSourceOps = some required ∧
          buildMerger host (some sourceNode) suffix (!required) .start =
            (.ok planned.plan, planned.world) := by
  obtain ⟨plan, source, world⟩ := planned
  unfold planOf
  cases applied : l.planApplied with
  | true => simp
  | false =>
      cases hooked : table.mergingPipeline with
      | none => simp
      | some hook =>
          cases decoded : codec.decode l.args with
          | error e => simp [attempt, Except.mapError, bind, Except.bind]
          | ok d =>
              cases answer : hook d l.catalog with
              | error fault => simp [attempt, Except.mapError, bind, Except.bind, answer]
              | ok suffix =>
                  cases suffix with
                  | none =>
                      simp [attempt, Except.mapError, bind, Except.bind, pure, Except.pure, answer]
                  | some suffix =>
                      cases answered : requiresInput table.toSourceOps with
                      | none => simp [attempt, Except.mapError, bind, Except.bind, answer]
                      | some required =>
                          rcases built : buildMerger host (some sourceNode) suffix (!required)
                            .start with ⟨e | p, w⟩
                          · simp [attempt, Except.mapError, bind, Except.bind, answer, built]
                          · simp only [attempt, Except.mapError, bind, Except.bind, pure,
                              Except.pure, answer, built, Except.ok.injEq, Option.some.injEq]
                            constructor
                            · intro same
                              cases same
                              exact ⟨trivial, rfl, hook, d, suffix, required, rfl, rfl, answer,
                                rfl, built⟩
                            · rintro ⟨-, rfl, _, _, _, _, rfl, rfl, answer', rfl, built'⟩
                              cases answer.symm.trans answer'
                              cases built.symm.trans built'
                              rfl

/-- The source of a plan is a marked clone of the stage. -/
theorem source_of_planned {planned : Planned}
    (made : (logDpl codec table host l).out = some planned) :
    planned.source.args = l.args ∧ planned.source.catalog = l.catalog ∧
      planned.source.planApplied = true := by
  obtain ⟨-, source, -⟩ := planOf_ok_iff.mp (logDpl_out_iff.mp made)
  rw [source]
  exact ⟨rfl, rfl, rfl⟩

/-- An unmarked stage yields a plan exactly where one can be planned. -/
theorem logDpl_yields_iff (unmarked : l.planApplied = false) :
    (∃ planned, (logDpl codec table host l).out = some planned) ↔
      Plannable codec table host l.args l.catalog := by
  simp only [logDpl_out_iff]
  constructor
  · rintro ⟨planned, made⟩
    obtain ⟨-, -, hook, d, suffix, required, hooked, decoded, answer, answered, built⟩ :=
      planOf_ok_iff.mp made
    obtain ⟨singles, accepts⟩ := (buildMerger_ok_iff host suffix (!required)).mp ⟨_, _, built⟩
    exact ⟨hook, d, suffix, required, hooked, decoded, answer, singles, answered, accepts⟩
  · rintro ⟨hook, d, suffix, required, hooked, decoded, answer, singles, answered, accepts⟩
    obtain ⟨plan, world, built⟩ :=
      (buildMerger_ok_iff host suffix (!required)).mpr ⟨singles, accepts⟩
    exact ⟨⟨plan, { logicalAlloc l.args l.catalog with planApplied := true }, world⟩,
      planOf_ok_iff.mpr ⟨unmarked, rfl, hook, d, suffix, required, hooked, decoded, answer,
        answered, built⟩⟩

/-- The shards of a plan are one constant-false match where the properties do not require input,
and else none. -/
theorem shards_of_planned {planned : Planned}
    (made : (logDpl codec table host l).out = some planned) :
    ∃ required, requiresInput table.toSourceOps = some required ∧
      (required = true → planned.plan.shards = none) ∧
      (required = false → ∃ i, planned.plan.shards = some ⟨some [some (parseNode i)]⟩ ∧
        planned.world.specs[i]? = some constantFalse) := by
  obtain ⟨-, -, hook, d, suffix, required, -, -, -, answered, built⟩ :=
    planOf_ok_iff.mp (logDpl_out_iff.mp made)
  obtain ⟨shards, specs⟩ := buildMerger_shards built
  refine ⟨required, answered, ?_, ?_⟩
  · rintro rfl
    exact shards
  · rintro rfl
    refine ⟨suffix.length, shards, ?_⟩
    rw [specs]
    simp [requested]

/-- **A compiled stage asks no upstream exactly when its properties do not require input.** -/
theorem ignoresInput_iff {ops : SourceOps ω} {required : Bool}
    (answered : requiresInput ops = some required) (hooks : ω) (args : Bytes)
    (catalog : Option CatalogContext) :
    IgnoresInput codec ops hooks (execAlloc args catalog) ↔ required = false := by
  constructor
  · intro ignores
    cases required with
    | false => rfl
    | true =>
        have undecided : Undecided ops rowsForever
            (execSetSource (.compiled (execAlloc args catalog) hooks) (some rowsForever)) :=
          ⟨answered, rfl, rfl, rfl⟩
        have never : ∀ k, ¬ rowsForever.EndsFirst 0 k := by
          intro k
          have advances : (rowsForever 0).Advances := by decide
          exact Upstream.not_endsFirst_of_advances advances
        obtain ⟨-, pulls, -⟩ := outputs_undecided codec undecided [.blank] fun k _ => never k
        rw [ignores rowsForever [.blank]] at pulls
        cases pulls
  · rintro rfl up frames
    cases frames with
    | nil => rfl
    | cons frame frames =>
        have first : route ops (execSetSource (.compiled (execAlloc args catalog) hooks) (some up))
            frame = .generate frame.result 0 := by
          have init : (execSetSource (.compiled (execAlloc args catalog) hooks)
              (some up)).exec.mode = .init := rfl
          simp only [route, init, answered]
          rfl
        exact (outputs_generating codec ops frames first rfl rfl).2

end Facts

/-! ## Every chain -/

section Chains

variable {codec : BsonCodec} {table : SourceTable ω} {bound : LogicalObj} {merged : Bool}
variable {l : LogicalObj}

/-- A chain keeps the arguments and the catalog, and marks exactly the stages of mergers. -/
theorem Descends.keeps (unmarked : bound.planApplied = false)
    (descends : Descends codec table bound merged l) :
    l.args = bound.args ∧ l.catalog = bound.catalog ∧ l.planApplied = merged := by
  induction descends with
  | bound => exact ⟨rfl, rfl, unmarked⟩
  | clone of made ih =>
      cases made
      exact ih
  | plan of made ih =>
      obtain ⟨args, catalog, marked⟩ := source_of_planned made
      exact ⟨args.trans ih.1, catalog.trans ih.2.1, marked⟩

/-- **Every stage of every chain of clones and plans**, from a stage bound to a catalog and against
every host: it keeps the arguments and the catalog. In a merger it yields no plan, and outside it
yields one exactly where one can be planned. A plan has a shard part, the one constant-false match,
exactly when the properties do not require input, and that is exactly when the stage compiles to
one that ignores its input. -/
theorem descends_plans (hooks : ω) {a : AstObj} {catalog : Option CatalogContext}
    (binds : (astBind catalog a).out = some bound)
    (descends : Descends codec table bound merged l) :
    l.args = a.args ∧ l.catalog = catalog ∧
    ∀ host,
      (merged = true → logDpl codec table host l = ⟨statusOk, none⟩) ∧
      (merged = false → ((∃ planned, (logDpl codec table host l).out = some planned) ↔
        Plannable codec table host a.args catalog)) ∧
      ∀ planned, (logDpl codec table host l).out = some planned →
        ((∃ shards, planned.plan.shards = some shards) ↔
          requiresInput table.toSourceOps = some false) ∧
        (∀ shards, planned.plan.shards = some shards →
          ∃ i, shards = ⟨some [some (parseNode i)]⟩ ∧
            planned.world.specs[i]? = some constantFalse) ∧
        ∀ exec, (logCompile l).out = some exec →
          (requiresInput table.toSourceOps = some false ↔
            IgnoresInput codec table.toSourceOps hooks exec) := by
  cases binds
  obtain ⟨args, catalog', mark⟩ := descends.keeps rfl
  refine ⟨args, catalog', ?_⟩
  intro host
  refine ⟨?_, ?_, ?_⟩
  · rintro rfl
    exact logDpl_of_applied mark
  · rintro rfl
    rw [logDpl_yields_iff mark, args, catalog']
    rfl
  · intro planned made
    obtain ⟨required, answered, absent, present⟩ := shards_of_planned made
    rw [answered]
    cases required with
    | true =>
        have none := absent rfl
        refine ⟨by simp [none], ?_, ?_⟩
        · intro shards some_shards
          rw [none] at some_shards
          cases some_shards
        · intro exec compiled
          cases compiled
          rw [ignoresInput_iff answered]
          simp
    | false =>
        obtain ⟨i, shards, spec⟩ := present rfl
        refine ⟨by simp [shards], ?_, ?_⟩
        · intro shards' some_shards
          cases shards.symm.trans some_shards
          exact ⟨i, rfl, spec⟩
        · intro exec compiled
          cases compiled
          rw [ignoresInput_iff answered]
          simp

/-- A generator with a merging pipeline of one stage. -/
def limitedSource (properties : Option Document) : SourceTable Unit where
  openFromDoc _ _ hooks := (.ok (some 0), hooks)
  dropState _ hooks := (some (), hooks)
  next _ _ hooks := (.ok .eof, hooks)
  staticPropertiesDoc := properties
  name := "$limited"
  expectEmpty := false
  expandInner _ := .ok .selfStage
  mergingPipeline := some fun _ _ => .ok (some [[("$limit", .int32 1)]])
  onExtensionInitialized := none

/-- The merger of a plan yields no further plan. -/
theorem descends_plans_merger :
    let codec : BsonCodec := ⟨fun _ => .ok [], fun _ => .ok []⟩
    let table := limitedSource (some [("requiresInputDocSource", .boolean false)])
    let host : Host := fun _ _ => .ok ()
    ∃ bound planned, (astBind none ⟨[]⟩).out = some bound ∧
      (logDpl codec table host bound).out = some planned ∧
      logDpl codec table host planned.source = ⟨statusOk, none⟩ := by
  intro codec table host
  have yields : (logDpl codec table host (logicalAlloc [] none)).out.isSome = true := by decide
  obtain ⟨planned, made⟩ := Option.isSome_iff_exists.mp yields
  refine ⟨logicalAlloc [] none, planned, rfl, made, ?_⟩
  obtain ⟨-, -, every⟩ := descends_plans () (a := ⟨[]⟩) rfl (.plan .bound made)
  exact (every host).1 rfl

/-- A suffix that the host accepts is not enough: no plan is made where the host refuses the
constant-false match, or where the properties hook panics. -/
theorem suffix_without_plan :
    let codec : BsonCodec := ⟨fun _ => .ok [], fun _ => .ok []⟩
    let refusesSecond : Host := fun i _ => if i = 0 then .ok () else .error (.hostError 9 "refused")
    let generator := limitedSource (some [("requiresInputDocSource", .boolean false)])
    let panicking := limitedSource none
    let suffix : List Document := [[("$limit", .int32 1)]]
    (∀ spec ∈ suffix, singleOperator spec = true) ∧ Accepts refusesSecond suffix ∧
      ∀ table ∈ [generator, panicking],
        table.mergingPipeline.map (fun hook => hook [] none) = some (.ok (some suffix)) ∧
          ∃ bound, (astBind none ⟨[]⟩).out = some bound ∧
            (logDpl codec table refusesSecond bound).out = none := by
  intro codec refusesSecond generator panicking suffix
  refine ⟨by decide, ?_, ?_⟩
  · intro i document found
    cases i with
    | zero => rfl
    | succ i => cases found
  · intro table member
    simp only [List.mem_cons, List.not_mem_nil, or_false] at member
    rcases member with rfl | rfl
    · exact ⟨rfl, logicalAlloc [] none, rfl, rfl⟩
    · exact ⟨rfl, logicalAlloc [] none, rfl, rfl⟩

end Chains

end ExtensionSdkMongodb.SourceStage

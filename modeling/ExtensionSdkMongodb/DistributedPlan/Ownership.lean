import ExtensionSdkMongodb.DistributedPlan.Model
import Mathlib.Algebra.BigOperators.Group.List.Basic
import Mathlib.Algebra.Order.Group.Multiset
import Mathlib.Data.List.ReduceOption
import Mathlib.Tactic.Abel

/-!
# Every stage of a plan has one owner

The nodes created for a plan are split between the plan, the containers it handed out, the
host's arrays and the destroyed nodes (`System.owners`). Building a plan puts all of them in the
plan or, when it fails, among the destroyed ones (`buildMerger_spec`). Every operation moves
nodes between the parts and none creates, loses or doubles one (`accounted_step`), because every
slot of a container that was not transferred is filled.

`plan_ownership` states this for every build and every sequence of operations.
-/

set_option autoImplicit false

namespace ExtensionSdkMongodb.DistributedPlan

/-! ## Owners -/

/-- The elements a container owns. -/
def Container.owned (c : Container) : Multiset Element := (c.stages.getD []).reduceOption

/-- The elements owned through an optional container. -/
def ownedBy (c : Option Container) : Multiset Element := (c.map Container.owned).getD 0

@[simp] theorem ownedBy_none : ownedBy none = 0 := rfl

@[simp] theorem ownedBy_some (c : Container) : ownedBy (some c) = c.owned := rfl

def Plan.owned (p : Plan) : Multiset Element := ownedBy p.merger + ownedBy p.shards

namespace System

def planOwned (sys : System) : Multiset Element := (sys.plan.map Plan.owned).getD 0

def containersOwned (sys : System) : Multiset Element :=
  (sys.containers.map fun h => ownedBy h.live).sum

/-- The elements in the host's arrays. -/
def transferred (sys : System) : Multiset Element := sys.arrays.flatten

/-- The number of places a node is in: with the plan, in a container, in an array of the host, or
among the destroyed nodes. -/
def places (sys : System) (node : Element) : ℕ :=
  sys.planOwned.count node + (sys.containers.map fun h => (ownedBy h.live).count node).sum +
    (sys.arrays.map fun array => array.count node).sum + sys.world.destroyed.count node

/-- Every element with its owner, or destroyed. -/
def owners (sys : System) : Multiset Element :=
  sys.planOwned + sys.containersOwned + sys.transferred + (sys.world.destroyed : Multiset Element)

end System

/-! ## Created nodes are different -/

theorem created_succ (w : World) (spec : Document) :
    ({ w with specs := w.specs ++ [spec] } : World).created =
      w.created ++ [parseNode w.specs.length] := by
  simp [World.created, List.range_succ]

theorem created_nodup (w : World) : w.created.Nodup := by
  refine List.nodup_cons.mpr ⟨?_, ?_⟩
  · intro mem
    obtain ⟨i, _, same⟩ := List.mem_map.mp mem
    cases same
  · apply List.nodup_range.map
    intro i j same
    simpa [parseNode] using same

/-! ## Filled slots -/

@[simp] theorem reduceOption_filled (elements : List Element) :
    (elements.map some).reduceOption = elements := by
  induction elements with
  | nil => rfl
  | cons element elements ih =>
      rw [List.map_cons, List.reduceOption_cons_of_some, ih]

@[simp] theorem takeAll_filled (elements : List Element) :
    takeAll (elements.map some) = some elements := by
  induction elements with
  | nil => rfl
  | cons element elements ih => simp [takeAll, ih]

/-- A container holds these elements, each in its slot, or was transferred. -/
def Container.Holds (c : Container) (elements : List Element) : Prop :=
  c.stages = none ∨ c.stages = some (elements.map some)

theorem owned_of_stages {c : Container} {elements : List Element}
    (stages : c.stages = some (elements.map some)) : c.owned = (elements : Multiset Element) := by
  simp [Container.owned, stages]

theorem destroyed_drop (w : World) (c : Container) :
    ((w.dropContainer c).destroyed : Multiset Element) = w.destroyed + c.owned := by
  rw [World.dropContainer, World.drop, ← Multiset.coe_add]
  rfl

theorem destroyed_dropPlan (w : World) (p : Plan) :
    ((w.dropPlan p).destroyed : Multiset Element) = w.destroyed + p.owned := by
  obtain ⟨merger, shards, extracted⟩ := p
  cases merger with
  | none => cases shards <;> simp [World.dropPlan, Plan.owned, destroyed_drop]
  | some c =>
      cases shards with
      | none => simp [World.dropPlan, Plan.owned, destroyed_drop]
      | some c' => simp [World.dropPlan, Plan.owned, destroyed_drop, add_assoc]

@[simp] theorem created_dropContainer (w : World) (c : Container) :
    (w.dropContainer c).created = w.created := rfl

@[simp] theorem created_dropPlan (w : World) (p : Plan) :
    (w.dropPlan p).created = w.created := by
  obtain ⟨merger, shards, extracted⟩ := p
  cases merger <;> cases shards <;> rfl

/-! ## Building -/

/-- The loop keeps every created node in a slot, in order; when it fails it destroys them all. -/
theorem pushSuffix_spec (host : Host) (suffix : List Document) (w : World) :
    (∀ stages w', pushSuffix host (w.created.map some) suffix w = (.ok stages, w') →
      stages = w'.created.map some ∧ w'.specs = w.specs ++ suffix ∧
        w'.destroyed = w.destroyed) ∧
    (∀ e w', pushSuffix host (w.created.map some) suffix w = (.error e, w') →
      w'.destroyed = w.destroyed ++ w'.created) := by
  induction suffix generalizing w with
  | nil =>
      refine ⟨?_, ?_⟩
      · intro stages w' pushed
        cases pushed
        exact ⟨rfl, (List.append_nil _).symm, rfl⟩
      · intro e w' pushed
        cases pushed
  | cons spec suffix ih =>
      unfold pushSuffix createHostParseNode
      by_cases single : singleOperator spec = true
      · rw [if_pos single]
        cases host w.specs.length spec with
        | error e =>
            refine ⟨?_, ?_⟩
            · intro stages w' pushed
              cases pushed
            · intro e' w' pushed
              cases pushed
              rw [World.drop, reduceOption_filled]
              rfl
        | ok _ =>
            obtain ⟨pushes, fails⟩ := ih { w with specs := w.specs ++ [spec] }
            rw [created_succ, List.map_append] at pushes fails
            refine ⟨?_, ?_⟩
            · intro stages w' pushed
              obtain ⟨filled, specs, destroyed⟩ := pushes stages w' pushed
              exact ⟨filled, by simpa using specs, destroyed⟩
            · intro e w' pushed
              exact fails e w' pushed
      · rw [if_neg single]
        refine ⟨?_, ?_⟩
        · intro stages w' pushed
          cases pushed
        · intro e w' pushed
          cases pushed
          rw [World.drop, reduceOption_filled]
          rfl

/-- The merger's elements: the source's clone, then one parse node for each suffix stage. -/
def merging (suffix : List Document) : List Element :=
  sourceNode :: (List.range suffix.length).map parseNode

/-- The elements of a container by its origin. -/
def expected (suffix : List Document) : Origin → List Element
  | .merger => merging suffix
  | .shards => [parseNode suffix.length]

/-- **A build that succeeds has every created node in the plan, and one that fails has destroyed
them all.** -/
theorem buildMerger_spec (host : Host) (suffix : List Document) (suppressInput : Bool) :
    (∀ p w, buildMerger host (some sourceNode) suffix suppressInput .start = (.ok p, w) →
      w.destroyed = [] ∧ p.owned = (w.created : Multiset Element) ∧
        w.specs = suffix ++ (if suppressInput then [constantFalse] else []) ∧
        p.shardsExtracted = false ∧
        (∃ c, p.merger = some c ∧ c.Holds (expected suffix .merger)) ∧
        ∀ c, p.shards = some c → c.Holds (expected suffix .shards)) ∧
    (∀ e w, buildMerger host (some sourceNode) suffix suppressInput .start = (.error e, w) →
      w.destroyed = w.created) := by
  obtain ⟨pushes, fails⟩ := pushSuffix_spec host suffix .start
  have first : World.start.created.map some = [some sourceNode] := rfl
  rw [first] at pushes fails
  unfold buildMerger
  rcases pushed : pushSuffix host [some sourceNode] suffix .start with ⟨e | stages, w⟩
  · refine ⟨?_, ?_⟩
    · intro p w' built
      cases built
    · intro e' w' built
      cases built
      exact fails e w pushed
  · obtain ⟨filled, specs, destroyed⟩ := pushes stages w pushed
    have specs : w.specs = suffix := specs
    have merger : stages = (merging suffix).map some := by
      rw [filled, World.created, specs]
      rfl
    cases suppressInput with
    | false =>
        refine ⟨?_, ?_⟩
        · intro p w' built
          cases built
          refine ⟨destroyed, ?_, by simp [specs], rfl, ⟨_, rfl, .inr (congrArg some merger)⟩, ?_⟩
          · simp [Plan.owned, Container.owned, filled]
          · intro c shards
            cases shards
        · intro e' w' built
          cases built
    | true =>
        simp only [if_true, createHostParseNode]
        cases host w.specs.length constantFalse with
        | error e =>
            refine ⟨?_, ?_⟩
            · intro p w' built
              cases built
            · intro e' w' built
              cases built
              rw [World.dropContainer, World.drop, filled, Option.getD_some, reduceOption_filled,
                destroyed]
              rfl
        | ok _ =>
            refine ⟨?_, ?_⟩
            · intro p w' built
              cases built
              refine ⟨destroyed, ?_, by simp [specs], rfl,
                ⟨_, rfl, .inr (congrArg some merger)⟩, ?_⟩
              · rw [created_succ, ← Multiset.coe_add]
                simp [Plan.owned, Container.owned, filled]
              · intro c shards
                cases shards
                exact .inr (by simp [expected, specs])
            · intro e' w' built
              cases built

/-! ## Operations -/

/-- What holds of a plan built for a suffix at every moment: the owners share the created nodes,
and a container that was not transferred is full. -/
structure Accounted (suffix : List Document) (sys : System) : Prop where
  partition : sys.owners = (sys.world.created : Multiset Element)
  merger : ∀ p c, sys.plan = some p → p.merger = some c → c.Holds (expected suffix .merger)
  shards : ∀ p c, sys.plan = some p → p.shards = some c → c.Holds (expected suffix .shards)
  handed : ∀ h ∈ sys.containers, ∀ c, h.live = some c → c.Holds (expected suffix h.origin)

/-- What no call takes back: the created and the destroyed nodes, the host's arrays, and where a
container came from. -/
structure Extends (before after : System) : Prop where
  created : after.world.created = before.world.created
  destroyed : before.world.destroyed <+: after.world.destroyed
  arrays : before.arrays <+: after.arrays
  origins : before.containers.map Handed.origin <+: after.containers.map Handed.origin

theorem Extends.refl (sys : System) : Extends sys sys :=
  ⟨rfl, List.prefix_rfl, List.prefix_rfl, List.prefix_rfl⟩

/-- What one call does to owners. A call never aborts; one that is rejected changes nothing; a
destroyed owner's elements are destroyed; and a transfer moves a whole container, in order, to a
new array. -/
structure Obeys (suffix : List Document) (sys : System) (operation : Operation) : Prop where
  extend : Extends sys (operate sys operation).2
  completes : (operate sys operation).1 ≠ .aborted
  rejected : ∀ e, (operate sys operation).1 = .rejected e → (operate sys operation).2 = sys
  destroysPlan : ∀ p, operation = .destroyPlan → sys.plan = some p →
    (operate sys operation).2.plan = none ∧
      ((operate sys operation).2.world.destroyed : Multiset Element) =
        sys.world.destroyed + p.owned
  destroysContainer : ∀ handle c, operation = .destroyContainer (some handle) →
    sys.container handle = some c →
    (operate sys operation).2.container handle = none ∧
      ((operate sys operation).2.world.destroyed : Multiset Element) =
        sys.world.destroyed + c.owned
  extracts : ∀ handle, operation = .extractMerger →
    (operate sys operation).1 = .accepted (some handle) →
    ∃ c, (operate sys operation).2.containers[handle]? = some ⟨.merger, some c⟩
  transfers : ∀ handle out h, operation = .transfer (some handle) (some out) →
    sys.containers[handle]? = some h → (operate sys operation).1 = .accepted none →
    (operate sys operation).2.arrays = sys.arrays ++ [expected suffix h.origin]

/-- Changing one entry changes a sum by the entry. -/
theorem sum_modify {α β : Type} [AddCommMonoid β] (g : α → β) (f : α → α) (l : List α) {i : ℕ}
    {a : α} (found : l[i]? = some a) :
    ((l.modify i f).map g).sum + g a = (l.map g).sum + g (f a) := by
  induction l generalizing i with
  | nil => simp at found
  | cons b l ih =>
      cases i with
      | zero =>
          simp only [List.getElem?_cons_zero, Option.some.injEq] at found
          subst found
          simp only [List.modify_zero_cons, List.map_cons, List.sum_cons]
          abel
      | succ i =>
          simp only [List.getElem?_cons_succ] at found
          simp only [List.modify_succ_cons, List.map_cons, List.sum_cons, add_assoc, ih found]

variable {suffix : List Document} {sys : System}

theorem handed_of_container {handle : ℕ} {c : Container} (live : sys.container handle = some c) :
    ∃ h, sys.containers[handle]? = some h ∧ h.live = some c :=
  Option.bind_eq_some_iff.mp live

/-- What a container's change does to what the containers own. -/
theorem containersOwned_set {handle : ℕ} {c : Container} (found : sys.container handle = some c)
    (live : Option Container) :
    (sys.setContainer handle live).containersOwned + c.owned =
      sys.containersOwned + ownedBy live := by
  obtain ⟨h, at_handle, alive⟩ := handed_of_container found
  have sum := sum_modify (fun h : Handed => ownedBy h.live) (fun h => { h with live }) _ at_handle
  simp only [alive, ownedBy_some] at sum
  exact sum

/-- A container that is set to hold less stays full. -/
theorem handed_set (accounted : Accounted suffix sys) (handle : ℕ) {live : Option Container}
    (emptied : ∀ c, live = some c → c.stages = none) :
    ∀ h ∈ (sys.setContainer handle live).containers, ∀ c, h.live = some c →
      c.Holds (expected suffix h.origin) := by
  intro h mem c alive
  obtain ⟨i, at_i⟩ := List.mem_iff_getElem?.mp mem
  simp only [System.setContainer, List.getElem?_modify] at at_i
  obtain ⟨h', found, same⟩ := Option.map_eq_some_iff.mp at_i
  split at same
  · subst same
    exact .inl (emptied c alive)
  · subst same
    exact accounted.handed h' (List.mem_of_getElem? found) c alive

/-- A plan that hands over a container owns it no longer, and the host does. -/
theorem handOver_accounted (accounted : Accounted suffix sys) {p p' : Plan}
    (planned : sys.plan = some p) {origin : Origin} {c : Container}
    (holds : c.Holds (expected suffix origin)) (moved : p'.owned + c.owned = p.owned)
    (merger : ∀ c, p'.merger = some c → p.merger = some c)
    (shards : ∀ c, p'.shards = some c → p.shards = some c) :
    Accounted suffix
      { sys with plan := some p', containers := sys.containers ++ [⟨origin, some c⟩] } := by
  refine ⟨?_, ?_, ?_, ?_⟩
  · rw [← accounted.partition]
    simp only [System.owners, System.planOwned, System.containersOwned, System.transferred,
      planned, Option.map_some, Option.getD_some, ownedBy_some, List.map_append, List.map_cons,
      List.map_nil, List.sum_append, List.sum_cons, List.sum_nil, ← moved]
    abel
  · rintro _ c' ⟨⟩ kept
    exact accounted.merger p c' planned (merger c' kept)
  · rintro _ c' ⟨⟩ kept
    exact accounted.shards p c' planned (shards c' kept)
  · intro h mem c' alive
    rcases List.mem_append.mp mem with before | new
    · exact accounted.handed h before c' alive
    · obtain rfl := List.mem_singleton.mp new
      cases alive
      exact holds

theorem extractShards_accounted (accounted : Accounted suffix sys) {p : Plan}
    (planned : sys.plan = some p) : Accounted suffix (extractShards sys p).2 := by
  unfold extractShards
  split
  · exact accounted
  · cases held : p.shards with
    | none =>
        obtain ⟨partition, merger, shards, handed⟩ := accounted
        refine ⟨?_, ?_, ?_, handed⟩
        · rw [← partition]
          simp [System.owners, System.planOwned, System.containersOwned, System.transferred,
            planned, Plan.owned, held]
        · intro p' c plan' merger'
          cases plan'
          exact merger p c planned merger'
        · intro p' c plan' shards'
          cases plan'
          cases shards'
    | some c =>
        refine handOver_accounted accounted planned (accounted.shards p c planned held) ?_
          (fun _ kept => kept) (by simp)
        simp only [Plan.owned, held, ownedBy_none, ownedBy_some, add_zero]

theorem extractMerger_accounted (accounted : Accounted suffix sys) {p : Plan}
    (planned : sys.plan = some p) : Accounted suffix (extractMerger sys p).2 := by
  unfold extractMerger
  cases held : p.merger with
  | none => exact accounted
  | some c =>
      refine handOver_accounted accounted planned (accounted.merger p c planned held) ?_
        (by simp) (fun _ kept => kept)
      simp only [Plan.owned, held, ownedBy_none, ownedBy_some, zero_add, add_comm]

/-- A transfer is rejected and changes nothing, or moves all elements to a new array. -/
theorem containerTransfer_cases (sys : System) (handle : ℕ) {c : Container}
    {elements : List Element} (holds : c.Holds elements) (out : OutArray) :
    (∃ e, containerTransfer sys handle c out = (.rejected e, sys)) ∨
      (c.stages = some (elements.map some) ∧
        containerTransfer sys handle c out =
          (.accepted none,
            { sys.setContainer handle (some ⟨none⟩) with
              arrays := sys.arrays ++ [elements] })) := by
  unfold containerTransfer
  rcases holds with empty | full
  · rw [empty]
    exact .inl ⟨_, rfl⟩
  · rw [full]
    simp only
    split
    · exact .inl ⟨_, rfl⟩
    · rw [takeAll_filled]
      exact .inr ⟨trivial, rfl⟩

theorem handed_holds (accounted : Accounted suffix sys) {handle : ℕ} {h : Handed} {c : Container}
    (found : sys.containers[handle]? = some h) (alive : h.live = some c) :
    c.Holds (expected suffix h.origin) :=
  accounted.handed h (List.mem_of_getElem? found) c alive

theorem containerTransfer_accounted (accounted : Accounted suffix sys) {handle : ℕ}
    {c : Container} (live : sys.container handle = some c) (out : OutArray) :
    Accounted suffix (containerTransfer sys handle c out).2 := by
  obtain ⟨h, found, alive⟩ := handed_of_container live
  have holds := handed_holds accounted found alive
  rcases containerTransfer_cases sys handle holds out with ⟨e, same⟩ | ⟨stages, moved⟩
  · rw [same]
    exact accounted
  · rw [moved]
    refine ⟨?_, accounted.merger, accounted.shards, ?_⟩
    · have sum := containersOwned_set live (some ⟨none⟩)
      rw [owned_of_stages stages] at sum
      have emptied : ownedBy (some ⟨none⟩) = 0 := rfl
      rw [emptied, add_zero] at sum
      have partition := accounted.partition
      unfold System.owners at partition ⊢
      rw [← sum] at partition
      simp only [System.planOwned, System.containersOwned, System.transferred, System.setContainer,
        List.flatten_append, List.flatten_cons, List.flatten_nil, List.append_nil,
        ← Multiset.coe_add] at partition ⊢
      rw [← partition]
      abel
    · apply handed_set accounted handle
      intro c same
      cases same
      rfl

theorem destroyContainer_accounted (accounted : Accounted suffix sys) {handle : ℕ}
    {c : Container} (live : sys.container handle = some c) :
    Accounted suffix
      { sys.setContainer handle none with world := sys.world.dropContainer c } := by
  refine ⟨?_, accounted.merger, accounted.shards, ?_⟩
  · have sum := containersOwned_set live none
    rw [ownedBy_none, add_zero] at sum
    have partition := accounted.partition
    unfold System.owners at partition ⊢
    rw [← sum] at partition
    rw [destroyed_drop, created_dropContainer, ← partition]
    simp only [System.planOwned, System.containersOwned, System.transferred, System.setContainer]
    abel
  · apply handed_set accounted handle
    intro c same
    cases same

theorem destroyPlan_accounted (accounted : Accounted suffix sys) {p : Plan}
    (planned : sys.plan = some p) :
    Accounted suffix { sys with plan := none, world := sys.world.dropPlan p } := by
  refine ⟨?_, ?_, ?_, accounted.handed⟩
  · have partition := accounted.partition
    unfold System.owners at partition ⊢
    rw [destroyed_dropPlan, created_dropPlan, ← partition]
    simp only [System.planOwned, planned, Option.map_some, Option.getD_some, Option.map_none,
      Option.getD_none, System.containersOwned, System.transferred]
    abel
  · intro p' c gone
    cases gone
  · intro p' c gone
    cases gone

/-- **Every operation keeps every node accounted for.** -/
theorem accounted_step (sys : System) (operation : Operation)
    (accounted : Accounted suffix sys) : Accounted suffix (operate sys operation).2 := by
  cases operation with
  | extractShards =>
      cases planned : sys.plan with
      | none => simpa only [operate, planned] using accounted
      | some p => simpa only [operate, planned] using extractShards_accounted accounted planned
  | extractMerger =>
      cases planned : sys.plan with
      | none => simpa only [operate, planned] using accounted
      | some p => simpa only [operate, planned] using extractMerger_accounted accounted planned
  | size handle =>
      cases live : sys.container handle with
      | none => simpa only [operate, live] using accounted
      | some c => simpa only [operate, live] using accounted
  | transfer handle out =>
      rcases handle with _ | handle
      · exact accounted
      · rcases out with _ | out
        · exact accounted
        · cases live : sys.container handle with
          | none => simpa only [operate, live] using accounted
          | some c =>
              simpa only [operate, live] using containerTransfer_accounted accounted live out
  | destroyContainer handle =>
      rcases handle with _ | handle
      · exact accounted
      · cases live : sys.container handle with
        | none => simpa only [operate, live] using accounted
        | some c => simpa only [operate, live] using destroyContainer_accounted accounted live
  | destroyPlan =>
      cases planned : sys.plan with
      | none => simpa only [operate, planned] using accounted
      | some p => simpa only [operate, planned] using destroyPlan_accounted accounted planned

/-! ## What each call does -/

theorem origins_set (handle : ℕ) (live : Option Container) :
    (sys.setContainer handle live).containers.map Handed.origin =
      sys.containers.map Handed.origin := by
  refine List.ext_getElem? fun i => ?_
  simp only [System.setContainer, List.getElem?_map, List.getElem?_modify]
  cases sys.containers[i]? with
  | none => rfl
  | some h => by_cases here : handle = i <;> simp [here]

theorem destroyed_grows (w : World) (c : Container) :
    w.destroyed <+: (w.dropContainer c).destroyed :=
  List.prefix_append _ _

theorem destroyed_grows_plan (w : World) (p : Plan) :
    w.destroyed <+: (w.dropPlan p).destroyed := by
  obtain ⟨merger, shards, extracted⟩ := p
  cases merger with
  | none =>
      cases shards with
      | none => exact List.prefix_rfl
      | some c => exact destroyed_grows w c
  | some c =>
      cases shards with
      | none => exact destroyed_grows w c
      | some c' => exact (destroyed_grows w c).trans (destroyed_grows (w.dropContainer c) c')

theorem containerTransfer_extends (sys : System) (handle : ℕ) (c : Container) (out : OutArray) :
    Extends sys (containerTransfer sys handle c out).2 := by
  unfold containerTransfer
  cases c.stages with
  | none => exact .refl sys
  | some stages =>
      simp only
      split
      · exact .refl sys
      · cases takeAll stages with
        | none => exact .refl sys
        | some elements =>
            refine ⟨rfl, List.prefix_rfl, List.prefix_append _ _, ?_⟩
            exact (origins_set handle _).symm ▸ List.prefix_rfl

theorem operate_extends (sys : System) (operation : Operation) :
    Extends sys (operate sys operation).2 := by
  cases operation with
  | extractShards =>
      cases planned : sys.plan with
      | none => simpa only [operate, planned] using .refl sys
      | some p =>
          simp only [operate, planned, extractShards]
          split
          · exact .refl sys
          · cases p.shards with
            | none => exact ⟨rfl, List.prefix_rfl, List.prefix_rfl, List.prefix_rfl⟩
            | some c =>
                refine ⟨rfl, List.prefix_rfl, List.prefix_rfl, ?_⟩
                rw [List.map_append]
                exact List.prefix_append _ _
  | extractMerger =>
      cases planned : sys.plan with
      | none => simpa only [operate, planned] using .refl sys
      | some p =>
          simp only [operate, planned, extractMerger]
          cases p.merger with
          | none => exact .refl sys
          | some c =>
              refine ⟨rfl, List.prefix_rfl, List.prefix_rfl, ?_⟩
              rw [List.map_append]
              exact List.prefix_append _ _
  | size handle =>
      cases live : sys.container handle with
      | none => simpa only [operate, live] using .refl sys
      | some c => simpa only [operate, live] using .refl sys
  | transfer handle out =>
      rcases handle with _ | handle
      · exact .refl sys
      · rcases out with _ | out
        · exact .refl sys
        · cases live : sys.container handle with
          | none => simpa only [operate, live] using .refl sys
          | some c => simpa only [operate, live] using containerTransfer_extends sys handle c out
  | destroyContainer handle =>
      rcases handle with _ | handle
      · exact .refl sys
      · cases live : sys.container handle with
        | none => simpa only [operate, live] using .refl sys
        | some c =>
            simp only [operate, live]
            exact ⟨rfl, destroyed_grows _ _, List.prefix_rfl,
              (origins_set handle none).symm ▸ List.prefix_rfl⟩
  | destroyPlan =>
      cases planned : sys.plan with
      | none => simpa only [operate, planned] using .refl sys
      | some p =>
          simp only [operate, planned]
          exact ⟨created_dropPlan _ _, destroyed_grows_plan _ _, List.prefix_rfl, List.prefix_rfl⟩

/-- A call either changes nothing, and may be rejected, or it returns normally. -/
theorem operate_returns (accounted : Accounted suffix sys) (operation : Operation) :
    (∃ e, operate sys operation = (.rejected e, sys)) ∨
      ((operate sys operation).1 ≠ .aborted ∧ ∀ e, (operate sys operation).1 ≠ .rejected e) := by
  cases operation with
  | extractShards =>
      cases planned : sys.plan with
      | none => exact .inr (by simp [operate, planned])
      | some p =>
          simp only [operate, planned, extractShards]
          split
          · exact .inl ⟨_, rfl⟩
          · cases p.shards <;> exact .inr (by simp)
  | extractMerger =>
      cases planned : sys.plan with
      | none => exact .inr (by simp [operate, planned])
      | some p =>
          simp only [operate, planned, extractMerger]
          cases p.merger with
          | none => exact .inl ⟨_, rfl⟩
          | some c => exact .inr (by simp)
  | size handle =>
      apply Or.inr
      cases live : sys.container handle <;> simp [operate, live]
  | transfer handle out =>
      rcases handle with _ | handle
      · exact .inl ⟨_, rfl⟩
      · rcases out with _ | out
        · exact .inl ⟨_, rfl⟩
        · cases live : sys.container handle with
          | none => exact .inr (by simp [operate, live])
          | some c =>
              obtain ⟨h, found, alive⟩ := handed_of_container live
              simp only [operate, live]
              have holds := handed_holds accounted found alive
              rcases containerTransfer_cases sys handle holds out with ⟨e, same⟩ | ⟨_, moved⟩
              · exact .inl ⟨e, same⟩
              · rw [moved]
                exact .inr (by simp)
  | destroyContainer handle =>
      apply Or.inr
      rcases handle with _ | handle
      · simp [operate]
      · cases live : sys.container handle <;> simp [operate, live]
  | destroyPlan =>
      apply Or.inr
      cases planned : sys.plan <;> simp [operate, planned]

theorem container_gone {handle : ℕ} {c : Container} (live : sys.container handle = some c) :
    (sys.setContainer handle none).container handle = none := by
  obtain ⟨h, found, _⟩ := handed_of_container live
  simp [System.container, System.setContainer, found]

/-- **Every call obeys the rules of ownership.** -/
theorem obeys_step (accounted : Accounted suffix sys) (operation : Operation) :
    Obeys suffix sys operation where
  extend := operate_extends sys operation
  completes := by
    rcases operate_returns accounted operation with ⟨e, same⟩ | ⟨completes, _⟩
    · intro aborted
      rw [same] at aborted
      cases aborted
    · exact completes
  rejected := by
    intro e rejected
    rcases operate_returns accounted operation with ⟨e', same⟩ | ⟨_, accepts⟩
    · exact congrArg Prod.snd same
    · exact absurd rejected (accepts e)
  destroysPlan := by
    rintro p rfl planned
    simp only [operate, planned]
    exact ⟨trivial, destroyed_dropPlan sys.world p⟩
  destroysContainer := by
    rintro handle c rfl live
    simp only [operate, live]
    exact ⟨container_gone live, destroyed_drop sys.world c⟩
  extracts := by
    rintro handle rfl accepted
    cases planned : sys.plan with
    | none => simp [operate, planned] at accepted
    | some p =>
        simp only [operate, planned, extractMerger] at accepted ⊢
        cases held : p.merger with
        | none => simp [held] at accepted
        | some c =>
            obtain rfl : sys.containers.length = handle := by simpa [held] using accepted
            exact ⟨c, by simp⟩
  transfers := by
    rintro handle out h rfl found accepted
    cases alive : h.live with
    | none =>
        have dead : sys.container handle = none := by simp [System.container, found, alive]
        simp [operate, dead] at accepted
    | some c =>
        have live : sys.container handle = some c := by simp [System.container, found, alive]
        simp only [operate, live] at accepted ⊢
        rcases containerTransfer_cases sys handle (handed_holds accounted found alive) out with
          ⟨e, same⟩ | ⟨_, moved⟩
        · rw [same] at accepted
          cases accepted
        · rw [moved]

/-! ## Every build and every run -/

theorem accounted_built {p : Plan} {w : World} (owned : p.owned = (w.created : Multiset Element))
    (clean : w.destroyed = [])
    (merger : ∃ c, p.merger = some c ∧ c.Holds (expected suffix .merger))
    (shards : ∀ c, p.shards = some c → c.Holds (expected suffix .shards)) :
    Accounted suffix (.built p w) where
  partition := by
    simp [System.owners, System.planOwned, System.containersOwned, System.transferred, System.built,
      owned, clean]
  merger := by
    rintro p' c planned held
    obtain rfl : p = p' := Option.some.inj planned
    obtain ⟨c', held', holds⟩ := merger
    obtain rfl : c' = c := Option.some.inj (held'.symm.trans held)
    exact holds
  shards := by
    rintro p' c planned held
    obtain rfl : p = p' := Option.some.inj planned
    exact shards c held
  handed := by
    intro h mem
    cases mem

theorem count_owners (sys : System) (node : Element) :
    sys.owners.count node = sys.places node := by
  have containers : sys.containersOwned.count node =
      (sys.containers.map fun h => (ownedBy h.live).count node).sum := by
    unfold System.containersOwned
    induction sys.containers with
    | nil => rfl
    | cons h containers ih => simp [ih]
  simp only [System.owners, System.places, Multiset.count_add, containers, System.transferred,
    Multiset.coe_count, List.count_flatten]

/-- **Plan ownership.** For every suffix, every pattern of host failures and every sequence of the
host's calls: a build that fails has destroyed every node it received, once; after a build that
succeeds each created node is in exactly one place at every moment, with the plan, one container or
one of the host's arrays, or destroyed once; and every call obeys the rules of ownership. The
suffix stages are the nodes the host made of the suffix documents, in order. -/
theorem plan_ownership (host : Host) (suffix : List Document) (suppressInput : Bool)
    (operations : List Operation) :
    match buildMerger host (some sourceNode) suffix suppressInput .start with
    | (.error _, w) => ∀ node ∈ w.created, w.destroyed.count node = 1
    | (.ok p, w) =>
      w.specs.take suffix.length = suffix ∧
        Machine.Along operate (Obeys suffix) (.built p w) operations ∧
        ∀ node ∈ w.created, (Machine.after operate (.built p w) operations).places node = 1 := by
  obtain ⟨builds, fails⟩ := buildMerger_spec host suffix suppressInput
  rcases built : buildMerger host (some sourceNode) suffix suppressInput .start with ⟨e | p, w⟩
  · intro node mem
    rw [fails e w built]
    exact List.count_eq_one_of_mem (created_nodup w) mem
  · obtain ⟨clean, owned, specs, _, merger, shards⟩ := builds p w built
    have start := accounted_built owned clean merger shards
    refine ⟨by simp [specs], ?_, ?_⟩
    · exact Machine.along_of_invariant accounted_step (fun _ operation holds =>
        obeys_step holds operation) start operations
    · intro node mem
      have run : Accounted suffix (Machine.after operate (.built p w) operations) :=
        Machine.after_invariant accounted_step start operations
      have kept : ∀ sys operation, sys.world.created = w.created →
          (operate sys operation).2.world.created = w.created :=
        fun sys operation same => (operate_extends sys operation).created.trans same
      have same : (Machine.after operate (.built p w) operations).world.created = w.created :=
        Machine.after_invariant kept rfl operations
      rw [← count_owners, run.partition, same, Multiset.coe_count]
      exact List.count_eq_one_of_mem (created_nodup w) mem

end ExtensionSdkMongodb.DistributedPlan

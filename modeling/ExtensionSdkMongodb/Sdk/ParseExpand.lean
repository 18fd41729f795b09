import ExtensionSdkMongodb.Sdk.ExpandedArray
import Mathlib.Data.List.Range

/-!
# `parse_expand` and the nodes it makes

`parse_expand` creates AST nodes, and may receive one of the host, before it builds the container
that owns them. The nodes of a call are numbered as they come (`NodeWorld`). The copies of the
function differ in how they report errors and in what they do with a host id lookup, which
`Reporting.parseExpand` is given.

`parseExpand_shows` says that the container owns the nodes that `expansionNodes` lists.
-/

set_option autoImplicit false

namespace ExtensionSdkMongodb

/-! ## Nodes of a call -/

/-- The AST nodes a call created or received, in order, and those it destroyed. A node is known by
its position. -/
structure NodeWorld (η : Type) where
  nodes : List (AstNode η)
  destroyed : List ℕ

/-- No nodes yet. -/
def NodeWorld.empty {η : Type} : NodeWorld η := ⟨[], []⟩

section Allocation

variable {η : Type}

/-- One more node, created or received. -/
def NodeWorld.add (w : NodeWorld η) (node : AstNode η) : ℕ × NodeWorld η :=
  (w.nodes.length, { w with nodes := w.nodes ++ [node] })

/-- `ast_alloc`, boxed. -/
def astAlloc (args : Bytes) (w : NodeWorld η) : ℕ × NodeWorld η := w.add (.extension args)

/-- The loop over the blobs of a pipeline. -/
def astAllocAll : List Bytes → NodeWorld η → List ℕ × NodeWorld η
  | [], w => ([], w)
  | b :: blobs, w =>
    let (ast, w) := astAlloc b w
    let (asts, w) := astAllocAll blobs w
    (ast :: asts, w)

theorem astAllocAll_eq (blobs : List Bytes) (w : NodeWorld η) :
    astAllocAll blobs w =
      (List.range' w.nodes.length blobs.length,
        { w with nodes := w.nodes ++ blobs.map .extension }) := by
  induction blobs generalizing w with
  | nil => simp [astAllocAll]
  | cons b blobs ih =>
      rw [astAllocAll]
      simp only [ih, astAlloc, NodeWorld.add, List.length_append, List.length_cons,
        List.length_nil, List.map_cons, List.append_assoc, List.singleton_append, Nat.zero_add,
        List.range'_succ]

end Allocation

/-! ## The host's id lookup -/

section Lookup

variable {η : Type} (codec : BsonCodec) (factory : Option (Bytes → FactoryReply η))

/-- The node the host wrote for an id lookup, under whatever status. -/
def writtenLookup (spec : Document) : Option η :=
  match factory, codec.encode spec with
  | some create, .ok raw => (create raw).node
  | _, _ => none

/-- The call of `create_id_lookup_ast`, with the node that came with it. -/
def receiveIdLookup (spec : Document) (w : NodeWorld η) : Except ExtensionError ℕ × NodeWorld η :=
  let received := (writtenLookup codec factory spec).elim w fun node => (w.add (.host node)).2
  ((createIdLookupAst codec factory spec).map fun _ => w.nodes.length, received)

theorem writtenLookup_of_ok {spec : Document} {node : η}
    (created : createIdLookupAst codec factory spec = .ok node) :
    writtenLookup codec factory spec = some node := by
  unfold createIdLookupAst at created
  unfold writtenLookup
  cases factory with
  | none => cases created
  | some create =>
      cases encoded : codec.encode spec with
      | error e => simp [encoded] at created
      | ok raw =>
          simp only [encoded] at created ⊢
          split at created
          · cases created
          · split at created
            · split at created
              · cases created
              · next written =>
                cases created
                exact written
            · cases created

end Lookup

/-! ## `parse_expand` -/

/-- What a copy of `parse_expand` does with a candidate stage and an id lookup. -/
abbrev LookupBranch (ε η : Type) :=
  Document → Document → NodeWorld η → Except ε (Expanded ℕ) × NodeWorld η

namespace Reporting

variable {ε η : Type} (r : Reporting ε) (codec : BsonCodec) (table : StageTable ε)
  (lookup : LookupBranch ε η)

/-- The container of an expansion. -/
def expandInto (args : Bytes) : Expansion → NodeWorld η → Except ε (Expanded ℕ) × NodeWorld η
  | .selfStage, w =>
    let (ast, w) := astAlloc args w
    (.ok (expandedSingle ast), w)
  | .pipeline docs, w =>
    match pipelineStageArgBlobs codec table.name docs with
    | .error e => (.error (r.shared e), w)
    | .ok blobs =>
      let (asts, w) := astAllocAll blobs w
      (.ok (expandedMulti asts), w)
  | .withHostIdLookup extensionStage idLookup, w => lookup extensionStage idLookup w

/-- The closure of `parse_expand`. -/
def expandClosure (p : ParseObj) (w : NodeWorld η) : HookOutcome ε (Expanded ℕ) × NodeWorld η :=
  match codec.decode p.args with
  | .error e => (.error (.error (r.failedToParse e)), w)
  | .ok argsDoc =>
    match table.expand with
    | none =>
      let (ast, w) := astAlloc p.args w
      (.ok (expandedSingle ast), w)
    | some expand =>
      match expand argsDoc with
      | .error fault => (.error fault, w)
      | .ok ex =>
        let (result, w) := r.expandInto codec table lookup p.args ex w
        (attempt result, w)

/-- `parse_expand`, with the nodes of the call. -/
def parseExpand (p : ParseObj) : Delivery (Expanded ℕ) × NodeWorld η :=
  let (outcome, w) := r.expandClosure codec table lookup p .empty
  (r.deliver "panic during expand" outcome, w)

/-- The branch of the copies that take no id lookup. -/
def rejectLookup (e : ε) : LookupBranch ε η := fun _ _ w => (.error e, w)

end Reporting

/-! ## What an expansion makes -/

/-- What a stage's `expand` hook makes of its arguments; a stage without one stays itself. -/
def StageTable.expands {ε : Type} (table : StageTable ε) (argsDoc : Document) :
    HookOutcome ε Expansion :=
  match table.expand with
  | none => .ok .selfStage
  | some expand => expand argsDoc

/-- An expansion without a host node. -/
def Expansion.OwnStages : Expansion → Prop
  | .selfStage | .pipeline _ => True
  | .withHostIdLookup .. => False

section Shows

variable {ε η : Type}

/-- A container that owns these nodes, which are all that the call made. -/
structure Expanded.Owns (c : Expanded ℕ) (w : NodeWorld η) (nodes : List (AstNode η)) : Prop where
  kept : c.transferred = false
  asts : c.asts = List.range nodes.length
  nodes : w.nodes = nodes
  undestroyed : w.destroyed = []

/-- The result of an expansion shows its list of nodes: a container that owns them, or the error
with no node. -/
def Expanded.Shows (report : ExtensionError → ε) (result : Except ε (Expanded ℕ) × NodeWorld η)
    (listed : Except ExtensionError (List (AstNode η))) : Prop :=
  match listed with
  | .ok nodes => ∃ c, result.1 = .ok c ∧ c.Owns result.2 nodes
  | .error e => result = (.error (report e), .empty)

variable (r : Reporting ε) (codec : BsonCodec) (table : StageTable ε) (lookup : LookupBranch ε η)
  (factory : Option (Bytes → FactoryReply η))

/-- An expansion to own stages makes the nodes that `expansionNodes` lists. -/
theorem expandInto_shows (args : Bytes) {ex : Expansion} (own : ex.OwnStages) :
    Expanded.Shows r.shared (r.expandInto codec table lookup args ex .empty)
      (expansionNodes codec factory table.name args ex) := by
  cases ex with
  | withHostIdLookup _ _ => exact own.elim
  | selfStage => exact ⟨.single 0 false, rfl, rfl, rfl, rfl, rfl⟩
  | pipeline docs =>
      cases blobs : pipelineStageArgBlobs codec table.name docs with
      | error e =>
          simp [Expanded.Shows, expansionNodes, Reporting.expandInto, blobs, bind, Except.bind]
      | ok blobs' =>
          simp only [Expanded.Shows, expansionNodes, Reporting.expandInto, blobs, bind, Except.bind,
            pure, Except.pure, astAllocAll_eq]
          refine ⟨_, rfl, rfl, ?_, rfl, rfl⟩
          simp [Expanded.asts, expandedMulti, NodeWorld.empty, List.range_eq_range']

/-- What the hook returned decides what `parse_expand` does after it decoded the arguments. -/
theorem parseExpand_eq {p : ParseObj} {argsDoc : Document}
    (decoded : codec.decode p.args = .ok argsDoc) :
    r.parseExpand codec table lookup p =
      match table.expands argsDoc with
      | .error fault => (r.deliver "panic during expand" (.error fault), .empty)
      | .ok ex =>
        (r.deliver "panic during expand"
          (attempt (r.expandInto codec table lookup p.args ex .empty).1),
          (r.expandInto codec table lookup p.args ex .empty).2) := by
  unfold Reporting.parseExpand Reporting.expandClosure StageTable.expands
  rw [decoded]
  cases table.expand with
  | none => rfl
  | some expand =>
      simp only
      cases expand argsDoc with
      | error fault => rfl
      | ok ex => rfl

theorem parseExpand_undecoded {p : ParseObj} {e : String}
    (decoded : codec.decode p.args = .error e) :
    r.parseExpand codec table lookup p = (⟨r.status (r.failedToParse e), none⟩, .empty) := by
  unfold Reporting.parseExpand Reporting.expandClosure
  rw [decoded]
  rfl

/-! ## Containers are fresh -/

/-- A pipeline that is encoded is not empty. -/
theorem pipelineStageArgBlobs_nonempty {codec : BsonCodec} {name : String} {docs : List Document}
    {blobs : List Bytes} (made : pipelineStageArgBlobs codec name docs = .ok blobs) :
    blobs ≠ [] := by
  rintro rfl
  cases docs with
  | nil => cases made
  | cons d docs =>
      simp only [pipelineStageArgBlobs, List.isEmpty_cons, Bool.false_eq_true, if_false,
        stageArgBlobs] at made
      cases first : stageArgBlob codec name d with
      | error e => simp [first, bind, Except.bind] at made
      | ok blob =>
          cases rest : stageArgBlobs codec name docs <;>
            simp [first, rest, bind, Except.bind, pure, Except.pure] at made

/-- The containers that `parse_expand` delivers are fresh, if those of its lookup branch are. -/
theorem fresh_of_delivered
    (branch : ∀ extensionStage idLookup c,
      (lookup extensionStage idLookup .empty).1 = .ok c → c.Fresh) {p : ParseObj}
    {c : Expanded ℕ} (delivered : (r.parseExpand codec table lookup p).1.out = some c) :
    c.Fresh := by
  have single : (expandedSingle 0 : Expanded ℕ).Fresh :=
    ⟨rfl, by simp [Expanded.asts, expandedSingle], List.cons_ne_nil _ _⟩
  cases decoded : codec.decode p.args with
  | error e =>
      rw [parseExpand_undecoded r codec table lookup decoded] at delivered
      cases delivered
  | ok argsDoc =>
      rw [parseExpand_eq r codec table lookup decoded] at delivered
      cases expanded : table.expands argsDoc with
      | error fault =>
          rw [expanded] at delivered
          cases fault <;> cases delivered
      | ok ex =>
          rw [expanded] at delivered
          have made : (r.expandInto codec table lookup p.args ex .empty).1 = .ok c := by
            cases result : (r.expandInto codec table lookup p.args ex .empty).1 with
            | error e => simp [result] at delivered
            | ok c' => simpa [result] using delivered
          cases ex with
          | selfStage =>
              cases made
              exact single
          | withHostIdLookup extensionStage idLookup => exact branch _ _ _ made
          | pipeline docs =>
              cases blobs : pipelineStageArgBlobs codec table.name docs with
              | error e => simp [Reporting.expandInto, blobs] at made
              | ok blobs' =>
                  simp only [Reporting.expandInto, blobs, astAllocAll_eq, Except.ok.injEq] at made
                  subst made
                  refine ⟨rfl, List.nodup_range', ?_⟩
                  simpa [Expanded.asts, expandedMulti] using pipelineStageArgBlobs_nonempty blobs

end Shows

end ExtensionSdkMongodb

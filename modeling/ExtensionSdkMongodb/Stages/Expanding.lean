import ExtensionSdkMongodb.Stages.Parsing

/-!
# The nodes of an expansion

`parse_expand` of a source stage makes the nodes that `expansionNodes` lists and puts all of them
into its container, or makes none and fails. There are two exceptions. When the candidate stage is
in order and the host then refuses the id lookup, the candidate's node is left behind. And when the
hook fails with a host error whose code is `0`, the status reads as success and there is no
container (`parseExpand_settles_iff`).

The host gets the nodes by a transfer of the size that the container reports
(`parseExpand_nodes`). The copies for map and passthrough stages agree with the one for source
stages on expansions to own stages.
-/

set_option autoImplicit false

namespace ExtensionSdkMongodb.Stages

/-! ## Errors of expansions -/

section Errors

variable {η : Type} {codec : BsonCodec} {factory : Option (Bytes → FactoryReply η)}
  {name : String}

theorem stageArgBlob_error_fails {d : Document} {e : ExtensionError}
    (failed : stageArgBlob codec name d = .error e) : e.intoRawStatus.isOk = false := by
  unfold stageArgBlob at failed
  split at failed
  · cases failed
    rfl
  · cases failed
    rfl
  · split at failed
    · split at failed
      · cases failed
        rfl
      · next inner _ =>
        cases encoded : codec.encode inner with
        | ok bytes => simp [encoded, Except.mapError] at failed
        | error e' =>
            simp only [encoded, Except.mapError, Except.error.injEq] at failed
            subst failed
            rfl
    · cases failed
      rfl

theorem stageArgBlobs_error_fails {docs : List Document} {e : ExtensionError}
    (failed : stageArgBlobs codec name docs = .error e) : e.intoRawStatus.isOk = false := by
  induction docs with
  | nil => cases failed
  | cons d docs ih =>
      rw [stageArgBlobs] at failed
      cases first : stageArgBlob codec name d with
      | error e' =>
          simp only [first, bind, Except.bind, Except.error.injEq] at failed
          subst failed
          exact stageArgBlob_error_fails first
      | ok blob =>
          cases rest : stageArgBlobs codec name docs with
          | error e' =>
              simp only [first, rest, bind, Except.bind, Except.error.injEq] at failed
              subst failed
              exact ih rest
          | ok blobs => simp [first, rest, bind, Except.bind, pure, Except.pure] at failed

theorem pipelineStageArgBlobs_error_fails {docs : List Document} {e : ExtensionError}
    (failed : pipelineStageArgBlobs codec name docs = .error e) :
    e.intoRawStatus.isOk = false := by
  unfold pipelineStageArgBlobs at failed
  split at failed
  · cases failed
    rfl
  · exact stageArgBlobs_error_fails failed

/-- A refusal of the host is an error also as a status: its code is not that of success. -/
theorem createIdLookupAst_error_fails {spec : Document} {e : ExtensionError}
    (failed : createIdLookupAst codec factory spec = .error e) :
    e.intoRawStatus.isOk = false := by
  unfold createIdLookupAst at failed
  cases factory with
  | none =>
      cases failed
      rfl
  | some create =>
      cases encoded : codec.encode spec with
      | error e' =>
          simp only [encoded, Except.error.injEq] at failed
          subst failed
          rfl
      | ok raw =>
          simp only [encoded] at failed
          split at failed
          · cases failed
            rfl
          · next st _ =>
            by_cases okay : st.isOk = true
            · rw [if_pos okay] at failed
              split at failed
              · cases failed
                rfl
              · cases failed
            · rw [if_neg okay] at failed
              cases failed
              exact Bool.eq_false_iff.mpr okay

theorem expansionNodes_error_fails {args : Bytes} {ex : Expansion} {e : ExtensionError}
    (failed : expansionNodes codec factory name args ex = .error e) :
    e.intoRawStatus.isOk = false := by
  cases ex with
  | selfStage => cases failed
  | pipeline docs =>
      cases blobs : pipelineStageArgBlobs codec name docs with
      | error e' =>
          simp only [expansionNodes, blobs, bind, Except.bind, Except.error.injEq] at failed
          subst failed
          exact pipelineStageArgBlobs_error_fails blobs
      | ok _ => simp [expansionNodes, blobs, bind, Except.bind, pure, Except.pure] at failed
  | withHostIdLookup extensionStage idLookup =>
      cases blobs : pipelineStageArgBlobs codec name [extensionStage] with
      | error e' =>
          simp only [expansionNodes, blobs, bind, Except.bind, Except.error.injEq] at failed
          subst failed
          exact pipelineStageArgBlobs_error_fails blobs
      | ok list =>
          simp only [expansionNodes, blobs, bind, Except.bind] at failed
          split at failed
          · cases failed
            rfl
          · cases created : createIdLookupAst codec factory idLookup with
            | error e' =>
                simp only [created, Except.error.injEq] at failed
                subst failed
                exact createIdLookupAst_error_fails created
            | ok node => simp [created, pure, Except.pure] at failed

end Errors

/-! ## The branch of the id lookup -/

section Source

variable {ω η : Type} (codec : BsonCodec) (factory : Option (Bytes → FactoryReply η))
  (table : SourceStage.SourceTable ω)

/-- The blobs of one stage document are one blob. -/
theorem pipelineStageArgBlobs_singleton (name : String) (d : Document) :
    pipelineStageArgBlobs codec name [d] = (stageArgBlob codec name d).map fun blob => [blob] := by
  rw [pipelineStageArgBlobs, List.isEmpty_cons, if_neg Bool.false_ne_true, stageArgBlobs]
  cases stageArgBlob codec name d <;> rfl

/-- The candidate stage of an id lookup is in order, and the host refuses the lookup. -/
def LookupRefused (extensionStage idLookup : Document) : Prop :=
  (∃ blob, stageArgBlob codec table.name extensionStage = .ok blob) ∧
    ∃ e, createIdLookupAst codec factory idLookup = .error e

/-- The branch makes the two nodes, or none, unless the host refuses the lookup. -/
theorem expandLookup_shows (extensionStage idLookup : Document) (args : Bytes)
    (granted : ¬ LookupRefused codec factory table extensionStage idLookup) :
    Expanded.Shows id
      (SourceStage.expandLookup codec factory table extensionStage idLookup .empty)
      (expansionNodes codec factory table.name args
        (.withHostIdLookup extensionStage idLookup)) := by
  simp only [SourceStage.expandLookup, expansionNodes, pipelineStageArgBlobs_singleton]
  cases candidate : stageArgBlob codec table.name extensionStage with
  | error e => simp [Expanded.Shows, Except.map, bind, Except.bind]
  | ok blob =>
      cases created : createIdLookupAst codec factory idLookup with
      | error e => exact absurd ⟨⟨blob, candidate⟩, e, created⟩ granted
      | ok node =>
          simp only [Expanded.Shows, Except.map, bind, Except.bind, pure, Except.pure,
            receiveIdLookup, created, writtenLookup_of_ok codec factory created, Option.elim,
            NodeWorld.add, astAlloc]
          exact ⟨_, rfl, rfl, rfl, rfl, rfl⟩

/-- Every expansion of a source stage makes the nodes that `expansionNodes` lists, unless the host
refuses its lookup. -/
theorem sourceExpandInto_shows (args : Bytes) (ex : Expansion)
    (granted : ∀ extensionStage idLookup, ex = .withHostIdLookup extensionStage idLookup →
      ¬ LookupRefused codec factory table extensionStage idLookup) :
    Expanded.Shows id
      (Reporting.typed.expandInto codec table.stage
        (SourceStage.expandLookup codec factory table) args ex .empty)
      (expansionNodes codec factory table.name args ex) := by
  cases ex with
  | selfStage => exact expandInto_shows .typed codec table.stage _ factory _ trivial
  | pipeline docs => exact expandInto_shows .typed codec table.stage _ factory _ trivial
  | withHostIdLookup extensionStage idLookup =>
      exact expandLookup_shows codec factory table extensionStage idLookup _
        (granted extensionStage idLookup rfl)

/-- When the host refuses the lookup, the candidate's node was made and is not destroyed. -/
theorem expandLookup_refused {extensionStage idLookup : Document}
    (refused : LookupRefused codec factory table extensionStage idLookup) :
    (∃ e, createIdLookupAst codec factory idLookup = .error e ∧
      (SourceStage.expandLookup codec factory table extensionStage idLookup .empty).1 =
        .error e) ∧
    (SourceStage.expandLookup codec factory table extensionStage idLookup .empty).2.nodes ≠ [] ∧
    (SourceStage.expandLookup codec factory table extensionStage idLookup .empty).2.destroyed =
      [] := by
  obtain ⟨⟨blob, candidate⟩, e, created⟩ := refused
  simp only [SourceStage.expandLookup, pipelineStageArgBlobs_singleton, candidate, Except.map,
    receiveIdLookup, created, astAlloc]
  refine ⟨⟨e, rfl, rfl⟩, ?_, ?_⟩
  · cases writtenLookup codec factory idLookup <;>
      simp [NodeWorld.add, NodeWorld.empty]
  · cases writtenLookup codec factory idLookup <;> rfl

/-! ## Every node of a call is settled -/

/-- A call of `parse_expand` settles its nodes: an error comes with none left and without a
container, and success with a container that owns all of them. -/
structure Settles (result : Delivery (Expanded ℕ) × NodeWorld η) : Prop where
  failed : result.1.status.isOk = false →
    result.1.out = none ∧ ∀ i < result.2.nodes.length, i ∈ result.2.destroyed
  succeeded : result.1.status.isOk = true →
    ∃ c, result.1.out = some c ∧ c.Owns result.2 result.2.nodes

/-- A result that shows a list of nodes or a failing error settles its nodes. -/
theorem settles_of_shows {result : Except ExtensionError (Expanded ℕ) × NodeWorld η}
    {listed : Except ExtensionError (List (AstNode η))} (shows_ : Expanded.Shows id result listed)
    (fails : ∀ e, listed = .error e → e.intoRawStatus.isOk = false) :
    Settles (Reporting.typed.deliver "panic during expand" (attempt result.1), result.2) := by
  cases listed with
  | error e =>
      obtain rfl : result = (.error e, .empty) := shows_
      refine ⟨fun _ => ⟨rfl, fun i lt => absurd lt (Nat.not_lt_zero i)⟩, ?_⟩
      intro okay
      have failing : (Reporting.typed.status e).isOk = false := fails e rfl
      simp [failing] at okay
  | ok nodes =>
      obtain ⟨c, made, owns⟩ := shows_
      rw [made]
      refine ⟨fun fails => by simp at fails, fun _ => ⟨c, rfl, ?_⟩⟩
      exact ⟨owns.kept, by rw [owns.nodes]; exact owns.asts, rfl, owns.undestroyed⟩

/-- A fault of the hook makes no node, and settles that unless its status reads as success. -/
theorem settles_fault_iff (fault : Fault ExtensionError) :
    Settles (η := η) (Reporting.typed.deliver "panic during expand" (.error fault), .empty) ↔
      ∀ reason, fault ≠ .error (.hostError statusOkCode reason) := by
  cases fault with
  | panic =>
      refine ⟨?_, fun _ => ⟨?_, ?_⟩⟩
      · intro _ reason same
        cases same
      · exact fun _ => ⟨rfl, fun i lt => absurd lt (Nat.not_lt_zero i)⟩
      · intro okay
        cases okay
  | error e =>
      constructor
      · intro settles reason same
        cases same
        obtain ⟨c, delivered, _⟩ := settles.succeeded rfl
        cases delivered
      · intro fails
        refine ⟨fun _ => ⟨rfl, fun i lt => absurd lt (Nat.not_lt_zero i)⟩, ?_⟩
        intro okay
        obtain ⟨reason, rfl⟩ := (ExtensionError.intoRawStatus_isOk e).mp okay
        exact absurd rfl (fails reason)

/-- A refused lookup leaves the candidate's node behind. -/
theorem not_settles_of_refused {extensionStage idLookup : Document}
    (refused : LookupRefused codec factory table extensionStage idLookup) :
    ¬ Settles (Reporting.typed.deliver "panic during expand"
        (attempt (SourceStage.expandLookup codec factory table extensionStage idLookup .empty).1),
      (SourceStage.expandLookup codec factory table extensionStage idLookup .empty).2) := by
  intro settles
  obtain ⟨⟨e, created, result⟩, made, undestroyed⟩ :=
    expandLookup_refused codec factory table refused
  have fails : (Reporting.typed.status e).isOk = false := createIdLookupAst_error_fails created
  rw [result] at settles
  have destroyed := (settles.failed fails).2 0 (List.length_pos_iff.mpr made)
  rw [undestroyed] at destroyed
  cases destroyed

/-- **`parse_expand` settles its nodes exactly when the host does not refuse the lookup of a
candidate that is in order, and the hook does not fail with a host error that reads as success.** -/
theorem parseExpand_settles_iff (p : ParseObj) :
    Settles (SourceStage.parseExpand codec factory table p) ↔
      ∀ argsDoc, codec.decode p.args = .ok argsDoc →
        (∀ extensionStage idLookup,
          table.expandInner argsDoc = .ok (.withHostIdLookup extensionStage idLookup) →
            ¬ LookupRefused codec factory table extensionStage idLookup) ∧
        ∀ reason, table.expandInner argsDoc ≠ .error (.error (.hostError statusOkCode reason)) := by
  rw [SourceStage.parseExpand]
  cases decoded : codec.decode p.args with
  | error e =>
      rw [parseExpand_undecoded _ _ _ _ decoded]
      refine ⟨?_, fun _ => ⟨?_, ?_⟩⟩
      · intro _ argsDoc found
        cases found
      · exact fun _ => ⟨rfl, fun i lt => absurd lt (Nat.not_lt_zero i)⟩
      · intro okay
        rw [Reporting.typed.failedToParse_fails] at okay
        cases okay
  | ok argsDoc =>
      rw [parseExpand_eq _ _ _ _ decoded]
      have hook : table.stage.expands argsDoc = table.expandInner argsDoc := rfl
      rw [hook]
      cases expanded : table.expandInner argsDoc with
      | error fault =>
          rw [settles_fault_iff]
          constructor
          · intro reads argsDoc' found
            cases found
            rw [expanded]
            refine ⟨?_, ?_⟩
            · intro extensionStage idLookup impossible
              cases impossible
            · intro reason same
              cases same
              exact reads reason rfl
          · intro each reason same
            exact (each argsDoc rfl).2 reason (by rw [expanded, same])
      | ok ex =>
          constructor
          · intro settles argsDoc' found
            cases found
            rw [expanded]
            refine ⟨?_, fun reason impossible => by cases impossible⟩
            intro extensionStage idLookup same refused
            cases same
            exact not_settles_of_refused codec factory table refused settles
          · intro each
            have shown := sourceExpandInto_shows codec factory table p.args ex
              fun extensionStage idLookup same =>
                (each argsDoc rfl).1 extensionStage idLookup (same ▸ expanded)
            exact settles_of_shows shown fun e => expansionNodes_error_fails

end Source

/-- A source stage that asks for an id lookup behind itself. -/
def echoLookupSource : SourceStage.SourceTable Unit :=
  { echoSource with expandInner := fun _ => .ok (.withHostIdLookup (stageDocument "$echo" []) []) }

/-- A host that refuses every id lookup. -/
def refusingFactory : Bytes → FactoryReply ℕ := fun _ => ⟨some ⟨72, "no lookup"⟩, none⟩

/-- A refused lookup fails with the host's status, and the candidate's node is neither in a
container nor destroyed. -/
theorem parseExpand_leaks_candidate :
    (SourceStage.parseExpand echoCodec (some refusingFactory) echoLookupSource
        ⟨[5, 0, 0, 0, 0]⟩).1.status.code = 72 ∧
      (SourceStage.parseExpand echoCodec (some refusingFactory) echoLookupSource
        ⟨[5, 0, 0, 0, 0]⟩).2 = ⟨[.extension [5, 0, 0, 0, 0]], []⟩ ∧
      ¬ Settles (SourceStage.parseExpand echoCodec (some refusingFactory) echoLookupSource
        ⟨[5, 0, 0, 0, 0]⟩) := by
  refine ⟨rfl, rfl, fun settles => ?_⟩
  have destroyed := (settles.failed rfl).2 0 Nat.zero_lt_one
  cases destroyed

/-! ## The nodes that reach the host -/

section Transfer

variable {ε η : Type}

/-- What the host holds after `parse_expand` and a transfer of the size the container reports: a
status, and the nodes in its array. -/
def expandAndTransfer (transfer : Expanded ℕ → ℕ → Status × List ℕ × Expanded ℕ)
    (result : Delivery (Expanded ℕ) × NodeWorld η) : Status × List (AstNode η) :=
  match result.1.out with
  | none => (result.1.status, [])
  | some c =>
    let (status, given, _) := transfer c c.size
    (status, given.filterMap fun i => result.2.nodes[i]?)

theorem range_filterMap_getElem? {α : Type} (l : List α) :
    ((List.range l.length).filterMap fun i => l[i]?) = l := by
  induction l with
  | nil => rfl
  | cons a l ih =>
      rw [List.length_cons, List.range_succ_eq_map, List.filterMap_cons, List.filterMap_map]
      simpa [Function.comp_def] using ih

/-- What the host holds of a list of nodes: the nodes, or the status of the error. -/
def received (r : Reporting ε) (report : ExtensionError → ε) :
    Except ExtensionError (List (AstNode η)) → Status × List (AstNode η)
  | .ok nodes => (statusOk, nodes)
  | .error e => (r.status (report e), [])

/-- The host receives the nodes an expansion shows, or the status of its error. -/
theorem expandAndTransfer_of_shows (r : Reporting ε)
    {result : Except ε (Expanded ℕ) × NodeWorld η}
    {listed : Except ExtensionError (List (AstNode η))} {report : ExtensionError → ε}
    (shown : Expanded.Shows report result listed) :
    expandAndTransfer r.expTransfer
        (r.deliver "panic during expand" (attempt result.1), result.2) =
      received r report listed := by
  cases listed with
  | error e =>
      obtain rfl : result = (.error (report e), .empty) := shown
      rfl
  | ok nodes =>
      obtain ⟨c, made, owns⟩ := shown
      rw [made]
      simp only [expandAndTransfer, attempt_ok, deliver_ok, Reporting.expTransfer, ne_eq,
        not_true_eq_false, if_false, owns.asts, owns.nodes, range_filterMap_getElem?, received]

end Transfer

/-! ## What the nodes say -/

/-- The stage documents an expansion is made of. -/
def stageDocuments : Expansion → List Document
  | .selfStage => []
  | .pipeline docs => docs
  | .withHostIdLookup extensionStage _ => [extensionStage]

/-- A node of the extension with the arguments of a stage document. -/
def IsNodeOf {η : Type} (codec : BsonCodec) (name : String) (d : Document) (node : AstNode η) :
    Prop :=
  ∃ inner args, d = stageDocument name inner ∧ node = .extension args ∧
    codec.decode args = .ok inner

/-- The nodes an expansion should give the host. The stage itself is one node with the arguments
of the parse node. A pipeline gives a node for each stage document, in order, and is refused
exactly when it is empty or has something else than a stage document. A candidate stage with an id
lookup gives the candidate's node and then the host's. -/
def ExpandsAs {η : Type} (codec : BsonCodec) (name : String) (args : Bytes)
    (createLookup : Document → Except ExtensionError η) (ex : Expansion)
    (held : Status × List (AstNode η)) : Prop :=
  match ex with
  | .selfStage => held = (statusOk, [.extension args])
  | .pipeline docs =>
    (held.1.isOk = true ↔ docs ≠ [] ∧ ∀ d ∈ docs, ∃ inner, d = stageDocument name inner) ∧
      (held.1.isOk = true → List.Forall₂ (IsNodeOf codec name) docs held.2)
  | .withHostIdLookup extensionStage idLookup =>
    ∀ inner node, extensionStage = stageDocument name inner → createLookup idLookup = .ok node →
      ∃ candidate, held = (statusOk, [candidate, .host node]) ∧
        IsNodeOf codec name extensionStage candidate

section Blobs

variable {codec : BsonCodec} {name : String}

theorem stageArgBlob_ok_iff {d : Document} {blob : Bytes} :
    stageArgBlob codec name d = .ok blob ↔
      ∃ inner, d = stageDocument name inner ∧ codec.encode inner = .ok blob := by
  constructor
  · intro made
    rcases d with _ | ⟨⟨key, value⟩, _ | ⟨extra, rest⟩⟩
    · simp [stageArgBlob] at made
    · by_cases named : key = name
      · subst named
        cases value with
        | document inner =>
            refine ⟨inner, rfl, ?_⟩
            cases encoded : codec.encode inner with
            | error e => simp [stageArgBlob, Bson.asDocument, encoded, Except.mapError] at made
            | ok bytes =>
                simpa [stageArgBlob, Bson.asDocument, encoded, Except.mapError] using made
        | _ => simp [stageArgBlob, Bson.asDocument] at made
      · simp [stageArgBlob, named] at made
    · simp [stageArgBlob] at made
  · rintro ⟨inner, rfl, encoded⟩
    exact stageArgBlob_ok codec name encoded

/-- The blobs of stage documents, in order: one for each, if each is a stage document. -/
theorem stageArgBlobs_ok_iff {docs : List Document} {blobs : List Bytes} :
    stageArgBlobs codec name docs = .ok blobs ↔
      List.Forall₂ (fun d blob => stageArgBlob codec name d = .ok blob) docs blobs := by
  induction docs generalizing blobs with
  | nil =>
      constructor
      · intro made
        cases made
        exact .nil
      · intro each
        cases each
        rfl
  | cons d docs ih =>
      constructor
      · intro made
        rw [stageArgBlobs] at made
        cases first : stageArgBlob codec name d with
        | error e => simp [first, bind, Except.bind] at made
        | ok blob =>
            cases rest : stageArgBlobs codec name docs with
            | error e => simp [first, rest, bind, Except.bind] at made
            | ok blobs' =>
                simp only [first, rest, bind, Except.bind, pure, Except.pure,
                  Except.ok.injEq] at made
                subst made
                exact .cons first (ih.mp rest)
      · intro each
        cases each with
        | cons first rest =>
            rw [stageArgBlobs, first, ih.mpr rest]
            rfl

theorem pipelineStageArgBlobs_forall₂ {docs : List Document} {blobs : List Bytes}
    (made : pipelineStageArgBlobs codec name docs = .ok blobs) :
    List.Forall₂ (fun d blob => stageArgBlob codec name d = .ok blob) docs blobs := by
  unfold pipelineStageArgBlobs at made
  split at made
  · cases made
  · exact stageArgBlobs_ok_iff.mp made

/-- **A pipeline is encoded exactly if it has stages and all of them are stage documents.** -/
theorem pipelineStageArgBlobs_ok_iff {docs : List Document}
    (roundTrips : ∀ inner, stageDocument name inner ∈ docs → codec.RoundTrips inner) :
    (∃ blobs, pipelineStageArgBlobs codec name docs = .ok blobs) ↔
      docs ≠ [] ∧ ∀ d ∈ docs, ∃ inner, d = stageDocument name inner := by
  constructor
  · rintro ⟨blobs, made⟩
    refine ⟨?_, fun d mem => ?_⟩
    · rintro rfl
      cases made
    · have each := pipelineStageArgBlobs_forall₂ made
      obtain ⟨i, lt, rfl⟩ := List.mem_iff_getElem.mp mem
      have first := each.get lt (each.length_eq ▸ lt)
      obtain ⟨inner, same, _⟩ := stageArgBlob_ok_iff.mp first
      exact ⟨inner, same⟩
  · rintro ⟨stages, each⟩
    unfold pipelineStageArgBlobs
    rw [if_neg (by simpa using stages)]
    have made : ∀ d ∈ docs, ∃ blob, stageArgBlob codec name d = .ok blob := by
      intro d mem
      obtain ⟨inner, rfl⟩ := each d mem
      obtain ⟨blob, encoded, _⟩ := roundTrips inner mem
      exact ⟨blob, stageArgBlob_ok codec name encoded⟩
    choose! blob encoded using made
    refine ⟨docs.map blob, stageArgBlobs_ok_iff.mpr ?_⟩
    rw [List.forall₂_map_right_iff]
    exact List.forall₂_same.mpr encoded

/-- The blobs of a pipeline are the arguments of its stages. -/
theorem isNodeOf_blobs {η : Type} {docs : List Document} {blobs : List Bytes}
    (roundTrips : ∀ inner, stageDocument name inner ∈ docs → codec.RoundTrips inner)
    (made : List.Forall₂ (fun d blob => stageArgBlob codec name d = .ok blob) docs blobs) :
    List.Forall₂ (IsNodeOf codec name) docs (blobs.map (.extension : Bytes → AstNode η)) := by
  induction made with
  | nil => exact .nil
  | cons first _ ih =>
      obtain ⟨inner, rfl, encoded⟩ := stageArgBlob_ok_iff.mp first
      obtain ⟨blob, again, decoded⟩ := roundTrips inner List.mem_cons_self
      cases encoded.symm.trans again
      exact .cons ⟨inner, _, rfl, rfl, decoded⟩
        (ih fun inner' mem => roundTrips inner' (List.mem_cons_of_mem _ mem))

end Blobs

section Nodes

variable {ω η : Type} {codec : BsonCodec} {factory : Option (Bytes → FactoryReply η)}

/-- The nodes that `expansionNodes` lists are those the host should receive. -/
theorem expansionNodes_expandsAs {name : String} {ex : Expansion}
    (roundTrips : ∀ inner, stageDocument name inner ∈ stageDocuments ex → codec.RoundTrips inner)
    (args : Bytes) :
    ExpandsAs codec name args (createIdLookupAst codec factory) ex
      (received .typed id (expansionNodes codec factory name args ex)) := by
  cases ex with
  | selfStage => rfl
  | pipeline docs =>
      have inDocs : ∀ inner, stageDocument name inner ∈ docs → codec.RoundTrips inner := roundTrips
      have taken := pipelineStageArgBlobs_ok_iff inDocs
      cases blobs : pipelineStageArgBlobs codec name docs with
      | error e =>
          have fails : (Reporting.typed.status e).isOk = false :=
            pipelineStageArgBlobs_error_fails blobs
          simp only [ExpandsAs, expansionNodes, blobs, bind, Except.bind, received, id, fails]
          refine ⟨?_, fun okay => by cases okay⟩
          rw [← taken, blobs]
          simp
      | ok blobs' =>
          simp only [ExpandsAs, expansionNodes, blobs, bind, Except.bind, pure, Except.pure,
            received, statusOk_isOk, true_iff]
          exact ⟨taken.mp ⟨blobs', blobs⟩,
            fun _ => isNodeOf_blobs inDocs (pipelineStageArgBlobs_forall₂ blobs)⟩
  | withHostIdLookup extensionStage idLookup =>
      rintro inner node rfl created
      obtain ⟨blob, encoded, decoded⟩ := roundTrips inner List.mem_cons_self
      refine ⟨.extension blob, ?_, inner, blob, rfl, rfl, decoded⟩
      have candidate : stageArgBlob codec name (stageDocument name inner) = .ok blob :=
        stageArgBlob_ok codec name encoded
      simp [received, expansionNodes, pipelineStageArgBlobs_singleton, candidate, Except.map,
        created, bind, Except.bind, pure, Except.pure]

/-- A copy of `parse_expand` gives the host the nodes of an expansion to own stages. -/
theorem expandAndTransfer_own {ε : Type} (r : Reporting ε) (table : StageTable ε)
    (lookup : LookupBranch ε η) {p : ParseObj} {argsDoc : Document} {ex : Expansion}
    (decoded : codec.decode p.args = .ok argsDoc) (expanded : table.expands argsDoc = .ok ex)
    (own : ex.OwnStages) :
    expandAndTransfer r.expTransfer (r.parseExpand codec table lookup p) =
      received r r.shared (expansionNodes codec factory table.name p.args ex) := by
  rw [parseExpand_eq r codec table lookup decoded, expanded]
  exact expandAndTransfer_of_shows r (expandInto_shows r codec table lookup factory p.args own)

/-- **Of a source stage the host receives the nodes of the expansion of its parse node**, whatever
the hook and the host answer. -/
theorem expandAndTransfer_source (table : SourceStage.SourceTable ω) (p : ParseObj) :
    expandAndTransfer SourceStage.expTransfer (SourceStage.parseExpand codec factory table p) =
      received .typed id
        (ExtensionSdkMongodb.parseExpand codec factory table.name table.expandInner p.args) := by
  unfold SourceStage.parseExpand ExtensionSdkMongodb.parseExpand expandClosure
  cases decoded : codec.decode p.args with
  | error e =>
      rw [parseExpand_undecoded .typed codec _ _ decoded]
      rfl
  | ok argsDoc =>
      rw [parseExpand_eq .typed codec _ _ decoded]
      have hook : table.stage.expands argsDoc = table.expandInner argsDoc := rfl
      rw [hook]
      cases expanded : table.expandInner argsDoc with
      | error fault =>
          simp only [expanded]
          cases fault <;> rfl
      | ok ex =>
          have delivered : expandAndTransfer SourceStage.expTransfer
              (Reporting.typed.deliver "panic during expand"
                (attempt (Reporting.typed.expandInto codec table.stage
                  (SourceStage.expandLookup codec factory table) p.args ex .empty).1),
                (Reporting.typed.expandInto codec table.stage
                  (SourceStage.expandLookup codec factory table) p.args ex .empty).2) =
              received .typed id (expansionNodes codec factory table.name p.args ex) := by
            by_cases refused : ∃ extensionStage idLookup,
                ex = .withHostIdLookup extensionStage idLookup ∧
                  LookupRefused codec factory table extensionStage idLookup
            · obtain ⟨extensionStage, idLookup, rfl, refusal⟩ := refused
              obtain ⟨⟨e, failed, result⟩, _⟩ := expandLookup_refused codec factory table refusal
              obtain ⟨⟨blob, candidate⟩, _⟩ := refusal
              simp [Reporting.expandInto, result, expandAndTransfer, received, expansionNodes,
                pipelineStageArgBlobs_singleton, candidate, failed, Except.map, bind, Except.bind,
                Reporting.typed]
            · exact expandAndTransfer_of_shows .typed
                (sourceExpandInto_shows codec factory table p.args ex
                  fun extensionStage idLookup same refusal =>
                    refused ⟨extensionStage, idLookup, same, refusal⟩)
          simp only [expanded]
          refine delivered.trans (congrArg _ ?_)
          cases expansionNodes codec factory table.name p.args ex <;> rfl

/-- The two ways to report an error agree on whether it is one, and on the nodes. -/
theorem received_agree {listed : Except ExtensionError (List (AstNode η))}
    (fails : ∀ e, listed = .error e → e.intoRawStatus.isOk = false) :
    (received .text ExtensionError.message listed).1.isOk = (received .typed id listed).1.isOk ∧
      (received .text ExtensionError.message listed).2 = (received .typed id listed).2 := by
  cases listed with
  | ok nodes => exact ⟨rfl, rfl⟩
  | error e => exact ⟨(fails e rfl).symm, rfl⟩

/-- **`parse_expand` and a transfer give the host the nodes of the expansion**: for a source stage
those of every expansion, and map and passthrough stages agree with it on expansions to own
stages. -/
theorem parseExpand_nodes (source : SourceStage.SourceTable ω) (map : MapTransform.MapTable)
    (pass : Passthrough.StageGlobals) (mapName : map.name = source.name)
    (passName : pass.name = source.name) {p : ParseObj} {argsDoc : Document} {ex : Expansion}
    (decoded : codec.decode p.args = .ok argsDoc)
    (sourceExpands : source.stage.expands argsDoc = .ok ex)
    (mapExpands : map.stage.expands argsDoc = .ok ex)
    (passExpands : pass.stage.expands argsDoc = .ok ex)
    (roundTrips : ∀ inner, stageDocument source.name inner ∈ stageDocuments ex →
      codec.RoundTrips inner) :
    let sourceHeld := expandAndTransfer SourceStage.expTransfer
      (SourceStage.parseExpand codec factory source p)
    let mapHeld := expandAndTransfer MapTransform.expTransfer
      (MapTransform.parseExpand (η := η) codec map p)
    let passHeld := expandAndTransfer Passthrough.expTransfer
      (Passthrough.parseExpand (η := η) codec pass p)
    ExpandsAs codec source.name p.args (createIdLookupAst codec factory) ex sourceHeld ∧
      (ex.OwnStages →
        (mapHeld.1.isOk = sourceHeld.1.isOk ∧ mapHeld.2 = sourceHeld.2) ∧
          passHeld.1.isOk = sourceHeld.1.isOk ∧ passHeld.2 = sourceHeld.2) := by
  intro sourceHeld mapHeld passHeld
  have listed : ExpandsAs codec source.name p.args (createIdLookupAst codec factory) ex
      (received .typed id (expansionNodes codec factory source.name p.args ex)) :=
    expansionNodes_expandsAs roundTrips p.args
  have whole : ExtensionSdkMongodb.parseExpand codec factory source.name source.expandInner p.args =
      expansionNodes codec factory source.name p.args ex := by
    have hook : source.expandInner argsDoc = .ok ex := sourceExpands
    rw [ExtensionSdkMongodb.parseExpand, expandClosure, decoded]
    simp only [hook]
    cases expansionNodes codec factory source.name p.args ex <;> rfl
  have sourceReceives : sourceHeld =
      received .typed id (expansionNodes codec factory source.name p.args ex) := by
    rw [← whole]
    exact expandAndTransfer_source source p
  refine ⟨by rwa [sourceReceives], fun own => ?_⟩
  have mapOwn : mapHeld = received .text ExtensionError.message
      (expansionNodes codec factory source.name p.args ex) := by
    rw [← mapName]
    exact expandAndTransfer_own .text map.stage _ decoded mapExpands own
  have passOwn : passHeld = received .text ExtensionError.message
      (expansionNodes codec factory source.name p.args ex) := by
    rw [← passName]
    exact expandAndTransfer_own .text pass.stage _ decoded passExpands own
  rw [sourceReceives, mapOwn, passOwn]
  have agree := @received_agree _ (expansionNodes codec factory source.name p.args ex)
    fun e => expansionNodes_error_fails
  exact ⟨agree, agree⟩

end Nodes

section Run

/-- A pipeline of two stages without arguments. -/
def echoTwice : Expansion := .pipeline [stageDocument "$echo" [], stageDocument "$echo" []]

def echoTwiceSource : SourceStage.SourceTable Unit :=
  { echoSource with expandInner := fun _ => .ok echoTwice }

def echoTwiceMap : MapTransform.MapTable :=
  { echoMap with expandFromArgsDoc := some fun _ => .ok echoTwice }

def echoTwicePass : Passthrough.StageGlobals :=
  { echoPass with expandFromArgsDoc := some fun _ => .ok echoTwice }

theorem parseExpand_nodes_echo :
    List.Forall₂ (IsNodeOf echoCodec "$echo") [stageDocument "$echo" [], stageDocument "$echo" []]
        (expandAndTransfer SourceStage.expTransfer
          (SourceStage.parseExpand echoCodec (some refusingFactory) echoTwiceSource
            ⟨[5, 0, 0, 0, 0]⟩)).2 ∧
      (expandAndTransfer MapTransform.expTransfer
          (MapTransform.parseExpand (η := ℕ) echoCodec echoTwiceMap ⟨[5, 0, 0, 0, 0]⟩)).2 =
        [.extension [5, 0, 0, 0, 0], .extension [5, 0, 0, 0, 0]] := by
  have roundTrips : ∀ inner, stageDocument "$echo" inner ∈ stageDocuments echoTwice →
      echoCodec.RoundTrips inner := by
    intro inner mem
    obtain rfl : inner = [] := by simpa [stageDocuments, echoTwice, stageDocument] using mem
    exact ⟨_, rfl, rfl⟩
  have decoded : echoCodec.decode (⟨[5, 0, 0, 0, 0]⟩ : ParseObj).args = .ok [] := rfl
  obtain ⟨⟨_, nodes⟩, agree⟩ := @parseExpand_nodes _ _ _ (some refusingFactory)
    echoTwiceSource echoTwiceMap echoTwicePass rfl rfl _ _ _ decoded rfl rfl rfl roundTrips
  have okay : (expandAndTransfer SourceStage.expTransfer
      (SourceStage.parseExpand echoCodec (some refusingFactory) echoTwiceSource
        ⟨[5, 0, 0, 0, 0]⟩)).1.isOk = true := rfl
  exact ⟨nodes okay, (agree trivial).1.2.trans rfl⟩

end Run

/-! ## Containers of expansions -/

section Containers

variable {ω η : Type} {codec : BsonCodec} {factory : Option (Bytes → FactoryReply η)}

/-- The container of a candidate stage and an id lookup is fresh. -/
theorem expandLookup_fresh {table : SourceStage.SourceTable ω}
    {extensionStage idLookup : Document} {c : Expanded ℕ}
    (made : (SourceStage.expandLookup codec factory table extensionStage idLookup .empty).1 =
      .ok c) : c.Fresh := by
  simp only [SourceStage.expandLookup, pipelineStageArgBlobs_singleton] at made
  cases candidate : stageArgBlob codec table.name extensionStage with
  | error e => simp [candidate, Except.map] at made
  | ok blob =>
      cases created : createIdLookupAst codec factory idLookup with
      | error e => simp [candidate, created, Except.map, receiveIdLookup] at made
      | ok node =>
          simp only [candidate, created, Except.map, receiveIdLookup, Except.ok.injEq] at made
          subst made
          have distinct : ([0, 1] : List ℕ).Nodup := by decide
          exact ⟨rfl, distinct, List.cons_ne_nil _ _⟩

/-- The containers that `parse_expand` delivers are fresh, in each of its copies. -/
theorem parseExpand_fresh (source : SourceStage.SourceTable ω) (map : MapTransform.MapTable)
    (pass : Passthrough.StageGlobals) {p : ParseObj} {c : Expanded ℕ}
    (delivered : (SourceStage.parseExpand codec factory source p).1.out = some c ∨
      (MapTransform.parseExpand (η := η) codec map p).1.out = some c ∨
      (Passthrough.parseExpand (η := η) codec pass p).1.out = some c) : c.Fresh := by
  rcases delivered with delivered | delivered | delivered
  · exact fresh_of_delivered .typed codec source.stage _ (fun _ _ _ => expandLookup_fresh) delivered
  · exact fresh_of_delivered .text codec map.stage _ (fun _ _ _ made => by cases made) delivered
  · exact fresh_of_delivered .text codec pass.stage _ (fun _ _ _ made => by cases made) delivered

/-- **The containers of all three kinds of stages keep their nodes accounted for in exactly the runs
that repeat no transfer.** -/
theorem containers_keep_nodes_iff {ν : Type} {c : Expanded ν} (fresh : c.Fresh)
    (calls : List ArrayCall) :
    (SourceStage.operateArray.Along (KeepsNodes SourceStage.operateArray c.asts) (.handed c) calls ↔
      SourceStage.operateArray.Along (fun s call => ¬ s.Repeats call) (.handed c) calls) ∧
    (MapTransform.operateArray.Along (KeepsNodes MapTransform.operateArray c.asts) (.handed c)
        calls ↔
      MapTransform.operateArray.Along (fun s call => ¬ s.Repeats call) (.handed c) calls) ∧
    (Passthrough.operateArray.Along (KeepsNodes Passthrough.operateArray c.asts) (.handed c) calls ↔
      Passthrough.operateArray.Along (fun s call => ¬ s.Repeats call) (.handed c) calls) :=
  ⟨operateArray_keeps_iff .typed fresh calls, operateArray_keeps_iff .text fresh calls,
    operateArray_keeps_iff .text fresh calls⟩

theorem containers_keep_nodes_pair :
    SourceStage.operateArray.Along
      (KeepsNodes SourceStage.operateArray (expandedMulti [0, 1]).asts)
      (.handed (expandedMulti [0, 1])) [.size, .transfer 1, .transfer 2, .destroy] := by
  have fresh : (expandedMulti [0, 1]).Fresh := ⟨rfl, by decide, List.cons_ne_nil _ _⟩
  refine (containers_keep_nodes_iff fresh [.size, .transfer 1, .transfer 2, .destroy]).1.mpr ?_
  refine ⟨?_, ?_, ?_, ?_, trivial⟩
  · rintro ⟨c, held, transferred, call⟩
    cases call
  · rintro ⟨c, held, transferred, call⟩
    cases held
    cases transferred
  · rintro ⟨c, held, transferred, call⟩
    cases held
    cases transferred
  · rintro ⟨c, held, transferred, call⟩
    cases call

/-- A second transfer of a single node gives it away a second time. -/
theorem transfer_twice_gives_twice :
    (SourceStage.operateArray.after (.handed (expandedSingle 0)) [.transfer 1, .transfer 1]).given =
        [0, 0] ∧
      ¬ SourceStage.operateArray.Along (KeepsNodes SourceStage.operateArray [0])
        (.handed (expandedSingle 0)) [.transfer 1, .transfer 1] := by
  refine ⟨rfl, fun keeps => ?_⟩
  have twice : [0, 0].Sublist [0] := keeps.2.1.2.given
  exact absurd twice (by decide)

end Containers

end ExtensionSdkMongodb.Stages

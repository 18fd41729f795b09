import ExtensionSdkMongodb.Stages.Expanding

/-!
# Serialized stages

A logical stage is serialized to be sent to another node of the cluster, where `desc_parse` reads
it. The arguments of a stage that the planner can reach were encoded from a document, by
`desc_parse` or by the check of an expanded pipeline (`Planner.Reaches.encoded`), and so the bytes
come back as they were. But the check of a pipeline does not ask for empty arguments where the
stage takes none, and `desc_parse` does: a stage with arguments it does not take is planned and then
refused by the other node (`serialize_reparses_iff`).
-/

set_option autoImplicit false

namespace ExtensionSdkMongodb

/-- What was encoded decodes to itself. -/
def BsonCodec.Faithful (codec : BsonCodec) : Prop :=
  ∀ d bytes, codec.encode d = .ok bytes → codec.decode bytes = .ok d

namespace Stages

/-! ## The stages a planner can reach -/

/-- The functions that make logical stages `L` of encoded stage documents, with the nodes the host
holds after an expansion and its transfer. -/
structure Planner (η L : Type) where
  descParse : Bytes → Delivery ParseObj
  expanded : ParseObj → List (AstNode η)
  astBind : Option CatalogContext → AstObj → Delivery L
  logClone : L → Delivery L
  args : L → Bytes

namespace Planner

variable {η L : Type}

/-- Parse nodes, parsed or cloned. -/
inductive Parses (planner : Planner η L) : ParseObj → Prop where
  | parse {stageBson : Bytes} {p : ParseObj} (made : (planner.descParse stageBson).out = some p) :
      Parses planner p
  | clone {p q : ParseObj} (of : Parses planner p) (made : (parseClone p).out = some q) :
      Parses planner q

/-- AST nodes of the extension, expanded or cloned. -/
inductive Expands (planner : Planner η L) : AstObj → Prop where
  | expand {p : ParseObj} {args : Bytes} (of : Parses planner p)
      (made : .extension args ∈ planner.expanded p) : Expands planner ⟨args⟩
  | clone {a b : AstObj} (of : Expands planner a) (made : (astClone a).out = some b) :
      Expands planner b

/-- Logical stages, bound or cloned. -/
inductive Reaches (planner : Planner η L) : L → Prop where
  | bind {a : AstObj} {catalog : Option CatalogContext} {l : L} (of : Expands planner a)
      (made : (planner.astBind catalog a).out = some l) : Reaches planner l
  | clone {l m : L} (of : Reaches planner l) (made : (planner.logClone l).out = some m) :
      Reaches planner m

/-- Bytes that a document was encoded to. -/
def Encoded (codec : BsonCodec) (args : Bytes) : Prop := ∃ d, codec.encode d = .ok args

/-- A planner whose functions keep arguments encoded. -/
structure KeepsEncoded (planner : Planner η L) (codec : BsonCodec) : Prop where
  parse : ∀ stageBson p, (planner.descParse stageBson).out = some p → Encoded codec p.args
  expand : ∀ p args, Encoded codec p.args → .extension args ∈ planner.expanded p →
    Encoded codec args
  bind : ∀ catalog a l, (planner.astBind catalog a).out = some l → planner.args l = a.args
  clone : ∀ l m, (planner.logClone l).out = some m → planner.args m = planner.args l

variable {planner : Planner η L} {codec : BsonCodec}

theorem Parses.encoded (keeps : planner.KeepsEncoded codec) {p : ParseObj}
    (parses : planner.Parses p) : Encoded codec p.args := by
  induction parses with
  | parse made => exact keeps.parse _ _ made
  | clone _ made ih =>
      cases made
      exact ih

theorem Expands.encoded (keeps : planner.KeepsEncoded codec) {a : AstObj}
    (expands : planner.Expands a) : Encoded codec a.args := by
  induction expands with
  | expand of made => exact keeps.expand _ _ (of.encoded keeps) made
  | clone _ made ih =>
      cases made
      exact ih

/-- **The arguments of every reachable logical stage were encoded from a document.** -/
theorem Reaches.encoded (keeps : planner.KeepsEncoded codec) {l : L} (reaches : planner.Reaches l) :
    Encoded codec (planner.args l) := by
  induction reaches with
  | bind of made =>
      rw [keeps.bind _ _ _ made]
      exact of.encoded keeps
  | clone _ made ih =>
      rw [keeps.clone _ _ made]
      exact ih

end Planner

/-! ## Source and map stages -/

section Stages

variable {ω η : Type} (codec : BsonCodec) (factory : Option (Bytes → FactoryReply η))
  (source : SourceStage.SourceTable ω) (map : MapTransform.MapTable)

/-- The planner's functions of a source stage. -/
def sourcePlanner : Planner η SourceStage.LogicalObj where
  descParse := SourceStage.descParse codec source
  expanded p := (expandAndTransfer SourceStage.expTransfer
    (SourceStage.parseExpand codec factory source p)).2
  astBind := SourceStage.astBind
  logClone := SourceStage.logClone
  args := SourceStage.LogicalObj.args

/-- The planner's functions of a map stage. -/
def mapPlanner : Planner η MapTransform.LogicalObj where
  descParse := MapTransform.descParse codec map
  expanded p := (expandAndTransfer MapTransform.expTransfer
    (MapTransform.parseExpand codec map p)).2
  astBind _ := MapTransform.astBind
  logClone := MapTransform.logClone
  args := MapTransform.LogicalObj.args

variable {codec factory source map}

/-- Parsing encodes the arguments. -/
theorem descParse_encoded {ε : Type} {r : Reporting ε} {table : StageTable ε} {stageBson : Bytes}
    {p : ParseObj} (made : (r.descParse codec table stageBson).out = some p) :
    Planner.Encoded codec p.args := by
  rcases descParse_cases r codec table stageBson with ⟨q, parsed, delivery⟩ | ⟨e, _, _, delivery⟩
  · rw [delivery] at made
    cases made
    obtain ⟨inner, _, _, _, encoded⟩ := parseStage_ok_iff.mp parsed
    exact ⟨inner, encoded⟩
  · rw [delivery] at made
    cases made

theorem blob_encoded {name : String} {docs : List Document} {blobs : List Bytes}
    (made : pipelineStageArgBlobs codec name docs = .ok blobs) {blob : Bytes}
    (mem : blob ∈ blobs) : Planner.Encoded codec blob := by
  have each := pipelineStageArgBlobs_forall₂ made
  clear made
  induction each with
  | nil => cases mem
  | cons first _ ih =>
      rcases List.mem_cons.mp mem with rfl | later
      · obtain ⟨inner, _, encodes⟩ := stageArgBlob_ok_iff.mp first
        exact ⟨inner, encodes⟩
      · exact ih later

/-- The arguments of an expansion's nodes are those of the stage, or encoded by the check. -/
theorem expansionNodes_encoded {name : String} {args : Bytes} (encoded : Planner.Encoded codec args)
    {ex : Expansion} {nodes : List (AstNode η)}
    (listed : expansionNodes codec factory name args ex = .ok nodes) {inner : Bytes}
    (mem : .extension inner ∈ nodes) : Planner.Encoded codec inner := by
  cases ex with
  | selfStage =>
      cases listed
      cases List.mem_singleton.mp mem
      exact encoded
  | pipeline docs =>
      cases blobs : pipelineStageArgBlobs codec name docs with
      | error e => simp [expansionNodes, blobs, bind, Except.bind] at listed
      | ok blobs' =>
          simp only [expansionNodes, blobs, bind, Except.bind, pure, Except.pure,
            Except.ok.injEq] at listed
          subst listed
          have member : inner ∈ blobs' := by simpa using mem
          exact blob_encoded blobs member
  | withHostIdLookup extensionStage idLookup =>
      simp only [expansionNodes, pipelineStageArgBlobs_singleton] at listed
      cases candidate : stageArgBlob codec name extensionStage with
      | error e => simp [candidate, Except.map, bind, Except.bind] at listed
      | ok blob =>
          cases created : createIdLookupAst codec factory idLookup with
          | error e => simp [candidate, created, Except.map, bind, Except.bind] at listed
          | ok node =>
              simp only [candidate, created, Except.map, bind, Except.bind, pure, Except.pure,
                Except.ok.injEq] at listed
              subst listed
              obtain rfl : inner = blob := by simpa using mem
              obtain ⟨d, _, encodes⟩ := stageArgBlob_ok_iff.mp candidate
              exact ⟨d, encodes⟩

theorem parseExpand_ok {name : String}
    {expandInner : Document → HookOutcome ExtensionError Expansion} {args : Bytes}
    {nodes : List (AstNode η)}
    (made : ExtensionSdkMongodb.parseExpand codec factory name expandInner args = .ok nodes) :
    ∃ ex, expansionNodes codec factory name args ex = .ok nodes := by
  rw [ExtensionSdkMongodb.parseExpand, expandClosure] at made
  cases decoded : codec.decode args with
  | error e => simp [decoded, ffiBoundary] at made
  | ok argsDoc =>
      cases expanded : expandInner argsDoc with
      | error fault => cases fault <;> simp [decoded, expanded, ffiBoundary] at made
      | ok ex =>
          refine ⟨ex, ?_⟩
          cases listed : expansionNodes codec factory name args ex with
          | error e => simp [decoded, expanded, listed, ffiBoundary, Except.mapError] at made
          | ok nodes' => simpa [decoded, expanded, listed, ffiBoundary, Except.mapError] using made

theorem sourcePlanner_keeps : (sourcePlanner codec factory source).KeepsEncoded codec where
  parse _ _ made := descParse_encoded made
  expand p args encoded mem := by
    have held : .extension args ∈ (expandAndTransfer SourceStage.expTransfer
      (SourceStage.parseExpand codec factory source p)).2 := mem
    rw [expandAndTransfer_source] at held
    cases listed : ExtensionSdkMongodb.parseExpand codec factory source.name source.expandInner
        p.args with
    | error e => simp [listed, received] at held
    | ok nodes =>
        obtain ⟨ex, nodesOf⟩ := parseExpand_ok listed
        exact expansionNodes_encoded encoded nodesOf (by simpa [listed, received] using held)
  bind _ _ _ made := by
    cases made
    rfl
  clone _ _ made := by
    cases made
    rfl

theorem mapPlanner_keeps : (mapPlanner (η := η) codec map).KeepsEncoded codec where
  parse _ _ made := descParse_encoded made
  expand p args encoded mem := by
    have held : .extension args ∈ (expandAndTransfer MapTransform.expTransfer
      (MapTransform.parseExpand codec map p)).2 := mem
    cases decoded : codec.decode p.args with
    | error e =>
        rw [MapTransform.parseExpand, parseExpand_undecoded .text codec _ _ decoded] at held
        cases held
    | ok argsDoc =>
        cases expanded : map.stage.expands argsDoc with
        | error fault =>
            rw [MapTransform.parseExpand, parseExpand_eq .text codec _ _ decoded, expanded] at held
            cases fault <;> cases held
        | ok ex =>
            by_cases own : ex.OwnStages
            · have delivered : expandAndTransfer MapTransform.expTransfer
                  (MapTransform.parseExpand codec map p) = received .text ExtensionError.message
                    (expansionNodes (η := η) codec none map.stage.name p.args ex) :=
                expandAndTransfer_own .text map.stage _ decoded expanded own
              rw [delivered] at held
              cases listed : expansionNodes (η := η) codec none map.stage.name p.args ex with
              | error e => simp [listed, received] at held
              | ok nodes =>
                  exact expansionNodes_encoded encoded listed
                    (by simpa [listed, received] using held)
            · cases ex with
              | selfStage => exact absurd trivial own
              | pipeline _ => exact absurd trivial own
              | withHostIdLookup _ _ =>
                  rw [MapTransform.parseExpand, parseExpand_eq .text codec _ _ decoded,
                    expanded] at held
                  cases held
  bind _ _ _ made := by
    cases made
    rfl
  clone _ _ made := by
    cases made
    rfl

end Stages

/-! ## Serialized arguments -/

section Serialize

variable {ε : Type} (r : Reporting ε) {codec : BsonCodec} (table : StageTable ε)

/-- **Encoded arguments come back from a serialization exactly if `desc_parse` takes them.** -/
theorem logSerialize_reparses_iff (faithful : codec.Faithful) {args blob : Bytes}
    (encoded : Planner.Encoded codec args)
    (serialized : r.logSerialize codec table args = ⟨statusOk, some blob⟩) :
    (∃ p, r.descParse codec table blob = ⟨statusOk, some p⟩ ∧ p.args = args) ↔
      (table.expectEmpty = true → codec.decode args = .ok []) := by
  obtain ⟨d, encodes⟩ := encoded
  have decodes := faithful d args encodes
  have wrapped : codec.decode blob = .ok (stageDocument table.name d) := by
    rcases deliverArgs_cases r codec table "serialize" args with
      ⟨bytes, wraps, delivery⟩ | ⟨e, _, _, delivery⟩
    · rw [Reporting.logSerialize, delivery] at serialized
      cases serialized
      obtain ⟨d', decoded, wraps⟩ := wrapArgs_ok_iff.mp wraps
      cases decodes.symm.trans decoded
      exact faithful _ _ wraps
    · rw [Reporting.logSerialize, delivery] at serialized
      simp at serialized
  rw [decodes]
  constructor
  · rintro ⟨p, delivered, _⟩ expects
    rcases descParse_cases r codec table blob with ⟨q, parsed, _⟩ | ⟨e, _, _, delivery⟩
    · obtain ⟨inner, rest, decoded, empty, _⟩ := parseStage_ok_iff.mp parsed
      rw [wrapped] at decoded
      cases decoded
      rw [empty expects]
    · rw [delivery] at delivered
      simp at delivered
  · intro empty
    have parsed : r.parseStage codec table blob = .ok ⟨args⟩ := by
      refine parseStage_ok_iff.mpr ⟨d, [], wrapped, fun expects => ?_, encodes⟩
      cases empty expects
      rfl
    refine ⟨⟨args⟩, ?_, rfl⟩
    rw [Reporting.descParse, parsed]
    rfl

end Serialize

/-- **What a reachable source or map stage is serialized to, the other node reads as the same stage
exactly if the stage takes arguments or has none.** -/
theorem serialize_reparses_iff {ω η : Type} {codec : BsonCodec} (faithful : codec.Faithful)
    (factory : Option (Bytes → FactoryReply η)) (source : SourceStage.SourceTable ω)
    (map : MapTransform.MapTable) :
    (∀ l blob, (sourcePlanner codec factory source).Reaches l →
      SourceStage.logSerialize codec source l.args = ⟨statusOk, some blob⟩ →
      ((∃ p, SourceStage.descParse codec source blob = ⟨statusOk, some p⟩ ∧ p.args = l.args) ↔
        (source.expectEmpty = true → codec.decode l.args = .ok []))) ∧
    ∀ l blob, (mapPlanner (η := η) codec map).Reaches l →
      MapTransform.logSerialize codec map l.args = ⟨statusOk, some blob⟩ →
      ((∃ p, MapTransform.descParse codec map blob = ⟨statusOk, some p⟩ ∧ p.args = l.args) ↔
        (map.expectEmpty = true → codec.decode l.args = .ok [])) := by
  refine ⟨?_, ?_⟩
  · intro l blob reaches serialized
    exact logSerialize_reparses_iff .typed source.stage faithful
      (reaches.encoded sourcePlanner_keeps) serialized
  · intro l blob reaches serialized
    exact logSerialize_reparses_iff .text map.stage faithful
      (reaches.encoded mapPlanner_keeps) serialized

section Run

/-- The BSON of `{$echo: {x: true}}`. -/
def echoArgsBytes : Bytes :=
  [21, 0, 0, 0, 3, 36, 101, 99, 104, 111, 0, 9, 0, 0, 0, 8, 120, 0, 1, 0, 0]

/-- The BSON codec on the stage document without arguments and on one with them. -/
def echoArgsCodec : BsonCodec where
  encode d :=
    match d with
    | [] => .ok [5, 0, 0, 0, 0]
    | [("x", .boolean true)] => .ok [9, 0, 0, 0, 8, 120, 0, 1, 0]
    | [("$echo", .document [])] => .ok echoBytes
    | [("$echo", .document [("x", .boolean true)])] => .ok echoArgsBytes
    | _ => .error "not used"
  decode bytes :=
    if bytes = [5, 0, 0, 0, 0] then .ok []
    else if bytes = [9, 0, 0, 0, 8, 120, 0, 1, 0] then .ok [("x", .boolean true)]
    else if bytes = echoBytes then .ok [("$echo", .document [])]
    else if bytes = echoArgsBytes then .ok [("$echo", .document [("x", .boolean true)])]
    else .error "unexpected end of file"

/-- A source stage that takes no arguments and expands to itself with some. -/
def echoArgsSource : SourceStage.SourceTable Unit :=
  { echoSource with
    expandInner := fun _ => .ok (.pipeline [stageDocument "$echo" [("x", .boolean true)]]) }

theorem echoArgsCodec_faithful : echoArgsCodec.Faithful := by
  intro d bytes encoded
  simp only [echoArgsCodec] at encoded
  split at encoded
  · cases encoded
    rfl
  · cases encoded
    rfl
  · cases encoded
    rfl
  · cases encoded
    rfl
  · cases encoded

/-- Every node on the way is cloned once. -/
theorem serialize_reparses_echo :
    let echo := { echoSource with expectEmpty := false }
    ∃ p, SourceStage.descParse echoArgsCodec echo echoArgsBytes = ⟨statusOk, some p⟩ ∧
      p.args = [9, 0, 0, 0, 8, 120, 0, 1, 0] := by
  intro echo
  have factory : Option (Bytes → FactoryReply ℕ) := none
  let planner := sourcePlanner echoArgsCodec factory echo
  have parsed : planner.Parses ⟨[9, 0, 0, 0, 8, 120, 0, 1, 0]⟩ :=
    .clone (@Planner.Parses.parse _ _ planner echoArgsBytes _ rfl) rfl
  have expanded : planner.Expands ⟨[9, 0, 0, 0, 8, 120, 0, 1, 0]⟩ :=
    .clone (.expand parsed List.mem_cons_self) rfl
  have reaches : planner.Reaches ⟨[9, 0, 0, 0, 8, 120, 0, 1, 0], none, false⟩ :=
    .clone (@Planner.Reaches.bind _ _ planner _ none _ expanded rfl) rfl
  have serialized := (serialize_reparses_iff echoArgsCodec_faithful factory echo echoMap).1 _
    echoArgsBytes reaches rfl
  refine serialized.mpr ?_
  intro expects
  cases expects

/-- The stage of the expansion's node is reached and serialized, and refused as another node's
stage. -/
theorem serialized_args_refused :
    echoArgsCodec.Faithful ∧
      (sourcePlanner echoArgsCodec (none : Option (Bytes → FactoryReply ℕ)) echoArgsSource).Reaches
        ⟨[9, 0, 0, 0, 8, 120, 0, 1, 0], none, false⟩ ∧
      SourceStage.logSerialize echoArgsCodec echoArgsSource [9, 0, 0, 0, 8, 120, 0, 1, 0] =
        ⟨statusOk, some echoArgsBytes⟩ ∧
      (SourceStage.descParse echoArgsCodec echoArgsSource echoArgsBytes).status.isOk = false ∧
      (SourceStage.descParse echoArgsCodec echoArgsSource echoArgsBytes).out = none := by
  have parsed : (sourcePlanner echoArgsCodec (none : Option (Bytes → FactoryReply ℕ))
      echoArgsSource).Parses ⟨[5, 0, 0, 0, 0]⟩ :=
    @Planner.Parses.parse _ _ _ echoBytes _ rfl
  have expanded : (sourcePlanner echoArgsCodec (none : Option (Bytes → FactoryReply ℕ))
      echoArgsSource).Expands ⟨[9, 0, 0, 0, 8, 120, 0, 1, 0]⟩ :=
    .expand parsed List.mem_cons_self
  exact ⟨echoArgsCodec_faithful, @Planner.Reaches.bind _ _ _ _ none _ expanded rfl, rfl, rfl, rfl⟩

end Run

end Stages

end ExtensionSdkMongodb

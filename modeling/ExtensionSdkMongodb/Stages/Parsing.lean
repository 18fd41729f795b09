import ExtensionSdkMongodb.SourceStage.Nodes
import ExtensionSdkMongodb.MapTransform.Nodes
import ExtensionSdkMongodb.Passthrough

/-!
# The stage documents that `desc_parse` takes

A stage document has one field, the stage's name, with an argument document. The three copies of
`desc_parse` take the same bytes, and read the first field only. So they take every stage document,
and besides them the documents with more fields behind the stage's own, which they ignore.
`descParse_exact_iff` says that the three are exact where no such fields are, and nowhere else.
-/

set_option autoImplicit false

namespace ExtensionSdkMongodb

/-- Documents inside a decoded document round trip, alone and as the argument of a stage. -/
def BsonCodec.Reencodes (codec : BsonCodec) : Prop :=
  ∀ bytes d name inner, codec.decode bytes = .ok d → d.get name = some (.document inner) →
    codec.RoundTrips inner ∧ codec.RoundTrips (stageDocument name inner)

namespace Stages

section Exactness

variable (codec : BsonCodec) (name : String) (expectEmpty : Bool)

/-- The bytes of a stage document with these arguments. -/
def IsStageDocument (stageBson : Bytes) (inner : Document) : Prop :=
  codec.decode stageBson = .ok (stageDocument name inner) ∧ (expectEmpty = true → inner = [])

/-- The bytes of a document with a stage's field and more fields behind it. -/
def HasTrailingFields (stageBson : Bytes) : Prop :=
  ∃ inner extra rest,
    codec.decode stageBson = .ok ((name, .document inner) :: extra :: rest) ∧
      (expectEmpty = true → inner = [])

/-- The bytes delivered are those of a document. -/
def Delivers (delivery : Delivery Bytes) (d : Document) : Prop :=
  ∃ blob, delivery = ⟨statusOk, some blob⟩ ∧ codec.decode blob = .ok d

/-- A parser takes these bytes exactly if they are a stage document, keeps its arguments and shows
the document as query shape and in logs, and rejects them with an error and no node otherwise. -/
structure ParsesExactly (parse : Bytes → Delivery ParseObj) (shape log : ParseObj → Delivery Bytes)
    (stageBson : Bytes) : Prop where
  accepts : (parse stageBson).status.isOk = true ↔
    ∃ inner, IsStageDocument codec name expectEmpty stageBson inner
  accepted : ∀ inner, IsStageDocument codec name expectEmpty stageBson inner →
    ∃ p, (parse stageBson).out = some p ∧ codec.decode p.args = .ok inner ∧
      Delivers codec (shape p) (stageDocument name inner) ∧
      Delivers codec (log p) (stageDocument name inner)
  rejected : (parse stageBson).status.isOk = false → (parse stageBson).out = none

end Exactness

section Copies

variable {ε : Type} (r : Reporting ε) {codec : BsonCodec} (table : StageTable ε)

/-- Which bytes a copy takes: a first field with the stage's name and arguments, then anything. -/
theorem descParse_isOk_iff (reencodes : codec.Reencodes) {stageBson : Bytes} :
    (r.descParse codec table stageBson).status.isOk = true ↔
      ∃ inner rest, codec.decode stageBson = .ok ((table.name, .document inner) :: rest) ∧
        (table.expectEmpty = true → inner = []) := by
  constructor
  · intro okay
    rcases descParse_cases r codec table stageBson with ⟨p, parsed, _⟩ | ⟨e, _, fails, delivery⟩
    · obtain ⟨inner, rest, decoded, empty, _⟩ := parseStage_ok_iff.mp parsed
      exact ⟨inner, rest, decoded, empty⟩
    · simp [delivery, fails] at okay
  · rintro ⟨inner, rest, decoded, empty⟩
    obtain ⟨⟨blob, encoded, _⟩, _⟩ :=
      reencodes stageBson _ table.name inner decoded (by simp)
    have parsed : r.parseStage codec table stageBson = .ok ⟨blob⟩ :=
      parseStage_ok_iff.mpr ⟨inner, rest, decoded, empty, encoded⟩
    simp [Reporting.descParse, parsed]

/-- **A copy is exact on all bytes but those with fields behind the stage's own.** -/
theorem parsesExactly_iff (reencodes : codec.Reencodes) (stageBson : Bytes) :
    ParsesExactly codec table.name table.expectEmpty (r.descParse codec table)
        (r.parseGetQueryShape codec table) (r.parseToBsonForLog codec table) stageBson ↔
      ¬ HasTrailingFields codec table.name table.expectEmpty stageBson := by
  constructor
  · rintro exact ⟨inner, extra, rest, decoded, empty⟩
    have okay := (descParse_isOk_iff r table reencodes).mpr ⟨inner, extra :: rest, decoded, empty⟩
    obtain ⟨inner', single, _⟩ := exact.accepts.mp okay
    rw [decoded] at single
    simp [stageDocument] at single
  · intro alone
    refine ⟨?_, ?_, ?_⟩
    · rw [descParse_isOk_iff r table reencodes]
      constructor
      · rintro ⟨inner, rest, decoded, empty⟩
        cases rest with
        | nil => exact ⟨inner, decoded, empty⟩
        | cons extra rest => exact absurd ⟨inner, extra, rest, decoded, empty⟩ alone
      · rintro ⟨inner, decoded, empty⟩
        exact ⟨inner, [], decoded, empty⟩
    · rintro inner ⟨decoded, empty⟩
      obtain ⟨⟨blob, encoded, returned⟩, wrapped, wrapEncoded, wrapReturned⟩ :=
        reencodes stageBson _ table.name inner decoded (by simp [stageDocument])
      have parsed : r.parseStage codec table stageBson = .ok ⟨blob⟩ :=
        parseStage_ok_iff.mpr ⟨inner, [], decoded, empty, encoded⟩
      have wraps : ∀ text, r.wrapArgs codec table text blob = .ok wrapped :=
        fun text => wrapArgs_ok_iff.mpr ⟨inner, returned, wrapEncoded⟩
      refine ⟨⟨blob⟩, ?_, returned, ⟨wrapped, ?_, wrapReturned⟩, ⟨wrapped, ?_, wrapReturned⟩⟩
      · rw [Reporting.descParse, parsed]
        rfl
      · rw [Reporting.parseGetQueryShape, wraps]
        rfl
      · rw [Reporting.parseToBsonForLog, Reporting.deliverArgs, wraps]
    · intro fails
      rcases descParse_cases r codec table stageBson with ⟨p, _, delivery⟩ | ⟨e, _, _, delivery⟩
      · rw [delivery] at fails
        simp at fails
      · rw [delivery]

end Copies

/-- **The three parsers take the same bytes, and are exact where no field follows the stage's own.**
With such a field they take a document that is no stage document. -/
theorem descParse_exact_iff {ω : Type} {codec : BsonCodec} (reencodes : codec.Reencodes)
    (source : SourceStage.SourceTable ω) (map : MapTransform.MapTable)
    (pass : Passthrough.StageGlobals) (mapName : map.name = source.name)
    (passName : pass.name = source.name) (mapEmpty : map.expectEmpty = source.expectEmpty)
    (passEmpty : pass.expectEmpty = source.expectEmpty) (stageBson : Bytes) :
    (ParsesExactly codec source.name source.expectEmpty (SourceStage.descParse codec source)
        (SourceStage.parseGetQueryShape codec source) (SourceStage.parseToBsonForLog codec source)
        stageBson ↔
      ¬ HasTrailingFields codec source.name source.expectEmpty stageBson) ∧
    (ParsesExactly codec source.name source.expectEmpty (MapTransform.descParse codec map)
        (MapTransform.parseGetQueryShape codec map) (MapTransform.parseToBsonForLog codec map)
        stageBson ↔
      ¬ HasTrailingFields codec source.name source.expectEmpty stageBson) ∧
    (ParsesExactly codec source.name source.expectEmpty (Passthrough.descParse codec pass)
        (Passthrough.parseGetQueryShape codec pass) (Passthrough.parseToBsonForLog codec pass)
        stageBson ↔
      ¬ HasTrailingFields codec source.name source.expectEmpty stageBson) ∧
    ((MapTransform.descParse codec map stageBson).status.isOk = true ↔
      (SourceStage.descParse codec source stageBson).status.isOk = true) ∧
    ((Passthrough.descParse codec pass stageBson).status.isOk = true ↔
      (SourceStage.descParse codec source stageBson).status.isOk = true) := by
  refine ⟨?_, ?_, ?_, ?_, ?_⟩
  · exact parsesExactly_iff .typed source.stage reencodes stageBson
  · rw [← mapName, ← mapEmpty]
    exact parsesExactly_iff .text map.stage reencodes stageBson
  · rw [← passName, ← passEmpty]
    exact parsesExactly_iff .text pass.stage reencodes stageBson
  · rw [MapTransform.descParse, SourceStage.descParse, descParse_isOk_iff _ _ reencodes,
      descParse_isOk_iff _ _ reencodes]
    simp only [MapTransform.MapTable.stage, SourceStage.SourceTable.stage, mapName, mapEmpty]
  · rw [Passthrough.descParse, SourceStage.descParse, descParse_isOk_iff _ _ reencodes,
      descParse_isOk_iff _ _ reencodes]
    simp only [Passthrough.StageGlobals.stage, SourceStage.SourceTable.stage, passName, passEmpty]

section Run

/-- The BSON of `{$echo: {}}`. -/
def echoBytes : Bytes := [17, 0, 0, 0, 3, 36, 101, 99, 104, 111, 0, 5, 0, 0, 0, 0, 0]

/-- The BSON of `{$echo: {}, x: true}`. -/
def echoTrailingBytes : Bytes :=
  [21, 0, 0, 0, 3, 36, 101, 99, 104, 111, 0, 5, 0, 0, 0, 0, 8, 120, 0, 1, 0]

/-- The BSON codec on these documents. -/
def echoCodec : BsonCodec where
  encode d :=
    match d with
    | [] => .ok [5, 0, 0, 0, 0]
    | [("$echo", .document [])] => .ok echoBytes
    | _ => .error "not used"
  decode bytes :=
    if bytes = [5, 0, 0, 0, 0] then .ok []
    else if bytes = echoBytes then .ok [("$echo", .document [])]
    else if bytes = echoTrailingBytes then .ok [("$echo", .document []), ("x", .boolean true)]
    else .error "unexpected end of file"

/-- A source stage without arguments that is at its end at once. -/
def echoSource : SourceStage.SourceTable Unit where
  openFromDoc _ _ hooks := (.ok (some 0), hooks)
  dropState _ hooks := (some (), hooks)
  next _ _ hooks := (.ok .eof, hooks)
  staticPropertiesDoc := some []
  name := "$echo"
  expectEmpty := true
  expandInner _ := .ok .selfStage
  mergingPipeline := none
  onExtensionInitialized := none

/-- A map stage without arguments that keeps its rows. -/
def echoMap : MapTransform.MapTable where
  transform row _ := .ok row
  onEofNoRows := none
  name := "$echo"
  expectEmpty := true
  onExtensionInitialized := none
  staticPropertiesDoc := some []
  expandFromArgsDoc := none

/-- A passthrough stage without arguments. -/
def echoPass : Passthrough.StageGlobals := ⟨"$echo", true, none⟩

theorem echoCodec_reencodes : echoCodec.Reencodes := by
  intro bytes d name inner decoded found
  simp only [echoCodec] at decoded
  have known : name = "$echo" ∧ inner = [] := by
    split at decoded
    · cases decoded
      simp at found
    · split at decoded
      · cases decoded
        simpa [eq_comm] using found
      · split at decoded
        · cases decoded
          simp only [Document.get_cons, Document.get_nil] at found
          split at found
          · next same => exact ⟨same.symm, by simpa [eq_comm] using found⟩
          · split at found
            · cases found
            · cases found
        · cases decoded
  obtain ⟨rfl, rfl⟩ := known
  exact ⟨⟨_, rfl, rfl⟩, ⟨_, rfl, rfl⟩⟩

theorem descParse_exact_echo :
    ParsesExactly echoCodec "$echo" true (SourceStage.descParse echoCodec echoSource)
      (SourceStage.parseGetQueryShape echoCodec echoSource)
      (SourceStage.parseToBsonForLog echoCodec echoSource) echoBytes := by
  refine (descParse_exact_iff echoCodec_reencodes echoSource echoMap echoPass rfl rfl rfl rfl
    echoBytes).1.mpr ?_
  rintro ⟨inner, extra, rest, decoded, _⟩
  have single : echoCodec.decode echoBytes = .ok [("$echo", .document [])] := rfl
  rw [single] at decoded
  simp at decoded

/-- The three parsers take `{$echo: {}, x: true}`, which is no stage document. -/
theorem descParse_takes_trailing_field :
    echoCodec.Reencodes ∧
    (¬ ∃ inner, IsStageDocument echoCodec "$echo" true echoTrailingBytes inner) ∧
    (SourceStage.descParse echoCodec echoSource echoTrailingBytes).status.isOk = true ∧
    (MapTransform.descParse echoCodec echoMap echoTrailingBytes).status.isOk = true ∧
    (Passthrough.descParse echoCodec echoPass echoTrailingBytes).status.isOk = true := by
  refine ⟨echoCodec_reencodes, ?_, rfl, rfl, rfl⟩
  rintro ⟨inner, decoded, _⟩
  have two : echoCodec.decode echoTrailingBytes =
      .ok [("$echo", .document []), ("x", .boolean true)] := rfl
  rw [two] at decoded
  simp [stageDocument] at decoded

end Run

end Stages

end ExtensionSdkMongodb

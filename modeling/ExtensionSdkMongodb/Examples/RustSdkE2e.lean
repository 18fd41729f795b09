import ExtensionSdkMongodb.Data.Json
import ExtensionSdkMongodb.Data.Text
import ExtensionSdkMongodb.Data.Utf8
import ExtensionSdkMongodb.Pipelines.Layers
import ExtensionSdkMongodb.Stages.Loading

/-!
# `$rustSdkE2e`

A map stage that writes a parameter of the extension options into every row, and into one row of its
own when there are none. The parameter is read when the extension is initialized, once.

In every pipeline, after whatever the loader called before, a row carries the parameter of the first
initialization after the first accepted request, which is never empty, or null if there was none
(`rows_carry_param`).
-/

set_option autoImplicit false

namespace ExtensionSdkMongodb.RustSdkE2e

open MapTransform (MapStageGlobals)
open Pipelines (FirstEnd Planned Seen getNext seen)
open Stages (LoaderCall MapExport Process mapRoot processMachine)

/-! ## The parameter -/

/-- A value without the quotes around it. -/
def unquoted (rest : String) : String :=
  trimMatches (· == '\'') (trimMatches (· == '"') (trim rest))

/-- The body of the loop over the lines; a value ends the loop. -/
def paramOfLine (line : String) : Option String :=
  let t := trim line
  if t = "" ∨ t.toList.head? = some '#' then none
  else (stripPrefix "e2eExtensionParam:" t).bind fun rest =>
    if unquoted rest ≠ "" then some (unquoted rest) else none

/-- `parse_e2e_extension_param`. -/
def parseE2eExtensionParam (yaml : String) : Option String := (lines yaml).findSome? paramOfLine

section Json

variable (fromStr : String → Except String Json)

/-- `parse_e2e_extension_param_json`. The deserializer is a parameter. -/
def parseE2eExtensionParamJson (text : String) : Option String :=
  let t := trim text
  if t.toList.head? = some '\x7b' then
    match fromStr t with
    | .error _ => none
    | .ok v => ((v.get "e2eExtensionParam").bind Json.asStr).filter (· ≠ "")
  else none

/-- `DEFAULT_E2E_EXTENSION_PARAM`. -/
def defaultE2eExtensionParam : String := "from_extension_yaml"

/-- The text without a byte order mark. -/
def withoutMark (raw : String) : String := (stripPrefix "\uFEFF" raw).getD raw

/-- `resolve_e2e_extension_param`. -/
def resolveE2eExtensionParam : Option String → String
  | none => defaultE2eExtensionParam
  | some raw =>
    let raw := trim (withoutMark raw)
    if raw = "" then defaultE2eExtensionParam
    else ((parseE2eExtensionParam raw).or (parseE2eExtensionParamJson fromStr raw)).getD
      defaultE2eExtensionParam

/-- The parameter that the options of the host say. -/
def paramOfOptions (view : Option Bytes) : String :=
  match view with
  | none | some [] => resolveE2eExtensionParam fromStr none
  | some bytes => resolveE2eExtensionParam fromStr (fromUtf8 bytes).toOption

/-- `e2e_parse_extension_yaml`, which sets `YAML_PARAM` unless it is set. -/
def e2eParseExtensionYaml (view : Option Bytes) (yamlParam : Option String) :
    HookOutcome String Unit × Option String :=
  (.ok (), some (yamlParam.getD (paramOfOptions fromStr view)))

end Json

/-! ## The stage -/

/-- The value of a parameter in a document. -/
def paramValue : Option String → Bson
  | some p => .string p
  | none => .null

/-- `merge_yaml_field`. -/
def mergeYamlField (yamlParam : Option String) (out : Document) : Document :=
  out.insert "rustSdkE2eExtensionParam" (paramValue yamlParam)

/-- `e2e_transform`. -/
def e2eTransform (yamlParam : Option String) (row _args : Document) : HookOutcome String Document :=
  .ok (mergeYamlField yamlParam row)

/-- `e2e_eof`. -/
def e2eEof (yamlParam : Option String) (_args : Document) : HookOutcome String Document :=
  .ok (mergeYamlField yamlParam [])

/-- The exported map stage. -/
def rustSdkE2e (fromStr : String → Except String Json) : MapExport (Option String) where
  name := "$rustSdkE2e"
  callbacks := fun yamlParam => ⟨e2eTransform yamlParam, some (e2eEof yamlParam)⟩
  onExtensionInitialized := some (e2eParseExtensionYaml fromStr)

example : parseE2eExtensionParam "# a\n e2eExtensionParam: \"\"\ne2eExtensionParam: 'b c'\n" =
    some "b c" := by decide

/-! ## The parameter is never empty -/

theorem paramOfLine_ne_empty {line v : String} (found : paramOfLine line = some v) : v ≠ "" := by
  rw [paramOfLine] at found
  by_cases skipped : trim line = "" ∨ (trim line).toList.head? = some '#'
  · rw [if_pos skipped] at found
    cases found
  · rw [if_neg skipped] at found
    obtain ⟨rest, -, kept⟩ := Option.bind_eq_some_iff.mp found
    obtain ⟨nonempty, same⟩ := Option.ite_none_right_eq_some.mp kept
    rwa [← Option.some.inj same]

theorem parseE2eExtensionParamJson_ne_empty {fromStr : String → Except String Json}
    {text v : String} (found : parseE2eExtensionParamJson fromStr text = some v) : v ≠ "" := by
  simp only [parseE2eExtensionParamJson] at found
  split at found
  · split at found
    · cases found
    · simpa using (Option.filter_eq_some_iff.mp found).2
  · cases found

theorem defaultE2eExtensionParam_ne_empty : defaultE2eExtensionParam ≠ "" := by decide

theorem resolve_ne_empty (fromStr : String → Except String Json) (raw : Option String) :
    resolveE2eExtensionParam fromStr raw ≠ "" := by
  cases raw with
  | none => exact defaultE2eExtensionParam_ne_empty
  | some raw =>
      rw [resolveE2eExtensionParam]
      generalize trim (withoutMark raw) = text
      by_cases empty : text = ""
      · rw [if_pos empty]
        exact defaultE2eExtensionParam_ne_empty
      · rw [if_neg empty]
        cases parsed : parseE2eExtensionParam text with
        | some v =>
            obtain ⟨line, -, found⟩ := List.exists_of_findSome?_eq_some parsed
            exact paramOfLine_ne_empty found
        | none =>
            rw [Option.none_or]
            cases json : parseE2eExtensionParamJson fromStr text with
            | none => exact defaultE2eExtensionParam_ne_empty
            | some v => exact parseE2eExtensionParamJson_ne_empty json

theorem paramOfOptions_ne_empty (fromStr : String → Except String Json) (view : Option Bytes) :
    paramOfOptions fromStr view ≠ "" := by
  unfold paramOfOptions
  split
  · exact resolve_ne_empty fromStr _
  · exact resolve_ne_empty fromStr _
  · exact resolve_ne_empty fromStr _

/-! ## The parameter of a process -/

section Loaded

variable (fromStr : String → Except String Json)

/-- The calls of the loader on this library. -/
def libraryCalls (calls : List (LoaderCall Unit)) : List (LoaderCall (MapExport (Option String))) :=
  calls.map (LoaderCall.withGlobals (rustSdkE2e fromStr))

/-- The parameter of the first initialization after the first accepted request. -/
def paramAfter (calls : List (LoaderCall Unit)) : Option String :=
  (Stages.hookedPortals calls).head?.map fun portal => paramOfOptions fromStr portal.options

/-- The first hook sets the parameter. -/
theorem hooked_eq (w : Option String) (portals : List SourceStage.Portal) :
    mapRoot.hooked (rustSdkE2e fromStr) w portals =
      w.or (portals.head?.map fun portal => paramOfOptions fromStr portal.options) := by
  induction portals generalizing w with
  | nil => cases w <;> rfl
  | cons portal portals ih =>
      have step : mapRoot.hooked (rustSdkE2e fromStr) w (portal :: portals) =
          mapRoot.hooked (rustSdkE2e fromStr)
            (some (w.getD (paramOfOptions fromStr portal.options))) portals := rfl
      rw [step, ih]
      cases w <;> rfl

/-- **After any calls of the loader the parameter is that of the first initialization of the
installed stage.** -/
theorem statics_eq (calls : List (LoaderCall Unit)) :
    ((processMachine mapRoot).after (.fresh none) (libraryCalls fromStr calls)).statics =
      paramAfter fromStr calls := by
  obtain ⟨first, hooked⟩ := Stages.hookedPortals_withGlobals (rustSdkE2e fromStr) calls
  rw [Stages.statics_after rfl, libraryCalls, first, hooked]
  cases accepted : Stages.firstAccepted calls with
  | some _ => exact hooked_eq fromStr none _
  | none =>
      have nothing : Stages.hookedPortals calls = [] := by
        have all : calls.dropWhile (fun call => call.accepted.isNone) = [] := by
          rw [List.dropWhile_eq_nil_iff]
          intro call member
          simp [List.findSome?_eq_none_iff.mp accepted call member]
        rw [Stages.hookedPortals, all]
        rfl
      simp [paramAfter, nothing, Process.fresh]

end Loaded

/-! ## Rows -/

section Rows

variable (codec : BsonCodec) (fromStr : String → Except String Json)

/-- The executable stage, with the parameter that the process has. -/
def compiled (yamlParam : Option String) (args : Bytes) : Planned :=
  .map ((rustSdkE2e fromStr).callbacks yamlParam) args

/-- Where the `i`-th row comes from: the row of the stage below, or nothing, at the first end of a
stage below without rows. -/
def Origin (below : List (Except Status Seen)) (i : ℕ) (origin : Document) : Prop :=
  (∃ document metadata, below[i]? = some (.ok ⟨.advanced, some document, metadata⟩) ∧
      codec.decode document = .ok origin) ∨
    origin = [] ∧ FirstEnd below i

variable {codec}

/-- A mapped row is the row of the stage below, with the parameter. -/
theorem mappedRow_ok {yamlParam : Option String} {args bytes : Bytes} {document : Option Bytes}
    (made : MapTransform.mappedRow codec ((rustSdkE2e fromStr).callbacks yamlParam) args
      (Pipelines.carrier document) = .ok bytes) :
    ∃ d origin, document = some d ∧ codec.decode d = .ok origin ∧
      codec.encode (mergeYamlField yamlParam origin) = .ok bytes := by
  obtain ⟨origin, read, rest⟩ := bind_ok.mp made
  obtain ⟨argsDoc, -, rest⟩ := bind_ok.mp rest
  obtain ⟨out, mapped, written⟩ := bind_ok.mp rest
  cases mapped
  cases document with
  | none => cases mapError_ok.mp read
  | some d => exact ⟨d, origin, rfl, mapError_ok.mp (mapError_ok.mp read), mapError_ok.mp written⟩

/-- The row of the stage's own is the parameter alone. -/
theorem emptyInputRow_ok {yamlParam : Option String} {args bytes : Bytes}
    (made : MapTransform.emptyInputRow codec args (e2eEof yamlParam) = .ok bytes) :
    codec.encode (mergeYamlField yamlParam []) = .ok bytes := by
  obtain ⟨argsDoc, -, rest⟩ := bind_ok.mp made
  obtain ⟨out, mapped, written⟩ := bind_ok.mp rest
  cases mapped
  exact mapError_ok.mp written

/-- A row of the stage has the parameter. -/
theorem row_of_shows {yamlParam : Option String} {args : Bytes}
    {below : List (Except Status Seen)} {i : ℕ} {result : Seen}
    (shown : ((compiled fromStr yamlParam args).shows codec below)[i]? = some (.ok result))
    (advanced : result.code = .advanced) :
    ∃ origin bytes, Origin codec below i origin ∧ result.document = some bytes ∧
      codec.encode (mergeYamlField yamlParam origin) = .ok bytes := by
  cases Pipelines.rowOf_shows shown advanced with
  | mapped document bytes given made here =>
      obtain ⟨d, origin, rfl, read, written⟩ := mappedRow_ok fromStr made
      exact ⟨origin, bytes, .inl ⟨d, _, given, read⟩, here, written⟩
  | own onEof bytes first hook made here =>
      cases hook
      exact ⟨[], bytes, .inr ⟨rfl, first⟩, here, emptyInputRow_ok made⟩

variable (codec)

/-- **Every row carries the parameter**, in every pipeline and after whatever the loader called: the
text that the options of the first initialization after the first accepted request say, which is not
empty, or null if there was none. Its other fields are those of a row of the stage below, or there
are none, at the first end of a stage below that has no rows. -/
theorem rows_carry_param (calls : List (LoaderCall Unit)) {σ : Type}
    (bottom : Machine σ Frame Reply) (layers : List Pipelines.Layer) (t : σ) (args : Bytes)
    (frames : List Frame) :
    let p := (processMachine mapRoot).after (.fresh none) (libraryCalls fromStr calls)
    let below := ((getNext codec bottom).outputs (layers, t) frames).map seen
    let shown := ((getNext codec bottom).outputs
      ((compiled fromStr p.statics args).compiled :: layers, t) frames).map seen
    (∀ v, paramAfter fromStr calls = some v → v ≠ "") ∧
      ∀ i result, shown[i]? = some (.ok result) → result.code = .advanced →
        ∃ origin bytes, Origin codec below i origin ∧ result.document = some bytes ∧
          codec.encode (mergeYamlField (paramAfter fromStr calls) origin) = .ok bytes := by
  intro p below shown
  refine ⟨?_, ?_⟩
  · intro v found
    obtain ⟨portal, -, rfl⟩ := Option.map_eq_some_iff.mp found
    exact paramOfOptions_ne_empty fromStr _
  · intro i result here advanced
    have layer : shown = (compiled fromStr p.statics args).shows codec below :=
      Pipelines.outputs_compiled _ _ _ _
    rw [layer] at here
    have row := row_of_shows fromStr here advanced
    rwa [statics_eq fromStr calls] at row

end Rows

end ExtensionSdkMongodb.RustSdkE2e

import ExtensionSdkMongodb.Aggregation.Expression
import ExtensionSdkMongodb.OpenSearch.Fetch

/-!
# The lookup of candidates on mongos

The merging pipeline of the mongos search looks up the document of each candidate. The candidate
carries its key as an array of names and values, and the condition of the lookup walks each dotted
name through the stored document. `lookup_matches_key` says which documents the condition
accepts: those with an equal value under every name of the key.
-/

set_option autoImplicit false

namespace ExtensionSdkMongodb.OpenSearch

open Aggregation

/-! ## The pipeline -/

/-- A document with one field. -/
def only (key : String) (value : Bson) : Bson := .document [(key, value)]

/-- `key_matches`. -/
def keyMatches : Bson :=
  only "$allElementsTrue" (.array [only "$map" (.document [
    ("input", .string "$$documentKey"), ("as", .string "part"),
    ("in", only "$eq" (.array [
      only "$ifNull" (.array [
        only "$reduce" (.document [
          ("input", only "$split" (.array [.string "$$part.k", .string "."])),
          ("initialValue", .string "$$ROOT"),
          ("in", only "$cond" (.array [
            only "$eq" (.array [only "$type" (.string "$$value"), .string "object"]),
            only "$getField" (.document [
              ("field", .string "$$this"), ("input", .string "$$value")]),
            .null]))]),
        .null]),
      .string "$$part.v"]))])])

/-- The arguments of the `$lookup`. -/
def lookupArgs (c : CatalogContext) : Document :=
  [("from", .string c.collectionName), ("localField", .string "_id"),
    ("foreignField", .string "_id"), ("let", only "documentKey" (.string "$__mongoKey")),
    ("pipeline", .array [only "$match" (only "$expr" keyMatches)]),
    ("as", .string "__mongoDocument")]

/-- `lookup_pipeline`. -/
def lookupPipeline (catalog : Option CatalogContext) : Except ExtensionError (List Document) :=
  match catalog.filter fun c => c.inRouter with
  | none => .error (invalid "OpenSearch mongos extension requires a bound router namespace")
  | some c => .ok [[("$lookup", .document (lookupArgs c))],
      [("$unwind", .string "$__mongoDocument")], [("$replaceWith", .string "$__mongoDocument")]]

/-- The expression of `documentKey` and the condition of the `$lookup` that stages begin with. -/
def lookupParts (stages : List Document) : Option (Bson × Bson) :=
  match stages with
  | [("$lookup", .document lookup)] :: _ =>
    match Document.get lookup "let", Document.get lookup "pipeline" with
    | some (.document [("documentKey", documentKey)]),
      some (.array [.document [("$match", .document [("$expr", condition)])]]) =>
      some (documentKey, condition)
    | _, _ => none
  | _ => none

/-- Whether the `$lookup` accepts a stored document for a row. -/
def lookupAccepts (equal : Value → Value → Bool) (stages : List Document) (row stored : Document) :
    Option Bool := do
  let (documentKey, condition) ← lookupParts stages
  let keyValue ← evaluate equal documentKey (Env.root row)
  match ← evaluate equal condition ((Env.root stored).set "documentKey" keyValue) with
  | some (.boolean matched) => some matched
  | _ => none

theorem lookupParts_of_planned {catalog : Option CatalogContext} {stages : List Document}
    (planned : lookupPipeline catalog = .ok stages) :
    lookupParts stages = some (.string "$__mongoKey", keyMatches) := by
  unfold lookupPipeline at planned
  split at planned
  · cases planned
  · cases planned
    rfl

/-! ## What the condition says -/

namespace KeyMatches

/-- The path of a part of the key, walked through `$$ROOT`. -/
def step : Expr :=
  .cond (.eq (.type (.variable "value" [])) (.literal (.string "object")))
    (.getField (.variable "this" []) (.variable "value" [])) (.literal .null)

def walk : Expr := .reduce (.split (.variable "part" ["k"]) '.') (.variable "ROOT" []) step

def compare : Expr := .eq (.ifNull walk (.literal .null)) (.variable "part" ["v"])

def expr : Expr := .allElementsTrue (.map (.variable "documentKey" []) "part" compare)

end KeyMatches

theorem parse_keyMatches : parse keyMatches = some KeyMatches.expr := by
  rfl

/-! ## Walking a dotted name -/

/-- The value reached from a value by the components of a name; null when a component is missing
or a value on the way is not a document. -/
def walkFrom : List String → Bson → Bson
  | [], value => value
  | part :: parts, .document d =>
    match Document.get d part with
    | some value => walkFrom parts value
    | none => .null
  | _ :: _, _ => .null

/-- The value under a dotted name. -/
def walkName (name : String) (stored : Document) : Bson :=
  walkFrom (splitAt '.' name) (.document stored)

/-- One component of the walk, as the pipeline computes it. -/
def walkStep (value : Value) (part : String) : Value :=
  match value with
  | some (.document d) => Document.get d part
  | _ => some .null

/-- Nothing is found behind null. -/
theorem foldl_walkStep_null (parts : List String) :
    parts.foldl walkStep (some .null) = some .null := by
  induction parts with
  | nil => rfl
  | cons part parts ih => exact ih

theorem foldl_walkStep_none (parts : List String) :
    ifNull (parts.foldl walkStep none) = .null := by
  cases parts with
  | nil => rfl
  | cons part parts => exact congrArg ifNull (foldl_walkStep_null parts)

/-- The fold of the pipeline reaches the value of the walk. -/
theorem foldl_walkStep (parts : List String) (value : Bson) :
    ifNull (parts.foldl walkStep (some value)) = ifNull (some (walkFrom parts value)) := by
  induction parts generalizing value with
  | nil => rfl
  | cons part parts ih =>
      rw [List.foldl_cons]
      cases value with
      | document d =>
          cases found : Document.get d part with
          | none => simpa [walkStep, walkFrom, ifNull, found] using foldl_walkStep_none parts
          | some value => simpa [walkStep, walkFrom, found] using ih value
      | _ => exact congrArg ifNull (foldl_walkStep_null parts)

/-! ## Evaluating the condition -/

section Condition

/-- Whether a value is a document. -/
def isDocument : Value → Bool
  | some (.document _) => true
  | _ => false

/-- One part of the key that a candidate carries. -/
def keyPart (field : String × Bson) : Bson := .document [("k", .string field.1), ("v", field.2)]

variable {equal : Value → Value → Bool}
  (named : ∀ value, equal (some (.string (typeName value))) (some (.string "object")) =
    isDocument value)

include named

theorem eval_step (env : Env) (value : Value) (part : String) :
    KeyMatches.step.eval equal ((env.set "this" (some (.string part))).set "value" value) =
      some (walkStep value part) := by
  have this : ((env.set "this" (some (.string part))).set "value" value) "this" =
      some (.string part) := by
    rw [set_other (by decide), set_self]
  cases document : isDocument value with
  | true =>
      rcases value with _ | value
      · cases document
      · cases value <;> cases document
        simp [KeyMatches.step, Expr.eval, valueAt, named, isDocument, this, walkStep]
  | false =>
      have stops : walkStep value part = some .null := by
        rcases value with _ | value
        · rfl
        · cases value <;> first | rfl | cases document
      simp [KeyMatches.step, Expr.eval, valueAt, named, document, stops]

theorem eval_walk {env : Env} {stored : Document} {name : String} {value : Bson}
    (root : env "ROOT" = some (.document stored))
    (part : env "part" = some (keyPart (name, value))) :
    KeyMatches.walk.eval equal env =
      some ((splitAt '.' name).foldl walkStep (some (.document stored))) := by
  have source : (Expr.split (.variable "part" ["k"]) '.').eval equal env =
      some (some (.array ((splitAt '.' name).map Bson.string))) := by
    simp [Expr.eval, valueAt, part, keyPart]
  apply eval_reduce source
  · simp [Expr.eval, valueAt, root]
  · intro value item _
    exact eval_step named env value item

/-- A part of the key compares the value under its name, or null, with its own value. -/
theorem eval_compare {env : Env} {stored : Document} {field : String × Bson}
    (root : env "ROOT" = some (.document stored)) (part : env "part" = some (keyPart field)) :
    KeyMatches.compare.eval equal env =
      some (some (.boolean
        (equal (some (ifNull (some (walkName field.1 stored)))) (some field.2)))) := by
  have walked := eval_ifNull (eval_walk named root part)
  rw [foldl_walkStep] at walked
  apply eval_eq walked
  simp [Expr.eval, valueAt, part, keyPart]

/-- The condition with the key's array as `documentKey` compares every part of the key. -/
theorem evaluate_keyMatches (fields stored : Document) :
    evaluate equal keyMatches
        ((Env.root stored).set "documentKey" (some (.array (fields.map keyPart)))) =
      some (some (.boolean (fields.all fun field =>
        equal (some (ifNull (some (walkName field.1 stored)))) (some field.2)))) := by
  rw [evaluate, parse_keyMatches, Option.bind_some]
  have source : (Expr.variable "documentKey" []).eval equal
      ((Env.root stored).set "documentKey" (some (.array (fields.map keyPart)))) =
        some (some (.array (fields.map keyPart))) := by
    simp [Expr.eval, valueAt]
  apply eval_allElementsTrue
  apply eval_map source
  intro field _
  apply eval_compare named _ (set_self _ _)
  rw [set_other (by decide), set_other (by decide)]
  rfl

/-- **The lookup finds the documents that have the whole key.** On the row of a candidate the
condition has a value for every stored document. It is true if and only if for every field of the
key the value under its dotted name compares equal to the field's value, where null stands for a
value that is missing, behind something that is no document, or undefined. So a document that
differs under one name of the key is not found, whatever its `_id`. -/
theorem lookup_matches_key {catalog : Option CatalogContext} {stages : List Document}
    (planned : lookupPipeline catalog = .ok stages) {key : MongoKey} {score : Double}
    {row : Document} {metadata : Option Document}
    (emitted : routerNext (key, score) = .advanced row metadata) (stored : Document) :
    ∃ matched, lookupAccepts equal stages row stored = some matched ∧
      (matched = true ↔ ∀ field ∈ key.fields,
        equal (some (ifNull (some (walkName field.1 stored)))) (some field.2) = true) ∧
      ∀ field ∈ key.fields,
        equal (some (ifNull (some (walkName field.1 stored)))) (some field.2) = false →
          matched = false := by
  have parts := lookupParts_of_planned planned
  cases emitted
  have carried : evaluate equal (.string "$__mongoKey") (Env.root
      [("_id", key.id), ("__mongoKey", .array (key.fields.map keyPart))]) =
        some (some (.array (key.fields.map keyPart))) := rfl
  have condition := evaluate_keyMatches named key.fields stored
  refine ⟨key.fields.all fun field =>
    equal (some (ifNull (some (walkName field.1 stored)))) (some field.2), ?_, List.all_eq_true, ?_⟩
  · simp only [lookupAccepts, parts, Option.bind_eq_bind, Option.bind_some]
    exact (congrArg (Option.bind · _) carried).trans (by simp [condition])
  · intro field member differs
    exact List.all_eq_false.mpr ⟨field, member, by simp [differs]⟩

end Condition

section Run

/-- How values of one type compare, and values of different types that are no numbers. -/
def plainEqual : Value → Value → Bool
  | some (.string s), some (.string t) => s == t
  | some (.boolean a), some (.boolean b) => a == b
  | some (.int32 m), some (.int32 n) => m == n
  | some .null, some .null | some .undefined, some .undefined | none, none => true
  | _, _ => false

theorem plainEqual_named (value : Value) :
    plainEqual (some (.string (typeName value))) (some (.string "object")) = isDocument value := by
  rcases value with _ | value
  · rfl
  · cases value <;> rfl

/-- A key with a nested shard key. -/
def cityKey : MongoKey where
  fields := [("_id", .string "a"), ("address.city", .string "Kyiv")]
  hasId := by decide
  validPaths := by decide

/-- The row of the candidate. -/
def cityRow : Document :=
  [("_id", .string "a"), ("__mongoKey", .array [keyPart ("_id", .string "a"),
    keyPart ("address.city", .string "Kyiv")])]

theorem lookup_matches_key_city :
    ∃ stages, lookupPipeline (some ⟨"shop", "items", none, true, 0⟩) = .ok stages ∧
      lookupAccepts plainEqual stages cityRow
        [("_id", .string "a"), ("address", only "city" (.string "Lviv"))] = some false := by
  obtain ⟨stages, planned⟩ :
    ∃ stages, lookupPipeline (some ⟨"shop", "items", none, true, 0⟩) = .ok stages := ⟨_, rfl⟩
  have emitted : routerNext (cityKey, ⟨0x3FF0000000000000⟩) =
      .advanced cityRow (some [(scoreKey, .double ⟨0x3FF0000000000000⟩)]) := rfl
  obtain ⟨matched, evaluated, _, differs⟩ := lookup_matches_key plainEqual_named planned emitted
    [("_id", .string "a"), ("address", only "city" (.string "Lviv"))]
  have other := differs ("address.city", .string "Kyiv") (by simp [cityKey]) (by decide)
  exact ⟨stages, planned, other ▸ evaluated⟩

/-- A hit whose key has null under `tenant`. -/
def nullHit : Json :=
  .object [("_id", .string "\x7b\"_id\":\"a\",\"tenant\":null\x7d"), ("_score", .int 1)]

/-- The readers on the key of the hit. -/
def nullReaders : KeyReaders where
  fromStr _ := .ok (.object [("_id", .string "a"), ("tenant", .null)])
  tryFrom _ := .ok (.document [("_id", .string "a"), ("tenant", .null)])

def nullKey : MongoKey where
  fields := [("_id", .string "a"), ("tenant", .null)]
  hasId := by decide
  validPaths := by decide

/-- Null in the key and undefined in the document do not compare equal, and the lookup finds the
document all the same: `$ifNull` replaces undefined by null. -/
theorem lookup_finds_undefined :
    ∃ score row metadata stages,
      decodeHit nullReaders nullHit = .ok (nullKey, score) ∧
      routerNext (nullKey, score) = .advanced row metadata ∧
      lookupPipeline (some ⟨"shop", "items", none, true, 0⟩) = .ok stages ∧
      lookupAccepts plainEqual stages row [("_id", .string "a"), ("tenant", .undefined)] =
        some true ∧
      ¬ ∀ field ∈ nullKey.fields,
        plainEqual (some (walkName field.1 [("_id", .string "a"), ("tenant", .undefined)]))
          (some field.2) = true := by
  refine ⟨.ofInt 1, _, _, _, rfl, rfl, rfl, rfl, ?_⟩
  intro equal
  have impossible := equal ("tenant", .null) (by simp [nullKey])
  exact absurd impossible (by decide)

end Run

end ExtensionSdkMongodb.OpenSearch

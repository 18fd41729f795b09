import ExtensionSdkMongodb.Aggregation.Expression

/-!
# Aggregation pipelines of MongoDB

The stages `$lookup` on two fields, with variables and a condition, `$unwind` of a field and
`$replaceWith`. A stage makes of each document a list of documents, so a pipeline treats the
documents that enter it one after the other (`runStages_of_each`). As for expressions, a pipeline
has a result where MongoDB has one and its operands are of the kinds below.

A lookup whose matches are unwound and put in place of the document is a join of which only the
matches are kept (`runStages_join`).
-/

set_option autoImplicit false

namespace ExtensionSdkMongodb.Aggregation

/-- What a pipeline reads: which values compare equal, which values the fields of a lookup join, and
the documents of the collections. -/
structure Database where
  equal : Value → Value → Bool
  joined : Value → Value → Bool
  documents : String → List Document

/-- A stage of a pipeline. -/
inductive PipelineStage where
  | lookup (source localField foreignField : String) (bindings : Document)
      (condition : Option Bson) (target : String)
  | unwind (field : String)
  | replaceWith (newRoot : Bson)

/-! ## Syntax -/

/-- The field that a path names. -/
def fieldOf (path : String) : Option String :=
  match path.toList with
  | '$' :: name => if '.' ∈ name ∨ '$' ∈ name then none else some (.ofList name)
  | _ => none

/-- The variables of a lookup. -/
def parseLet : Option Bson → Option Document
  | none => some []
  | some (.document bindings) => some bindings
  | some _ => none

/-- The condition of a lookup, in a pipeline of its own. -/
def parseCondition : Option Bson → Option (Option Bson)
  | none => some none
  | some (.array [.document [("$match", .document [("$expr", condition)])]]) =>
    some (some condition)
  | some _ => none

/-- The stage that a document says. -/
def parseStage : Document → Option PipelineStage
  | [("$lookup", .document lookup)] => do
    let source ← Document.getStr lookup "from"
    let localField ← Document.getStr lookup "localField"
    let foreignField ← Document.getStr lookup "foreignField"
    let bindings ← parseLet (Document.get lookup "let")
    let condition ← parseCondition (Document.get lookup "pipeline")
    let target ← Document.getStr lookup "as"
    return .lookup source localField foreignField bindings condition target
  | [("$unwind", .string path)] => (fieldOf path).map .unwind
  | [("$replaceWith", newRoot)] => some (.replaceWith newRoot)
  | _ => none

/-! ## Meaning -/

section Run

variable (db : Database)

/-- The environment with the variables of a lookup, which are read off the document. -/
def bindAll (row : Document) : Document → Env → Option Env
  | [], env => some env
  | (name, e) :: bindings, env => do
    let value ← evaluate db.equal e (Env.root row)
    bindAll row bindings (env.set name value)

/-- Whether the condition of a lookup accepts a document of the collection. -/
def accepts (bindings : Document) (condition : Option Bson) (row stored : Document) :
    Option Bool :=
  match condition with
  | none => some true
  | some e => do
    let env ← bindAll db row bindings (Env.root stored)
    match ← evaluate db.equal e env with
    | some (.boolean accepted) => some accepted
    | _ => none

/-- The documents that are accepted. -/
def selected (accepts : Document → Option Bool) : List Document → Option (List Document)
  | [] => some []
  | stored :: documents => do
    let accepted ← accepts stored
    let rest ← selected accepts documents
    return if accepted then stored :: rest else rest

/-- What a stage makes of a document. -/
def PipelineStage.onRow (row : Document) : PipelineStage → Option (List Document)
  | .lookup source localField foreignField bindings condition target => do
    let found ← selected (accepts db bindings condition row)
      ((db.documents source).filter fun stored =>
        db.joined (row.get localField) (stored.get foreignField))
    return [row.insert target (.array (found.map .document))]
  | .unwind field =>
    match row.get field with
    | some (.array items) => some (items.map fun item => row.insert field item)
    | value => some (if nullish value then [] else [row])
  | .replaceWith newRoot => do
    match ← evaluate db.equal newRoot (Env.root row) with
    | some (.document d) => some [d]
    | _ => none

/-- A stage on documents. -/
def PipelineStage.run (stage : PipelineStage) (rows : List Document) : Option (List Document) :=
  (rows.mapM fun row => stage.onRow db row).map List.flatten

/-- Stages one after the other. -/
def runStages (stages : List PipelineStage) (rows : List Document) : Option (List Document) :=
  stages.foldlM (fun rows stage => stage.run db rows) rows

/-- A pipeline of stage documents. -/
def runPipeline (stages : List Document) (rows : List Document) : Option (List Document) := do
  let stages ← stages.mapM parseStage
  runStages db stages rows

end Run

/-! ## Rules -/

section Rules

variable {db : Database}

theorem selected_of_each {accepts : Document → Option Bool} {holds : Document → Bool}
    {documents : List Document}
    (each : ∀ stored ∈ documents, accepts stored = some (holds stored)) :
    selected accepts documents = some (documents.filter holds) := by
  induction documents with
  | nil => rfl
  | cons stored documents ih =>
      have rest := ih fun other member => each other (List.mem_cons_of_mem _ member)
      simp only [selected, each stored List.mem_cons_self, rest, Option.bind_eq_bind,
        Option.bind_some, List.filter_cons]
      rfl

theorem PipelineStage.run_append {stage : PipelineStage} {rows others out out' : List Document}
    (first : stage.run db rows = some out) (second : stage.run db others = some out') :
    stage.run db (rows ++ others) = some (out ++ out') := by
  unfold PipelineStage.run at first second ⊢
  obtain ⟨parts, each, rfl⟩ := Option.map_eq_some_iff.mp first
  obtain ⟨parts', each', rfl⟩ := Option.map_eq_some_iff.mp second
  rw [List.mapM_append, each, each']
  simp

theorem runStages_append {stages : List PipelineStage} {rows others out out' : List Document}
    (first : runStages db stages rows = some out)
    (second : runStages db stages others = some out') :
    runStages db stages (rows ++ others) = some (out ++ out') := by
  induction stages generalizing rows others with
  | nil =>
      cases first
      cases second
      rfl
  | cons stage stages ih =>
      simp only [runStages, List.foldlM_cons, Option.bind_eq_bind, Option.bind_eq_some_iff] at *
      obtain ⟨between, here, rest⟩ := first
      obtain ⟨between', here', rest'⟩ := second
      exact ⟨between ++ between', PipelineStage.run_append here here', ih rest rest'⟩

/-- **A pipeline treats the documents that enter it one after the other.** -/
theorem runStages_of_each {stages : List PipelineStage} {f : Document → List Document}
    {rows : List Document} (none : runStages db stages [] = some [])
    (each : ∀ row ∈ rows, runStages db stages [row] = some (f row)) :
    runStages db stages rows = some (rows.flatMap f) := by
  induction rows with
  | nil => exact none
  | cons row rows ih =>
      have rest := ih fun other member => each other (List.mem_cons_of_mem _ member)
      exact runStages_append (each row List.mem_cons_self) rest

theorem PipelineStage.run_singleton (stage : PipelineStage) (row : Document) :
    stage.run db [row] = stage.onRow db row := by
  rw [PipelineStage.run, List.mapM_cons]
  cases stage.onRow db row with
  | none => rfl
  | some out => simp

/-- **A lookup whose matches replace the document is a nested loop**: for each document its matches
in the collection, and nothing for a document without matches. -/
theorem runStages_join {source localField foreignField target : String} {bindings : Document}
    {condition : Option Bson} {newRoot : Bson} {found : Document → List Document}
    {rows : List Document}
    (reads : ∀ d, evaluate db.equal newRoot (Env.root d) = some (Document.get d target))
    (selects : ∀ row ∈ rows, selected (accepts db bindings condition row)
      ((db.documents source).filter fun stored =>
        db.joined (row.get localField) (stored.get foreignField)) = some (found row)) :
    runStages db [.lookup source localField foreignField bindings condition target, .unwind target,
      .replaceWith newRoot] rows = some (rows.flatMap found) := by
  apply runStages_of_each rfl
  intro row member
  let looked : Document := row.insert target (.array ((found row).map .document))
  let matched (d : Document) : Document := looked.insert target (.document d)
  have lookup : PipelineStage.onRow db row
      (.lookup source localField foreignField bindings condition target) = some [looked] := by
    simp only [PipelineStage.onRow, selects row member, Option.bind_eq_bind, Option.bind_some,
      looked]
    rfl
  have unwind : PipelineStage.onRow db looked (.unwind target) =
      some ((found row).map matched) := by
    have array : looked.get target = some (.array ((found row).map .document)) := by
      rw [Document.get_insert, if_pos rfl]
    simp only [PipelineStage.onRow, array, List.map_map]
    rfl
  have replace : ∀ docs : List Document,
      PipelineStage.run db (.replaceWith newRoot) (docs.map matched) = some docs := by
    intro docs
    induction docs with
    | nil => rfl
    | cons d docs ih =>
        have one : PipelineStage.run db (.replaceWith newRoot) [matched d] = some [d] := by
          have root : (matched d).get target = some (.document d) := by
            rw [Document.get_insert, if_pos rfl]
          rw [PipelineStage.run_singleton]
          simp only [PipelineStage.onRow, reads, root, Option.bind_eq_bind, Option.bind_some]
        exact PipelineStage.run_append one ih
  simp only [runStages, List.foldlM_cons, List.foldlM_nil, PipelineStage.run_singleton, lookup,
    unwind, replace, Option.bind_eq_bind, Option.bind_some]
  rfl

end Rules

end ExtensionSdkMongodb.Aggregation

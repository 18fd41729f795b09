import ExtensionSdkMongodb.Data.Bson
import ExtensionSdkMongodb.Data.Text
import ExtensionSdkMongodb.Sdk.Error

/-!
# Validation of vector search filters

A filter is forwarded to OpenSearch as query DSL, so only a closed set of clauses is accepted.
The validator walks a clause with its depth and a counter of clauses that is shared by the whole
filter: each clause counts itself, and a `bool` hands the counter from one child to the next.
-/

set_option autoImplicit false

namespace ExtensionSdkMongodb.OpenSearch

def maxFilterDepth : ℕ := 8

def maxFilterClauses : ℕ := 256

def maxFilterTerms : ℕ := 1024

/-! ## Texts -/

/-- `bad_filter`. -/
def badFilter (message : String) : ExtensionError := .badValue ("filter: " ++ message)

/-! ## Entries, fields and scalars -/

/-- `single_entry`. -/
def singleEntry (d : Document) (message : String) : Except ExtensionError (String × Bson) :=
  match d with
  | [entry] => .ok entry
  | _ => .error (badFilter message)

/-- A name no clause may target: empty, or with a leading underscore. -/
def reserved (name : String) : Bool := name.toList.isEmpty || name.toList.head? == some '_'

section Validation

variable (unicode : UnicodeTables)

/-- `validate_field_name`. -/
def validateFieldName (name : String) : Except ExtensionError Unit :=
  if reserved name then
    .error (badFilter ("field " ++ debugString unicode name ++ " is not allowed"))
  else .ok ()

/-- `single_field`. -/
def singleField (body : Document) (kind : String) : Except ExtensionError Bson := do
  let (field, value) ← singleEntry body (kind ++ " must target exactly one field")
  validateFieldName unicode field
  return value

/-- A scalar of a filter. -/
def isScalar : Bson → Bool
  | .string _ | .boolean _ | .int32 _ | .int64 _ => true
  | .double v => v.isFinite
  | _ => false

/-- `require_scalar`. -/
def requireScalar (value : Bson) (kind : String) : Except ExtensionError Unit :=
  if isScalar value then .ok ()
  else .error (badFilter (kind ++ " values must be strings, numbers or booleans"))

/-! ## Queries without clauses in them -/

/-- The `term` arm. -/
def validateTerm (body : Document) : Except ExtensionError Unit := do
  match ← singleField unicode body "term" with
  | .document d =>
    let (key, inner) ← singleEntry d "term accepts only \x7bvalue: <scalar>\x7d"
    if key = "value" then requireScalar inner "term"
    else .error (badFilter "term accepts only \x7bvalue: <scalar>\x7d")
  | other => requireScalar other "term"

/-- `try_for_each` over the values of `terms`. -/
def requireScalars (kind : String) : List Bson → Except ExtensionError Unit
  | [] => .ok ()
  | value :: values => do
    requireScalar value kind
    requireScalars kind values

/-- The `terms` arm. -/
def validateTerms (body : Document) : Except ExtensionError Unit := do
  match ← singleField unicode body "terms" with
  | .array values =>
    if maxFilterTerms < values.length then .error (badFilter "terms has too many values")
    else requireScalars "terms" values
  | _ => .error (badFilter "terms must map one field to an array of values")

def isString : Bson → Bool
  | .string _ => true
  | _ => false

/-- The loop over the bounds of `range`. -/
def validateBounds : List (String × Bson) → Except ExtensionError Unit
  | [] => .ok ()
  | (op, value) :: bounds => do
    if op ∈ ["gt", "gte", "lt", "lte"] then requireScalar value "range"
    else if op = "format" ∧ isString value = true then .ok ()
    else .error (badFilter ("unsupported range option " ++ op))
    validateBounds bounds

/-- The `range` arm. -/
def validateRange (body : Document) : Except ExtensionError Unit := do
  match ← singleField unicode body "range" with
  | .document bounds => validateBounds bounds
  | _ => .error (badFilter "range must map one field to bounds")

/-- The `exists` arm. -/
def validateExists (body : Document) : Except ExtensionError Unit := do
  match ← singleEntry body "exists accepts only \x7bfield: <name>\x7d" with
  | ("field", .string name) => validateFieldName unicode name
  | _ => .error (badFilter "exists accepts only \x7bfield: <name>\x7d")

/-- The `ids` arm. -/
def validateIds (body : Document) : Except ExtensionError Unit := do
  let message := "ids accepts only \x7bvalues: [<string>]\x7d"
  match ← singleEntry body message with
  | ("values", .array values) =>
    if maxFilterTerms < values.length ∨ values.all isString = false then
      .error (badFilter message)
    else .ok ()
  | _ => .error (badFilter message)

/-- The arms of `validate_filter_clause` without clauses in them, and the unsupported ones. -/
def validateLeaf (kind : String) (body : Document) : Except ExtensionError Unit :=
  match kind with
  | "term" => validateTerm unicode body
  | "terms" => validateTerms unicode body
  | "range" => validateRange unicode body
  | "exists" => validateExists unicode body
  | "ids" => validateIds body
  | other => .error (badFilter ("unsupported query type " ++ other))

/-! ## Clauses -/

/-- The keys of `bool` that hold clauses. -/
def occurrences : List String := ["must", "filter", "should", "must_not"]

/-- What `minimum_should_match` may be. -/
def isMinimum : Bson → Bool
  | .int32 _ | .int64 _ | .string _ => true
  | _ => false

mutual

/-- `validate_filter_clause`, from a depth and the number of clauses so far to the number after
the clause. -/
def validateFilterClause : List (String × Bson) → ℕ → ℕ → Except ExtensionError ℕ
  | clause, depth, clauses =>
    if maxFilterDepth < depth ∨ maxFilterClauses < clauses + 1 then
      .error (badFilter "too deeply nested or too many clauses")
    else
      match clause with
      | [(kind, body)] => validateQuery kind body depth (clauses + 1)
      | [] | _ :: _ :: _ => .error (badFilter "each clause must have exactly one query type")

/-- The rest of `validate_filter_clause`, from the query of the clause on. -/
def validateQuery (kind : String) : Bson → ℕ → ℕ → Except ExtensionError ℕ
  | .document body, depth, clauses =>
    if kind = "bool" then validateBool body depth clauses
    else do
      validateLeaf unicode kind body
      return clauses
  | _, _, _ => .error (badFilter (kind ++ " must be a document"))

/-- `validate_bool`. -/
def validateBool : List (String × Bson) → ℕ → ℕ → Except ExtensionError ℕ
  | [], _, clauses => .ok clauses
  | (occur, value) :: body, depth, clauses => do
    let clauses ← validateOption occur value depth clauses
    validateBool body depth clauses

/-- The body of the loop of `validate_bool`. -/
def validateOption (occur : String) : Bson → ℕ → ℕ → Except ExtensionError ℕ
  | value, depth, clauses =>
    if occur ∈ occurrences then
      match value with
      | .document d => validateFilterClause d (depth + 1) clauses
      | .array items => validateItems occur items (depth + 1) clauses
      | _ => .error (badFilter ("bool." ++ occur ++ " must be a clause or array"))
    else if occur = "minimum_should_match" ∧ isMinimum value = true then .ok clauses
    else .error (badFilter ("unsupported bool option " ++ occur))

/-- The loop over an array of clauses. -/
def validateItems (occur : String) : List Bson → ℕ → ℕ → Except ExtensionError ℕ
  | [], _, clauses => .ok clauses
  | item :: items, depth, clauses =>
    match item with
    | .document d => do
      let clauses ← validateFilterClause d depth clauses
      validateItems occur items depth clauses
    | _ => .error (badFilter ("bool." ++ occur ++ " items must be clauses"))

end

end Validation

example : validateFilterClause .ascii [("bool", .document
    [("must", .array [.document [("term", .document [("a", .int32 1)])]])])] 1 0 = .ok 2 := by
  rfl

end ExtensionSdkMongodb.OpenSearch

import ExtensionSdkMongodb.Data.Text
import ExtensionSdkMongodb.OpenSearch.FilterGrammar

/-!
# The arguments of a vector search

`parseVectorSearchArgs` reads a path, a query, a limit and a filter. What it returns is well
formed (`QueryArgs.WellFormed`): the texts are trimmed and not empty, the limit is in its range
and the filter is one the validator accepts. Well-formed arguments written as a document parse
to themselves (`parseVectorSearchArgs_innerArgs`).
-/

set_option autoImplicit false

namespace ExtensionSdkMongodb.OpenSearch

/-- The arguments of a vector search. -/
structure QueryArgs where
  path : String
  query : String
  limit : Int64
  filter : Option Document

/-! ## Parsing -/

/-- `bson_string`. -/
def bsonString (args : Document) (key : String) : Except ExtensionError String :=
  match args.getStr key with
  | none => .error (.badValue (key ++ " must be a string"))
  | some value =>
    if trim value = "" then .error (.badValue (key ++ " must not be empty"))
    else .ok (trim value)

/-- The numbers `bson_i64` takes. -/
def numberAsI64 : Bson → Option Int64
  | .int32 v => some v.toInt64
  | .int64 v => some v
  | .double v => if v.isFinite then some v.asI64 else none
  | _ => none

/-- `bson_i64`. -/
def bsonI64 (args : Document) (key : String) (default min max : Int64) :
    Except ExtensionError Int64 :=
  match args.get key with
  | none => .ok default
  | some value =>
    match numberAsI64 value with
    | none => .error (.badValue (key ++ " must be a finite number"))
    | some parsed =>
      if parsed < min ∨ max < parsed then
        .error (.badValue
          (key ++ " must be between " ++ toString min ++ " and " ++ toString max))
      else .ok parsed

def defaultLimit : Int64 := 10

def maxLimit : Int64 := 1000

variable (unicode : UnicodeTables)

/-- The filter of `parse_vector_search_args`. -/
def parseFilter (args : Document) : Except ExtensionError (Option Document) :=
  match args.get "filter" with
  | none => .ok none
  | some (.document filter) => do
    let _ ← validateFilterClause unicode filter 1 0
    return some filter
  | some _ => .error (badFilter "filter must be a document")

/-- `parse_vector_search_args`. -/
def parseVectorSearchArgs (args : Document) : Except ExtensionError QueryArgs := do
  let filter ← parseFilter unicode args
  let path ← bsonString args "path"
  let query ← bsonString args "query"
  let limit ← bsonI64 args "limit" defaultLimit 1 maxLimit
  return ⟨path, query, limit, filter⟩

/-! ## Well-formed arguments -/

/-- A text as `bson_string` returns it. -/
def Trimmed (s : String) : Prop := trim s = s ∧ s ≠ ""

/-- What parsed arguments satisfy. -/
structure QueryArgs.WellFormed (q : QueryArgs) : Prop where
  path : Trimmed q.path
  query : Trimmed q.query
  positive : 1 ≤ q.limit
  bounded : q.limit ≤ maxLimit
  filter : ∀ filter ∈ q.filter, ∃ total, validateFilterClause unicode filter 1 0 = .ok total

theorem bsonString_trimmed {args : Document} {key s : String}
    (parsed : bsonString args key = .ok s) : Trimmed s := by
  unfold bsonString at parsed
  split at parsed
  · cases parsed
  · split at parsed
    · cases parsed
    · next nonempty =>
      cases parsed
      exact ⟨trim_trim _, nonempty⟩

/-- A trimmed text under the key is read as it is. -/
theorem bsonString_of_trimmed {args : Document} {key s : String}
    (found : args.get key = some (.string s)) (trimmed : Trimmed s) :
    bsonString args key = .ok s := by
  obtain ⟨same, nonempty⟩ := trimmed
  simp [bsonString, Document.getStr, found, Bson.asStr, same, nonempty]

theorem bsonI64_bounds {args : Document} {key : String} {default min max n : Int64}
    (parsed : bsonI64 args key default min max = .ok n) (low : min ≤ default)
    (high : default ≤ max) : min ≤ n ∧ n ≤ max := by
  unfold bsonI64 at parsed
  split at parsed
  · cases parsed
    exact ⟨low, high⟩
  · split at parsed
    · cases parsed
    · split at parsed
      · cases parsed
      · next inside =>
        cases parsed
        rw [not_or] at inside
        exact ⟨Int64.not_lt.mp inside.1, Int64.not_lt.mp inside.2⟩

/-- An integer under the key and within the bounds is read as it is. -/
theorem bsonI64_of_bounds {args : Document} {key : String} {default min max n : Int64}
    (found : args.get key = some (.int64 n)) (low : min ≤ n) (high : n ≤ max) :
    bsonI64 args key default min max = .ok n := by
  have inside : ¬(n < min ∨ max < n) := by
    rw [not_or]
    exact ⟨Int64.not_lt.mpr low, Int64.not_lt.mpr high⟩
  simp [bsonI64, found, numberAsI64, inside]

variable {unicode}

theorem parseFilter_ok {args : Document} {filter : Option Document}
    (parsed : parseFilter unicode args = .ok filter) :
    args.get "filter" = filter.map Bson.document ∧
      ∀ d ∈ filter, ∃ total, validateFilterClause unicode d 1 0 = .ok total := by
  unfold parseFilter at parsed
  split at parsed
  · next absent =>
    cases parsed
    exact ⟨absent, by simp⟩
  · next d given =>
    obtain ⟨total, accepted, same⟩ := bind_ok.mp parsed
    cases same
    refine ⟨given, ?_⟩
    intro d' same
    cases same
    exact ⟨total, accepted⟩
  · cases parsed

theorem parseFilter_of_accepted {args : Document} {filter : Option Document}
    (given : args.get "filter" = filter.map Bson.document)
    (accepted : ∀ d ∈ filter, ∃ total, validateFilterClause unicode d 1 0 = .ok total) :
    parseFilter unicode args = .ok filter := by
  cases filter with
  | none =>
      rw [Option.map_none] at given
      simp [parseFilter, given]
  | some d =>
      rw [Option.map_some] at given
      obtain ⟨total, valid⟩ := accepted d rfl
      simp only [parseFilter, given]
      exact bind_ok.mpr ⟨total, valid, rfl⟩

/-- Parsed arguments are well formed, and their filter is the one that was given. -/
theorem parseVectorSearchArgs_ok {args : Document} {q : QueryArgs}
    (parsed : parseVectorSearchArgs unicode args = .ok q) :
    q.WellFormed unicode ∧ args.get "filter" = q.filter.map Bson.document := by
  obtain ⟨filter, filterParsed, parsed⟩ := bind_ok.mp parsed
  obtain ⟨path, pathParsed, parsed⟩ := bind_ok.mp parsed
  obtain ⟨query, queryParsed, parsed⟩ := bind_ok.mp parsed
  obtain ⟨limit, limitParsed, same⟩ := bind_ok.mp parsed
  cases same
  obtain ⟨given, accepted⟩ := parseFilter_ok filterParsed
  obtain ⟨positive, bounded⟩ := bsonI64_bounds limitParsed (by decide) (by decide)
  exact ⟨⟨bsonString_trimmed pathParsed, bsonString_trimmed queryParsed, positive, bounded,
    accepted⟩, given⟩

/-! ## Arguments as a document -/

/-- The inner document that `id_lookup_expansion` builds. -/
def innerArgs (args : QueryArgs) : Document :=
  let inner : Document :=
    [("path", .string args.path), ("query", .string args.query), ("limit", .int64 args.limit)]
  match args.filter with
  | none => inner
  | some filter => inner.insert "filter" (.document filter)

theorem innerArgs_eq (q : QueryArgs) :
    innerArgs q = [("path", .string q.path), ("query", .string q.query),
      ("limit", .int64 q.limit)] ++ (q.filter.map fun d => ("filter", Bson.document d)).toList := by
  unfold innerArgs
  cases q.filter with
  | none => rfl
  | some d => simp [Document.insert, Document.containsKey]

/-- **Well-formed arguments written as a document parse to themselves.** -/
theorem parseVectorSearchArgs_innerArgs {q : QueryArgs} (wellFormed : q.WellFormed unicode) :
    parseVectorSearchArgs unicode (innerArgs q) = .ok q := by
  have path : (innerArgs q).get "path" = some (.string q.path) := by simp [innerArgs_eq]
  have query : (innerArgs q).get "query" = some (.string q.query) := by simp [innerArgs_eq]
  have limit : (innerArgs q).get "limit" = some (.int64 q.limit) := by simp [innerArgs_eq]
  have filter : (innerArgs q).get "filter" = q.filter.map Bson.document := by
    rw [innerArgs_eq]
    cases q.filter <;> simp
  refine bind_ok.mpr ⟨q.filter, parseFilter_of_accepted filter wellFormed.filter, ?_⟩
  refine bind_ok.mpr ⟨q.path, bsonString_of_trimmed path wellFormed.path, ?_⟩
  refine bind_ok.mpr ⟨q.query, bsonString_of_trimmed query wellFormed.query, ?_⟩
  exact bind_ok.mpr
    ⟨q.limit, bsonI64_of_bounds limit wellFormed.positive wellFormed.bounded, rfl⟩

end ExtensionSdkMongodb.OpenSearch

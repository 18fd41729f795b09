import ExtensionSdkMongodb.OpenSearch.Filter

/-!
# The grammar of filters

`Clause h n d` says that the document `d` is a clause of the allowlist, with clauses nested `h`
deep and `n` clauses in all. The validator decides the grammar under its two bounds
(`validateFilterClause_iff`): what it accepts from a depth and a count are the clauses that fit
into what is left of the bounds, and the count it returns has grown by the clauses.

So nothing inside an accepted filter is of another query type or targets a reserved field
(`clause_within`).
-/

set_option autoImplicit false

namespace ExtensionSdkMongodb.OpenSearch

/-! ## Scalars and fields -/

/-- Strings, booleans, integers and finite doubles. -/
inductive Scalar : Bson → Prop where
  | string (s : String) : Scalar (.string s)
  | boolean (b : Bool) : Scalar (.boolean b)
  | int32 (n : Int32) : Scalar (.int32 n)
  | int64 (n : Int64) : Scalar (.int64 n)
  | double (v : Double) (finite : v.isFinite = true) : Scalar (.double v)

/-- A field that a clause may target: not empty, and without a leading underscore. -/
def Targetable (name : String) : Prop := name ≠ "" ∧ name.toList.head? ≠ some '_'

/-- A bound of a range. -/
inductive Bound : String → Bson → Prop where
  | scalar {op : String} {value : Bson} (known : op ∈ ["gt", "gte", "lt", "lte"])
      (scalar : Scalar value) : Bound op value
  | format (s : String) : Bound "format" (.string s)

/-- A `term` query: one field with a scalar, plain or under `value`. -/
inductive TermBody : Document → Prop where
  | plain {field : String} {value : Bson} (targetable : Targetable field) (scalar : Scalar value) :
      TermBody [(field, value)]
  | value {field : String} {value : Bson} (targetable : Targetable field) (scalar : Scalar value) :
      TermBody [(field, .document [("value", value)])]

/-- A `terms` query: one field with an array of scalars. -/
inductive TermsBody : Document → Prop where
  | mk {field : String} {values : List Bson} (targetable : Targetable field)
      (few : values.length ≤ 1024) (scalars : ∀ v ∈ values, Scalar v) :
      TermsBody [(field, .array values)]

/-- A `range` query: one field with bounds. -/
inductive RangeBody : Document → Prop where
  | mk {field : String} {bounds : Document} (targetable : Targetable field)
      (bounded : ∀ bound ∈ bounds, Bound bound.1 bound.2) :
      RangeBody [(field, .document bounds)]

/-- An `exists` query: the name of a field. -/
inductive ExistsBody : Document → Prop where
  | mk {name : String} (targetable : Targetable name) : ExistsBody [("field", .string name)]

/-- An `ids` query: an array of strings. -/
inductive IdsBody : Document → Prop where
  | mk {values : List Bson} (few : values.length ≤ 1024)
      (strings : ∀ v ∈ values, ∃ s, v = .string s) : IdsBody [("values", .array values)]

/-- The queries without clauses in them, by query type and body. -/
def Leaf (kind : String) (body : Document) : Prop :=
  match kind with
  | "term" => TermBody body
  | "terms" => TermsBody body
  | "range" => RangeBody body
  | "exists" => ExistsBody body
  | "ids" => IdsBody body
  | _ => False

/-- What `minimum_should_match` may hold. -/
inductive Minimum : Bson → Prop where
  | int32 (n : Int32) : Minimum (.int32 n)
  | int64 (n : Int64) : Minimum (.int64 n)
  | string (s : String) : Minimum (.string s)

/-! ## Clauses -/

mutual

/-- A clause, by its nesting, its number of clauses and its document. -/
inductive Clause : ℕ → ℕ → Document → Prop where
  | leaf {kind : String} {body : Document} (leaf : Leaf kind body) :
      Clause 1 1 [(kind, .document body)]
  | bool {h n : ℕ} {body : Document} (options : Options h n body) :
      Clause (h + 1) (n + 1) [("bool", .document body)]

/-- The options of a `bool`, with the clauses in them. -/
inductive Options : ℕ → ℕ → List (String × Bson) → Prop where
  | nil : Options 0 0 []
  | cons {h h' n n' : ℕ} {occur : String} {value : Bson} {body : List (String × Bson)}
      (option : BoolOption h n occur value) (options : Options h' n' body) :
      Options (max h h') (n + n') ((occur, value) :: body)

/-- One option of a `bool`. -/
inductive BoolOption : ℕ → ℕ → String → Bson → Prop where
  | clause {h n : ℕ} {occur : String} {d : Document}
      (known : occur ∈ ["must", "filter", "should", "must_not"]) (clause : Clause h n d) :
      BoolOption h n occur (.document d)
  | clauses {h n : ℕ} {occur : String} {items : List Bson}
      (known : occur ∈ ["must", "filter", "should", "must_not"]) (derived : Items h n items) :
      BoolOption h n occur (.array items)
  | minimum {value : Bson} (minimum : Minimum value) :
      BoolOption 0 0 "minimum_should_match" value

/-- An array of clauses. -/
inductive Items : ℕ → ℕ → List Bson → Prop where
  | nil : Items 0 0 []
  | cons {h h' n n' : ℕ} {d : Document} {items : List Bson} (clause : Clause h n d)
      (derived : Items h' n' items) : Items (max h h') (n + n') (.document d :: items)

end

/-! ## The validator of leaves decides them -/

theorem isScalar_iff (value : Bson) : isScalar value = true ↔ Scalar value := by
  constructor
  · intro scalar
    cases value with
    | string s => exact .string s
    | boolean b => exact .boolean b
    | int32 n => exact .int32 n
    | int64 n => exact .int64 n
    | double v => exact .double v scalar
    | _ => cases scalar
  · intro scalar
    cases scalar with
    | double v finite => exact finite
    | _ => rfl

theorem isMinimum_iff (value : Bson) : isMinimum value = true ↔ Minimum value := by
  constructor
  · intro minimum
    cases value with
    | string s => exact .string s
    | int32 n => exact .int32 n
    | int64 n => exact .int64 n
    | _ => cases minimum
  · intro minimum
    cases minimum <;> rfl

theorem isString_iff (value : Bson) : isString value = true ↔ ∃ s, value = .string s := by
  constructor
  · intro text
    cases value with
    | string s => exact ⟨s, rfl⟩
    | _ => cases text
  · rintro ⟨s, rfl⟩
    rfl

theorem reserved_iff (name : String) : reserved name = false ↔ Targetable name := by
  simp [reserved, Targetable]

variable {unicode : UnicodeTables}

theorem validateFieldName_iff (name : String) :
    validateFieldName unicode name = .ok () ↔ Targetable name := by
  rw [← reserved_iff, validateFieldName]
  cases reserved name <;> simp

theorem requireScalar_iff (value : Bson) (kind : String) :
    requireScalar value kind = .ok () ↔ Scalar value := by
  rw [← isScalar_iff, requireScalar]
  cases isScalar value <;> simp

theorem requireScalars_iff (kind : String) (values : List Bson) :
    requireScalars kind values = .ok () ↔ ∀ v ∈ values, Scalar v := by
  induction values with
  | nil => simp [requireScalars]
  | cons value values ih =>
      rw [List.forall_mem_cons, ← requireScalar_iff value kind, ← ih, requireScalars]
      cases requireScalar value kind <;> simp [bind, Except.bind]

theorem validateBounds_iff (bounds : Document) :
    validateBounds bounds = .ok () ↔ ∀ bound ∈ bounds, Bound bound.1 bound.2 := by
  induction bounds with
  | nil => simp [validateBounds]
  | cons bound bounds ih =>
      obtain ⟨op, value⟩ := bound
      rw [List.forall_mem_cons, ← ih]
      simp only [validateBounds]
      by_cases known : op ∈ ["gt", "gte", "lt", "lte"]
      · have bounded : Bound op value ↔ requireScalar value "range" = .ok () := by
          rw [requireScalar_iff]
          constructor
          · rintro (⟨_, scalar⟩ | ⟨s⟩)
            · exact scalar
            · exact absurd known (by decide)
          · exact .scalar known
        rw [if_pos known, bounded, bind_ok]
        constructor
        · rintro ⟨_, checked, rest⟩
          exact ⟨checked, rest⟩
        · rintro ⟨checked, rest⟩
          exact ⟨(), checked, rest⟩
      · rw [if_neg known]
        by_cases format : op = "format" ∧ isString value = true
        · obtain ⟨rfl, text⟩ := format
          obtain ⟨s, rfl⟩ := (isString_iff value).mp text
          rw [if_pos ⟨rfl, text⟩]
          simp [bind, Except.bind, Bound.format s]
        · have unbounded : ¬ Bound op value := by
            rintro (⟨known', _⟩ | ⟨s⟩)
            · exact known known'
            · exact format ⟨rfl, rfl⟩
          rw [if_neg format]
          simp [bind, Except.bind, unbounded]

theorem singleEntry_ok (d : Document) (message : String) (entry : String × Bson) :
    singleEntry d message = .ok entry ↔ d = [entry] := by
  unfold singleEntry
  split
  · simp
  · next several =>
    constructor
    · intro impossible
      cases impossible
    · rintro rfl
      exact absurd rfl (several entry)

/-- What `single_field` returns is the value of the only field, whose name may be targeted. -/
theorem singleField_ok (body : Document) (kind : String) (value : Bson) :
    singleField unicode body kind = .ok value ↔
      ∃ field, body = [(field, value)] ∧ Targetable field := by
  unfold singleField
  rw [bind_ok]
  constructor
  · rintro ⟨⟨field, value'⟩, entry, checked⟩
    obtain ⟨_, named, same⟩ := bind_ok.mp checked
    cases same
    exact ⟨field, (singleEntry_ok _ _ _).mp entry, (validateFieldName_iff field).mp named⟩
  · rintro ⟨field, rfl, targetable⟩
    exact ⟨(field, value), rfl,
      bind_ok.mpr ⟨(), (validateFieldName_iff field).mpr targetable, rfl⟩⟩

theorem validateTerm_iff (body : Document) :
    validateTerm unicode body = .ok () ↔ TermBody body := by
  unfold validateTerm
  rw [bind_ok]
  constructor
  · rintro ⟨value, field, checked⟩
    obtain ⟨name, rfl, targetable⟩ := (singleField_ok _ _ _).mp field
    split at checked
    · next d =>
      obtain ⟨⟨key, inner⟩, entry, scalar⟩ := bind_ok.mp checked
      obtain rfl := (singleEntry_ok _ _ _).mp entry
      by_cases same : key = "value"
      · subst same
        exact .value targetable ((requireScalar_iff _ _).mp scalar)
      · simp [same] at scalar
    · exact .plain targetable ((requireScalar_iff _ _).mp checked)
  · intro term
    cases term with
    | plain targetable scalar =>
        refine ⟨_, (singleField_ok _ _ _).mpr ⟨_, rfl, targetable⟩, ?_⟩
        cases scalar with
        | double v finite => exact (requireScalar_iff _ _).mpr (.double v finite)
        | _ => rfl
    | value targetable scalar =>
        refine ⟨_, (singleField_ok _ _ _).mpr ⟨_, rfl, targetable⟩, ?_⟩
        exact bind_ok.mpr ⟨_, rfl, (requireScalar_iff _ _).mpr scalar⟩

theorem validateTerms_iff (body : Document) :
    validateTerms unicode body = .ok () ↔ TermsBody body := by
  unfold validateTerms maxFilterTerms
  rw [bind_ok]
  constructor
  · rintro ⟨value, field, checked⟩
    obtain ⟨name, rfl, targetable⟩ := (singleField_ok _ _ _).mp field
    split at checked
    · split at checked
      · cases checked
      · next few =>
        exact ⟨targetable, Nat.not_lt.mp few, (requireScalars_iff _ _).mp checked⟩
    · cases checked
  · rintro ⟨targetable, few, scalars⟩
    refine ⟨_, (singleField_ok _ _ _).mpr ⟨_, rfl, targetable⟩, ?_⟩
    simp only
    rw [if_neg (Nat.not_lt.mpr few)]
    exact (requireScalars_iff _ _).mpr scalars

theorem validateRange_iff (body : Document) :
    validateRange unicode body = .ok () ↔ RangeBody body := by
  unfold validateRange
  rw [bind_ok]
  constructor
  · rintro ⟨value, field, checked⟩
    obtain ⟨name, rfl, targetable⟩ := (singleField_ok _ _ _).mp field
    split at checked
    · exact ⟨targetable, (validateBounds_iff _).mp checked⟩
    · cases checked
  · rintro ⟨targetable, bounded⟩
    exact ⟨_, (singleField_ok _ _ _).mpr ⟨_, rfl, targetable⟩, (validateBounds_iff _).mpr bounded⟩

theorem validateExists_iff (body : Document) :
    validateExists unicode body = .ok () ↔ ExistsBody body := by
  unfold validateExists
  rw [bind_ok]
  constructor
  · rintro ⟨entry, single, checked⟩
    obtain rfl := (singleEntry_ok _ _ _).mp single
    split at checked
    · exact ⟨(validateFieldName_iff _).mp checked⟩
    · cases checked
  · rintro ⟨targetable⟩
    exact ⟨_, rfl, (validateFieldName_iff _).mpr targetable⟩

theorem validateIds_iff (body : Document) : validateIds body = .ok () ↔ IdsBody body := by
  simp only [validateIds, maxFilterTerms, bind_ok]
  constructor
  · rintro ⟨entry, single, checked⟩
    obtain rfl := (singleEntry_ok _ _ _).mp single
    split at checked
    · next values =>
      obtain ⟨few, texts⟩ : values.length ≤ 1024 ∧ ∀ v ∈ values, isString v = true := by
        simpa using checked
      exact ⟨few, fun v mem => (isString_iff v).mp (texts v mem)⟩
    · cases checked
  · rintro ⟨few, texts⟩
    refine ⟨_, rfl, ?_⟩
    have strings := List.all_eq_true.mpr fun v mem => (isString_iff v).mpr (texts v mem)
    simp only [Nat.not_lt.mpr few, strings, Bool.true_eq_false, or_self, if_false]

/-- **The leaves the validator accepts are the leaves of the grammar.** -/
theorem validateLeaf_iff (kind : String) (body : Document) :
    validateLeaf unicode kind body = .ok () ↔ Leaf kind body := by
  unfold validateLeaf
  split
  · exact validateTerm_iff body
  · exact validateTerms_iff body
  · exact validateRange_iff body
  · exact validateExists_iff body
  · exact validateIds_iff body
  · constructor
    · intro impossible
      cases impossible
    · intro leaf
      unfold Leaf at leaf
      split at leaf <;> simp_all

/-! ## The validator decides the grammar under its bounds -/

mutual

/-- **From a depth and a count, the accepted clauses are those that fit into what is left of the
bounds, and the count grows by their clauses.** -/
theorem validateFilterClause_iff (clause : List (String × Bson)) (depth clauses total : ℕ) :
    validateFilterClause unicode clause depth clauses = .ok total ↔
      ∃ h n, Clause h n clause ∧ total = clauses + n ∧ depth + h ≤ maxFilterDepth + 1 ∧
        total ≤ maxFilterClauses := by
  unfold validateFilterClause
  by_cases beyond : maxFilterDepth < depth ∨ maxFilterClauses < clauses + 1
  · rw [if_pos beyond]
    constructor
    · intro impossible
      cases impossible
    · rintro ⟨h, n, derived, rfl, fits, within⟩
      cases derived <;> omega
  · rw [if_neg beyond]
    obtain ⟨deep, few⟩ := not_or.mp beyond
    rw [Nat.not_lt] at deep few
    match clause with
    | [] =>
        constructor
        · intro impossible
          cases impossible
        · rintro ⟨h, n, derived, _⟩
          cases derived
    | [(kind, body)] =>
        simp only
        rw [validateQuery_iff kind body depth (clauses + 1) total deep few]
        constructor
        · rintro ⟨h, n, derived, rfl, fits, within⟩
          exact ⟨h + 1, n + 1, derived, by omega, by omega, within⟩
        · rintro ⟨h, n, derived, rfl, fits, within⟩
          cases derived with
          | leaf leaf => exact ⟨0, 0, .leaf leaf, by omega, by omega, within⟩
          | bool options => exact ⟨_, _, .bool options, by omega, by omega, within⟩
    | _ :: _ :: _ =>
        constructor
        · intro impossible
          cases impossible
        · rintro ⟨h, n, derived, _⟩
          cases derived

theorem validateQuery_iff (kind : String) (body : Bson) (depth clauses total : ℕ)
    (deep : depth ≤ maxFilterDepth) (few : clauses ≤ maxFilterClauses) :
    validateQuery unicode kind body depth clauses = .ok total ↔
      ∃ h n, Clause (h + 1) (n + 1) [(kind, body)] ∧ total = clauses + n ∧
        depth + h ≤ maxFilterDepth ∧ total ≤ maxFilterClauses := by
  cases body with
  | document body =>
      by_cases bool : kind = "bool"
      · subst bool
        simp only [validateQuery, if_true]
        rw [validateBool_iff body depth clauses total deep few]
        constructor
        · rintro ⟨h, n, options, rest⟩
          exact ⟨h, n, .bool options, rest⟩
        · rintro ⟨h, n, derived, rest⟩
          cases derived with
          | leaf leaf => exact leaf.elim
          | bool options => exact ⟨h, n, options, rest⟩
      · simp only [validateQuery, if_neg bool, bind_ok]
        constructor
        · rintro ⟨_, leaf, same⟩
          cases same
          exact ⟨0, 0, .leaf ((validateLeaf_iff kind body).mp leaf), rfl, deep, few⟩
        · rintro ⟨h, n, derived, same, _⟩
          cases derived with
          | leaf leaf =>
              exact ⟨(), (validateLeaf_iff kind body).mpr leaf, congrArg Except.ok same.symm⟩
          | bool options => exact absurd rfl bool
  | _ =>
      constructor
      · intro impossible
        cases impossible
      · rintro ⟨h, n, derived, _⟩
        cases derived

theorem validateBool_iff (body : List (String × Bson)) (depth clauses total : ℕ)
    (deep : depth ≤ maxFilterDepth) (few : clauses ≤ maxFilterClauses) :
    validateBool unicode body depth clauses = .ok total ↔
      ∃ h n, Options h n body ∧ total = clauses + n ∧ depth + h ≤ maxFilterDepth ∧
        total ≤ maxFilterClauses := by
  match body with
  | [] =>
      simp only [validateBool, Except.ok.injEq]
      constructor
      · rintro rfl
        exact ⟨0, 0, .nil, rfl, deep, few⟩
      · rintro ⟨h, n, options, same, _⟩
        cases options
        exact same.symm
  | (occur, value) :: rest =>
      simp only [validateBool, bind_ok]
      constructor
      · rintro ⟨middle, first, later⟩
        obtain ⟨h, n, option, rfl, fits, within⟩ :=
          (validateOption_iff occur value depth clauses middle deep few).mp first
        obtain ⟨h', n', options, rfl, fits', within'⟩ :=
          (validateBool_iff rest depth (clauses + n) total deep within).mp later
        exact ⟨max h h', n + n', .cons option options, by omega, by omega, within'⟩
      · rintro ⟨h, n, options, same, fits, within⟩
        cases options with
        | @cons h h' n n' _ _ _ option options =>
            refine ⟨clauses + n, ?_, ?_⟩
            · exact (validateOption_iff occur value depth clauses _ deep few).mpr
                ⟨h, n, option, rfl, by omega, by omega⟩
            · exact (validateBool_iff rest depth (clauses + n) total deep (by omega)).mpr
                ⟨h', n', options, by omega, by omega, within⟩

theorem validateOption_iff (occur : String) (value : Bson) (depth clauses total : ℕ)
    (deep : depth ≤ maxFilterDepth) (few : clauses ≤ maxFilterClauses) :
    validateOption unicode occur value depth clauses = .ok total ↔
      ∃ h n, BoolOption h n occur value ∧ total = clauses + n ∧ depth + h ≤ maxFilterDepth ∧
        total ≤ maxFilterClauses := by
  by_cases known : occur ∈ occurrences
  · cases value with
    | document d =>
        simp only [validateOption, if_pos known]
        rw [validateFilterClause_iff d (depth + 1) clauses total]
        constructor
        · rintro ⟨h, n, clause, same, fits, within⟩
          exact ⟨h, n, .clause known clause, same, by omega, within⟩
        · rintro ⟨h, n, option, same, fits, within⟩
          cases option with
          | clause _ clause => exact ⟨h, n, clause, same, by omega, within⟩
          | minimum minimum => cases minimum
    | array items =>
        simp only [validateOption, if_pos known]
        rw [validateItems_iff occur items (depth + 1) clauses total (by omega) few]
        constructor
        · rintro ⟨h, n, derived, same, fits, within⟩
          exact ⟨h, n, .clauses known derived, same, by omega, within⟩
        · rintro ⟨h, n, option, same, fits, within⟩
          cases option with
          | clauses _ derived => exact ⟨h, n, derived, same, by omega, within⟩
          | minimum minimum => cases minimum
    | _ =>
        simp only [validateOption, if_pos known]
        constructor
        · intro impossible
          cases impossible
        · rintro ⟨h, n, option, _⟩
          cases option with
          | minimum minimum => exact absurd known (by decide)
  · have minimum_iff : validateOption unicode occur value depth clauses = .ok total ↔
        (occur = "minimum_should_match" ∧ isMinimum value = true) ∧ clauses = total := by
      unfold validateOption
      rw [if_neg known]
      split
      · next minimum => simp [minimum]
      · next other => simp [other]
    rw [minimum_iff, isMinimum_iff]
    constructor
    · rintro ⟨⟨rfl, minimum⟩, rfl⟩
      exact ⟨0, 0, .minimum minimum, rfl, deep, few⟩
    · rintro ⟨h, n, option, same, _⟩
      cases option with
      | clause known' _ => exact absurd known' known
      | clauses known' _ => exact absurd known' known
      | minimum minimum => exact ⟨⟨rfl, minimum⟩, same.symm⟩

theorem validateItems_iff (occur : String) (items : List Bson) (depth clauses total : ℕ)
    (deep : depth ≤ maxFilterDepth + 1) (few : clauses ≤ maxFilterClauses) :
    validateItems unicode occur items depth clauses = .ok total ↔
      ∃ h n, Items h n items ∧ total = clauses + n ∧ depth + h ≤ maxFilterDepth + 1 ∧
        total ≤ maxFilterClauses := by
  match items with
  | [] =>
      simp only [validateItems, Except.ok.injEq]
      constructor
      · rintro rfl
        exact ⟨0, 0, .nil, rfl, deep, few⟩
      · rintro ⟨h, n, derived, same, _⟩
        cases derived
        exact same.symm
  | item :: rest =>
      cases item with
      | document d =>
          simp only [validateItems, bind_ok]
          constructor
          · rintro ⟨middle, first, later⟩
            obtain ⟨h, n, clause, rfl, fits, within⟩ :=
              (validateFilterClause_iff d depth clauses middle).mp first
            obtain ⟨h', n', derived, rfl, fits', within'⟩ :=
              (validateItems_iff occur rest depth (clauses + n) total deep within).mp later
            exact ⟨max h h', n + n', .cons clause derived, by omega, by omega, within'⟩
          · rintro ⟨h, n, derived, same, fits, within⟩
            cases derived with
            | @cons h h' n n' _ _ clause derived =>
                refine ⟨clauses + n, ?_, ?_⟩
                · exact (validateFilterClause_iff d depth clauses _).mpr
                    ⟨h, n, clause, rfl, by omega, by omega⟩
                · exact (validateItems_iff occur rest depth (clauses + n) total deep (by omega)).mpr
                    ⟨h', n', derived, by omega, by omega, within⟩
      | _ =>
          constructor
          · intro impossible
            cases impossible
          · rintro ⟨h, n, derived, _⟩
            cases derived

end

/-! ## What is inside an accepted filter -/

/-- A document inside a filter: the filter, or a document that an option of a `bool` inside it
holds, whatever the option is called. -/
inductive Within (sub : Document) : Document → Prop where
  | refl : Within sub sub
  | option {clause body d : Document} {occur : String}
      (query : ("bool", .document body) ∈ clause) (option : (occur, .document d) ∈ body)
      (within : Within sub d) : Within sub clause
  | item {clause body d : Document} {occur : String} {items : List Bson}
      (query : ("bool", .document body) ∈ clause) (option : (occur, .array items) ∈ body)
      (item : .document d ∈ items) (within : Within sub d) : Within sub clause

/-- A field that a query of a clause names. -/
inductive Targets (clause : Document) : String → Prop where
  | field {kind field : String} {body : Document} {value : Bson}
      (fielded : kind ∈ ["term", "terms", "range"]) (query : (kind, .document body) ∈ clause)
      (entry : (field, value) ∈ body) : Targets clause field
  | exists {key name : String} {body : Document} (query : ("exists", .document body) ∈ clause)
      (entry : (key, .string name) ∈ body) : Targets clause name

theorem option_of_mem {h n : ℕ} {body : List (String × Bson)} (options : Options h n body)
    {occur : String} {value : Bson} (mem : (occur, value) ∈ body) :
    ∃ h' n', BoolOption h' n' occur value := by
  induction body generalizing h n with
  | nil => cases mem
  | cons entry body ih =>
      cases options with
      | cons option options =>
          rcases List.mem_cons.mp mem with same | later
          · cases same
            exact ⟨_, _, option⟩
          · exact ih options later

theorem clause_of_item {h n : ℕ} {items : List Bson} (derived : Items h n items) {d : Document}
    (mem : .document d ∈ items) : ∃ h' n', Clause h' n' d := by
  induction items generalizing h n with
  | nil => cases mem
  | cons item items ih =>
      cases derived with
      | cons clause derived =>
          rcases List.mem_cons.mp mem with same | later
          · cases same
            exact ⟨_, _, clause⟩
          · exact ih derived later

/-- The options of a clause that has a `bool` query. -/
theorem options_of_query {h n : ℕ} {clause body : Document} (derived : Clause h n clause)
    (query : ("bool", .document body) ∈ clause) : ∃ h' n', Options h' n' body := by
  cases derived with
  | @leaf kind _ leaf =>
      cases List.mem_singleton.mp query
      exact leaf.elim
  | bool options =>
      cases List.mem_singleton.mp query
      exact ⟨_, _, options⟩

/-- **Whatever is inside a clause is a clause.** -/
theorem clause_within {h n : ℕ} {filter sub : Document} (derived : Clause h n filter)
    (within : Within sub filter) : ∃ h' n', Clause h' n' sub := by
  induction within generalizing h n with
  | refl => exact ⟨h, n, derived⟩
  | option query mem _ ih =>
      obtain ⟨_, _, options⟩ := options_of_query derived query
      obtain ⟨_, _, option⟩ := option_of_mem options mem
      cases option with
      | clause _ clause => exact ih clause
      | minimum minimum => cases minimum
  | item query mem item _ ih =>
      obtain ⟨_, _, options⟩ := options_of_query derived query
      obtain ⟨_, _, option⟩ := option_of_mem options mem
      cases option with
      | clauses _ derived' =>
          obtain ⟨_, _, clause⟩ := clause_of_item derived' item
          exact ih clause
      | minimum minimum => cases minimum

theorem leaf_kind {kind : String} {body : Document} (leaf : Leaf kind body) :
    kind ∈ ["term", "terms", "range", "exists", "ids"] := by
  unfold Leaf at leaf
  split at leaf <;> first | decide | exact leaf.elim

/-- The fields that a leaf names may be targeted. -/
theorem leaf_targetable {kind : String} {body : Document} (leaf : Leaf kind body) {field : String}
    (targets : Targets [(kind, .document body)] field) : Targetable field := by
  cases targets with
  | field fielded query mem =>
      cases List.mem_singleton.mp query
      unfold Leaf at leaf
      split at leaf
      · cases leaf with
        | plain targetable _ => cases List.mem_singleton.mp mem; exact targetable
        | value targetable _ => cases List.mem_singleton.mp mem; exact targetable
      · obtain ⟨targetable, _, _⟩ := leaf
        cases List.mem_singleton.mp mem
        exact targetable
      · obtain ⟨targetable, _⟩ := leaf
        cases List.mem_singleton.mp mem
        exact targetable
      · exact absurd fielded (by decide)
      · exact absurd fielded (by decide)
      · exact leaf.elim
  | «exists» query mem =>
      cases List.mem_singleton.mp query
      obtain ⟨targetable⟩ : ExistsBody body := leaf
      cases List.mem_singleton.mp mem
      exact targetable

/-- A clause has one query, of an allowed type, and names only fields that may be targeted. -/
theorem clause_allowed {h n : ℕ} {clause : Document} (derived : Clause h n clause) :
    (∃ kind body, clause = [(kind, .document body)] ∧
        kind ∈ ["bool", "term", "terms", "range", "exists", "ids"]) ∧
      ∀ field, Targets clause field → Targetable field := by
  cases derived with
  | leaf leaf =>
      exact ⟨⟨_, _, rfl, List.mem_cons_of_mem _ (leaf_kind leaf)⟩,
        fun field targets => leaf_targetable leaf targets⟩
  | bool options =>
      refine ⟨⟨_, _, rfl, by decide⟩, ?_⟩
      intro field targets
      cases targets with
      | field fielded query _ =>
          cases List.mem_singleton.mp query
          exact absurd fielded (by decide)
      | «exists» query _ => simp at query

/-- **The filters accepted are the clauses of the allowlist**, nested at most 8 deep and with at
most 256 clauses in all. So a document anywhere inside an accepted filter is one query of an
allowed type, and names no empty field and none with a leading underscore. -/
theorem validateFilterClause_accepts (unicode : UnicodeTables) (filter : Document) :
    ((∃ total, validateFilterClause unicode filter 1 0 = .ok total) ↔
      ∃ h n, Clause h n filter ∧ h ≤ 8 ∧ n ≤ 256) ∧
    ((∃ total, validateFilterClause unicode filter 1 0 = .ok total) → ∀ sub, Within sub filter →
      (∃ kind body, sub = [(kind, .document body)] ∧
        kind ∈ ["bool", "term", "terms", "range", "exists", "ids"]) ∧
      ∀ field, Targets sub field → Targetable field) := by
  have accepts : (∃ total, validateFilterClause unicode filter 1 0 = .ok total) ↔
      ∃ h n, Clause h n filter ∧ h ≤ 8 ∧ n ≤ 256 := by
    simp only [validateFilterClause_iff, maxFilterDepth, maxFilterClauses]
    constructor
    · rintro ⟨total, h, n, derived, rfl, deep, few⟩
      exact ⟨h, n, derived, by omega, by omega⟩
    · rintro ⟨h, n, derived, deep, few⟩
      exact ⟨n, h, n, derived, by omega, by omega, few⟩
  refine ⟨accepts, ?_⟩
  intro accepted sub within
  obtain ⟨h, n, derived, _, _⟩ := accepts.mp accepted
  obtain ⟨_, _, clause⟩ := clause_within derived within
  exact clause_allowed clause

end ExtensionSdkMongodb.OpenSearch

import ExtensionSdkMongodb.OpenSearch.Rows

/-!
# The responses that mongos decodes

A response is decoded as a whole or not at all. `Answers` says which responses are decoded and
`HitOf` which row a hit gives, both without the steps of the decoder, and
`decodeResponse_answers` that the decoder agrees.

A document key travels through the index as its canonical Extended JSON. Where the readers invert
the writers at a key, its hit gives the key back, and distinct keys stay distinct candidates.
-/

set_option autoImplicit false

namespace ExtensionSdkMongodb.OpenSearch

open SourceStage (Next)

/-! ## Valid hits and answers -/

/-- A dotted path whose components are field names of MongoDB. -/
def FieldPath (path : String) : Prop :=
  ∀ part ∈ splitAt '.' path,
    part ≠ "" ∧ part.toList.head? ≠ some '$' ∧ Char.ofNat 0 ∉ part.toList

/-- The fields of a document key: one is `_id`, and all are named by field paths. -/
def KeyFields (fields : Document) : Prop :=
  "_id" ∈ fields.keys ∧ ∀ path ∈ fields.keys, FieldPath path

/-- The text of a hit's `_id` holds these fields, as Extended JSON. -/
def Holds (readers : KeyReaders) (hit : Json) (fields : Document) : Prop :=
  ∃ raw json, hit.get "_id" = some (.string raw) ∧ raw.utf8ByteSize ≤ 512 ∧
    readers.fromStr raw = .ok json ∧ readers.tryFrom json = .ok (.document fields)

/-- The score of a hit, a finite number. -/
def Scores (hit : Json) (score : Double) : Prop :=
  ∃ number, hit.get "_score" = some (.number number) ∧ number.asF64 = score ∧
    score.isFinite = true

/-- A hit with a document key and a score. -/
def ValidHit (readers : KeyReaders) (hit : Json) : Prop :=
  (∃ fields, Holds readers hit fields ∧ KeyFields fields) ∧ ∃ score, Scores hit score

/-- The row is the key and the score of the hit. -/
def HitOf (readers : KeyReaders) (hit : Json) (row : MongoKey × Double) : Prop :=
  Holds readers hit row.1.fields ∧ Scores hit row.2

/-- The response covers the whole index, and lists valid hits only, at most the limit of them. -/
def Answers (readers : KeyReaders) (value : Json) (limit : ℕ) (hits : List Json) : Prop :=
  value.get "timed_out" ≠ some (.bool true) ∧
  (∀ failed, value.pointer ["_shards", "failed"] = some (.number (.posInt failed)) → failed = 0) ∧
  value.pointer ["hits", "hits"] = some (.array hits) ∧ hits.length ≤ limit ∧
  ∀ hit ∈ hits, ValidHit readers hit

/-! ## Readings of JSON values -/

theorem bind_asStr_iff {found : Option Json} {s : String} :
    found.bind Json.asStr = some s ↔ found = some (.string s) := by
  rcases found with _ | value
  · simp
  · cases value <;> simp [Json.asStr]

theorem bind_asArray_iff {found : Option Json} {items : List Json} :
    found.bind Json.asArray = some items ↔ found = some (.array items) := by
  rcases found with _ | value
  · simp
  · cases value <;> simp [Json.asArray]

theorem bind_asF64_iff {found : Option Json} {v : Double} :
    found.bind Json.asF64 = some v ↔
      ∃ number, found = some (.number number) ∧ number.asF64 = v := by
  rcases found with _ | value
  · simp
  · cases value <;> simp [Json.asF64]

theorem complete_iff {value : Json} :
    incomplete value = false ↔
      value.get "timed_out" ≠ some (.bool true) ∧
      ∀ failed, value.pointer ["_shards", "failed"] = some (.number (.posInt failed)) →
        failed = 0 := by
  unfold incomplete
  rw [Bool.or_eq_false_iff]
  refine and_congr ?_ ?_
  · rcases value.get "timed_out" with _ | found
    · simp
    · cases found <;> simp [Json.asBool]
  · rcases value.pointer ["_shards", "failed"] with _ | found
    · simp
    · cases found with
      | number number =>
          cases number with
          | posInt n => simp [Json.asU64, JsonNumber.asU64, UInt64.pos_iff_ne_zero]
          | _ => simp [Json.asU64, JsonNumber.asU64]
      | _ => simp [Json.asU64]

/-! ## Keys and hits -/

theorem validPart_iff {part : String} :
    validPart part = true ↔
      part ≠ "" ∧ part.toList.head? ≠ some '$' ∧ Char.ofNat 0 ∉ part.toList := by
  have empty : part = "" ↔ part.toList = [] := by simp
  unfold validPart
  rw [ne_eq, empty]
  cases part.toList with
  | nil => simp
  | cons first rest => simp

theorem keyFields_iff {fields : Document} :
    KeyFields fields ↔ fields.containsKey "_id" = true ∧
      ∀ path ∈ fields.keys, ∀ part ∈ splitAt '.' path, validPart part = true := by
  simp only [KeyFields, FieldPath, validPart_iff]
  refine and_congr ?_ Iff.rfl
  simp [Document.keys, Document.containsKey, Document.get]

theorem MongoKey.keyFields (key : MongoKey) : KeyFields key.fields :=
  keyFields_iff.mpr ⟨key.hasId, key.validPaths⟩

/-- The key of fields that make one. -/
def MongoKey.of (fields : Document) (valid : KeyFields fields) : MongoKey :=
  ⟨fields, (keyFields_iff.mp valid).1, (keyFields_iff.mp valid).2⟩

/-- A key is decoded from a text of at most 512 bytes that holds its fields. -/
theorem decodeKey_ok_iff {readers : KeyReaders} {raw : String} {key : MongoKey} :
    decodeKey readers raw = .ok key ↔ raw.utf8ByteSize ≤ 512 ∧
      ∃ json, readers.fromStr raw = .ok json ∧
        readers.tryFrom json = .ok (.document key.fields) := by
  unfold decodeKey
  by_cases long : 512 < raw.utf8ByteSize
  · simp [long]
  · rw [if_neg long]
    have short : raw.utf8ByteSize ≤ 512 := Nat.le_of_not_lt long
    cases parsed : readers.fromStr raw with
    | error e => simp
    | ok json =>
        dsimp only
        cases typed : readers.tryFrom json with
        | error e => simp [typed]
        | ok value =>
            cases value with
            | document fields =>
                dsimp only
                split
                · obtain ⟨fields', hasId, paths⟩ := key
                  simp [typed, short]
                · next invalid =>
                  refine iff_of_false (by simp) ?_
                  rintro ⟨_, json', parsed', typed'⟩
                  cases parsed'
                  rw [typed] at typed'
                  cases typed'
                  exact invalid ⟨key.hasId, key.validPaths⟩
            | _ => simp [typed]

/-- **A hit is decoded to the row of its key and its score.** -/
theorem decodeHit_ok_iff {readers : KeyReaders} {hit : Json} {row : MongoKey × Double} :
    decodeHit readers hit = .ok row ↔ HitOf readers hit row := by
  obtain ⟨key, score⟩ := row
  unfold decodeHit HitOf Holds Scores
  cases found : (hit.get "_id").bind Json.asStr with
  | none =>
      refine iff_of_false (by simp) ?_
      rintro ⟨⟨raw, _, id, _⟩, _⟩
      rw [bind_asStr_iff.mpr id] at found
      cases found
  | some raw =>
      dsimp only
      have id := bind_asStr_iff.mp found
      have scored : ((hit.get "_score").bind Json.asF64).filter Double.isFinite = some score ↔
          ∃ number, hit.get "_score" = some (.number number) ∧ number.asF64 = score ∧
            score.isFinite = true := by
        rw [Option.filter_eq_some_iff, bind_asF64_iff]
        simp only [← and_assoc, exists_and_right]
      rw [← scored]
      cases decoded : decodeKey readers raw with
      | error e =>
          refine iff_of_false (by simp [bind, Except.bind]) ?_
          rintro ⟨⟨raw', json, id', short, parsed, typed⟩, _⟩
          rw [id] at id'
          cases id'
          rw [decodeKey_ok_iff.mpr ⟨short, json, parsed, typed⟩] at decoded
          cases decoded
      | ok key' =>
          obtain ⟨short, json, parsed, typed⟩ := decodeKey_ok_iff.mp decoded
          have holds : (∃ raw json, hit.get "_id" = some (.string raw) ∧ raw.utf8ByteSize ≤ 512 ∧
              readers.fromStr raw = .ok json ∧ readers.tryFrom json = .ok (.document key.fields)) ↔
              key' = key := by
            constructor
            · rintro ⟨raw', json', id', _, parsed', typed'⟩
              rw [id] at id'
              cases id'
              have again := decodeKey_ok_iff.mpr ⟨short, json', parsed', typed'⟩
              rw [decoded] at again
              exact Except.ok.inj again
            · rintro rfl
              exact ⟨raw, json, id, short, parsed, typed⟩
          rw [holds]
          cases ((hit.get "_score").bind Json.asF64).filter Double.isFinite with
          | none => simp [bind, Except.bind]
          | some score' => simp [bind, Except.bind, pure, Except.pure]

/-- A hit is decoded to some row if and only if it is valid. -/
theorem decodeHit_isOk_iff {readers : KeyReaders} {hit : Json} :
    (∃ row, decodeHit readers hit = .ok row) ↔ ValidHit readers hit := by
  simp only [decodeHit_ok_iff]
  constructor
  · rintro ⟨⟨key, score⟩, holds, scored⟩
    exact ⟨⟨key.fields, holds, key.keyFields⟩, score, scored⟩
  · rintro ⟨⟨fields, holds, valid⟩, score, scored⟩
    exact ⟨(.of fields valid, score), holds, scored⟩

/-! ## Responses -/

theorem mapM_ok_iff {α β ε : Type} {f : α → Except ε β} {as : List α} {bs : List β} :
    as.mapM f = .ok bs ↔ List.Forall₂ (fun a b => f a = .ok b) as bs := by
  refine ⟨mapM_forall₂, fun each => ?_⟩
  induction each with
  | nil => rfl
  | cons first _ ih => simp [List.mapM_cons, first, ih, bind, Except.bind, pure, Except.pure]

theorem exists_forall₂_iff {α β : Type} {r : α → β → Prop} {as : List α} :
    (∃ bs, List.Forall₂ r as bs) ↔ ∀ a ∈ as, ∃ b, r a b := by
  induction as with
  | nil => simp
  | cons a as ih =>
      rw [List.forall_mem_cons, ← ih]
      constructor
      · rintro ⟨_, _ | ⟨first, rest⟩⟩
        exact ⟨⟨_, first⟩, _, rest⟩
      · rintro ⟨⟨b, first⟩, bs, rest⟩
        exact ⟨b :: bs, .cons first rest⟩

/-- **The decoder returns the rows of the hits of an answer**, each in its place, and of nothing
else. -/
theorem decodeResponse_ok_iff {readers : KeyReaders} {value : Json} {limit : ℕ}
    {rows : List (MongoKey × Double)} :
    decodeResponse readers value limit = .ok rows ↔
      ∃ hits, Answers readers value limit hits ∧ List.Forall₂ (HitOf readers) hits rows := by
  unfold decodeResponse Answers
  cases covers : incomplete value with
  | true =>
      refine iff_of_false (by simp) ?_
      rintro ⟨hits, ⟨timely, failed, _⟩, _⟩
      rw [complete_iff.mpr ⟨timely, failed⟩] at covers
      cases covers
  | false =>
      obtain ⟨timely, failed⟩ := complete_iff.mp covers
      rw [if_neg Bool.false_ne_true]
      cases found : (value.pointer ["hits", "hits"]).bind Json.asArray with
      | none =>
          refine iff_of_false (by simp) ?_
          rintro ⟨hits, ⟨_, _, listed, _⟩, _⟩
          rw [bind_asArray_iff.mpr listed] at found
          cases found
      | some hits =>
          have listed := bind_asArray_iff.mp found
          simp only [listed]
          by_cases many : limit < hits.length
          · refine iff_of_false (by simp [many]) ?_
            rintro ⟨hits', ⟨_, _, same, few, _⟩, _⟩
            cases same
            exact absurd many (Nat.not_lt_of_le few)
          · rw [if_neg many, mapM_ok_iff]
            simp only [decodeHit_ok_iff]
            constructor
            · intro each
              have valid : ∀ hit ∈ hits, ValidHit readers hit := by
                simp only [← decodeHit_isOk_iff, decodeHit_ok_iff]
                exact exists_forall₂_iff.mp ⟨rows, each⟩
              exact ⟨hits, ⟨timely, failed, rfl, Nat.le_of_not_lt many, valid⟩, each⟩
            · rintro ⟨hits', ⟨_, _, same, _⟩, each⟩
              cases same
              exact each

/-! ## Keys in canonical Extended JSON -/

/-- `Bson::into_canonical_extjson` and `serde_json::to_string`. -/
structure KeyWriters where
  intoCanonicalExtjson : Bson → Json
  toString : Json → String

/-- The canonical text of a document key. -/
def KeyWriters.text (writers : KeyWriters) (fields : Document) : String :=
  writers.toString (writers.intoCanonicalExtjson (.document fields))

/-- The readers give back what the writers wrote of a document key. -/
def KeyReaders.Inverts (readers : KeyReaders) (writers : KeyWriters) (fields : Document) : Prop :=
  let json := writers.intoCanonicalExtjson (.document fields)
  readers.fromStr (writers.toString json) = .ok json ∧ readers.tryFrom json = .ok (.document fields)

/-- The hit of a document key. -/
def canonicalHit (writers : KeyWriters) (fields : Document) (score : JsonNumber) : Json :=
  .object [("_id", .string (writers.text fields)), ("_score", .number score)]

theorem hitOf_canonicalHit {readers : KeyReaders} {writers : KeyWriters} {key : MongoKey}
    {score : JsonNumber} (inverts : readers.Inverts writers key.fields)
    (short : (writers.text key.fields).utf8ByteSize ≤ 512)
    (finite : score.asF64.isFinite = true) :
    HitOf readers (canonicalHit writers key.fields score) (key, score.asF64) :=
  ⟨⟨_, _, rfl, short, inverts.1, inverts.2⟩, score, rfl, rfl, finite⟩

/-- The document of a row tells its key. -/
theorem routerNext_key {left right : MongoKey × Double} {document : Document}
    {first second : Option Document} (one : routerNext left = .advanced document first)
    (other : routerNext right = .advanced document second) : left.1 = right.1 := by
  obtain ⟨⟨fields, _, _⟩, _⟩ := left
  obtain ⟨⟨fields', _, _⟩, _⟩ := right
  unfold routerNext at one other
  have same := (Next.advanced.inj one).1.trans (Next.advanced.inj other).1.symm
  simp only [List.cons.injEq, Prod.mk.injEq, true_and, and_true, Bson.array.injEq] at same
  have fieldsSame : fields = fields' := by
    refine List.map_injective_iff.mpr ?_ same.2
    intro field field' equal
    simpa [Prod.ext_iff] using equal
  subst fieldsSame
  rfl

/-- **A response is decoded as a whole or not at all.** The decoder returns rows exactly for the
answers, and then those of all hits in order. A document key that the readers give back is the key
of the hit made from it, and the rows of distinct keys are distinct documents. -/
theorem decodeResponse_exact (readers : KeyReaders) (writers : KeyWriters) (value : Json)
    (limit : ℕ) :
    ((∃ rows, decodeResponse readers value limit = .ok rows) ↔
      ∃ hits, Answers readers value limit hits) ∧
    (∀ hits rows, value.pointer ["hits", "hits"] = some (.array hits) →
      decodeResponse readers value limit = .ok rows → List.Forall₂ (HitOf readers) hits rows) ∧
    (∀ (key : MongoKey) (score : JsonNumber), readers.Inverts writers key.fields →
      (writers.text key.fields).utf8ByteSize ≤ 512 → score.asF64.isFinite = true →
      decodeHit readers (canonicalHit writers key.fields score) = .ok (key, score.asF64)) ∧
    ∀ (left right : MongoKey) (score score' : Double) (document : Document)
      (metadata metadata' : Option Document),
      routerNext (left, score) = .advanced document metadata →
      routerNext (right, score') = .advanced document metadata' → left = right := by
  refine ⟨?_, ?_, ?_, ?_⟩
  · simp only [decodeResponse_ok_iff]
    constructor
    · rintro ⟨rows, hits, answers, _⟩
      exact ⟨hits, answers⟩
    · rintro ⟨hits, answers⟩
      have valid := answers.2.2.2.2
      simp only [← decodeHit_isOk_iff, decodeHit_ok_iff] at valid
      obtain ⟨rows, each⟩ := exists_forall₂_iff.mpr valid
      exact ⟨rows, hits, answers, each⟩
  · intro hits rows listed decoded
    obtain ⟨hits', answers, each⟩ := decodeResponse_ok_iff.mp decoded
    have same := listed.symm.trans answers.2.2.1
    cases same
    exact each
  · intro key score inverts short finite
    exact decodeHit_ok_iff.mpr (hitOf_canonicalHit inverts short finite)
  · intro left right score score' document metadata metadata' one other
    exact routerNext_key one other

/-! ### The key with the integer 7 -/

def sevenKey : MongoKey := ⟨[("_id", .int32 7)], rfl, by decide⟩

def sevenJson : Json := .object [("_id", .object [("$numberInt", .string "7")])]

def sevenText : String := "\x7b\"_id\":\x7b\"$numberInt\":\"7\"\x7d\x7d"

/-- Writers at this key. -/
def sevenWriters : KeyWriters where
  intoCanonicalExtjson _ := sevenJson
  toString _ := sevenText

/-- Readers of this key. -/
def sevenReaders : KeyReaders where
  fromStr raw := if raw = sevenText then .ok sevenJson else .error "expected value"
  tryFrom
    | .object [("_id", .object [("$numberInt", .string "7")])] => .ok (.document sevenKey.fields)
    | _ => .error "invalid extended JSON"

theorem decodeResponse_exact_seven :
    decodeHit sevenReaders (canonicalHit sevenWriters sevenKey.fields (.posInt 1)) =
      .ok (sevenKey, .ofInt 1) :=
  (decodeResponse_exact sevenReaders sevenWriters .null 1).2.2.1 sevenKey (.posInt 1)
    ⟨rfl, rfl⟩ (by decide) (by decide)

end ExtensionSdkMongodb.OpenSearch

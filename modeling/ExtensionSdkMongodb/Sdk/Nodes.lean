import ExtensionSdkMongodb.Sdk.Expansion

/-!
# Parse nodes, AST nodes and logical stages

The planner sees a stage as a parse node, then as an AST node and then as a logical stage. Each of
them keeps the stage's arguments as encoded bytes. Source, map and passthrough stages have each a
copy of the functions on nodes, and the copies differ in how they word errors and make statuses of
them. A `Reporting` is one of these ways, and the functions here are given one; the modules of the
stages apply them to their own.

`parseStage_ok_iff` says which bytes `desc_parse` makes a node of, and `descParse_cases` and
`deliverArgs_cases` say what its callers receive.
-/

set_option autoImplicit false

namespace ExtensionSdkMongodb

/-! ## Reporting errors -/

/-- How the functions on nodes of a stage word errors, and the statuses of these. -/
structure Reporting (ε : Type) where
  badValue : String → ε
  failedToParse : String → ε
  /-- An error of the code that all stages share. -/
  shared : ExtensionError → ε
  status : ε → Status
  badValue_fails : ∀ message, (status (badValue message)).isOk = false
  failedToParse_fails : ∀ message, (status (failedToParse message)).isOk = false
  runtime_fails : ∀ message, (status (shared (.runtime message))).isOk = false

namespace Reporting

/-- Errors of source stages: `into_raw_status` of an `ExtensionError`. -/
def typed : Reporting ExtensionError where
  badValue := .badValue
  failedToParse := .failedToParse
  shared := id
  status := ExtensionError.intoRawStatus
  badValue_fails _ := rfl
  failedToParse_fails _ := rfl
  runtime_fails _ := rfl

/-- Errors of map and passthrough stages: `new_error_status(-1, text)`. -/
def text : Reporting String where
  badValue := id
  failedToParse := id
  shared := ExtensionError.message
  status := newErrorStatus (-1)
  badValue_fails _ := rfl
  failedToParse_fails _ := rfl
  runtime_fails _ := rfl

end Reporting

/-- What a function with an output pointer leaves: a status and the pointer, which is null when it
is `none`. -/
structure Delivery (α : Type) where
  status : Status
  out : Option α

/-- The end of a function around a closure: the pointer is written under the OK status only. -/
def Reporting.deliver {ε α : Type} (r : Reporting ε) (panicText : String)
    (closure : HookOutcome ε α) : Delivery α :=
  match ffiBoundary closure with
  | none => ⟨r.status (r.shared (.runtime panicText)), none⟩
  | some (.error e) => ⟨r.status e, none⟩
  | some (.ok a) => ⟨statusOk, some a⟩

/-- A `Result` inside a closure. -/
def attempt {ε α : Type} (result : Except ε α) : HookOutcome ε α := result.mapError .error

section Deliver

variable {ε α : Type} (r : Reporting ε) (panicText : String)

@[simp] theorem deliver_ok (a : α) : r.deliver panicText (.ok a) = ⟨statusOk, some a⟩ := rfl

@[simp] theorem deliver_error (e : ε) :
    r.deliver (α := α) panicText (.error (.error e)) = ⟨r.status e, none⟩ := rfl

@[simp] theorem attempt_ok (a : α) : attempt (.ok a : Except ε α) = .ok a := rfl

@[simp] theorem attempt_error (e : ε) : attempt (.error e : Except ε α) = .error (.error e) := rfl

end Deliver

/-! ## Tables and nodes -/

/-- What the functions on nodes read of a stage's table. Without an `expand` hook a stage stays
itself. -/
structure StageTable (ε : Type) where
  name : String
  expectEmpty : Bool
  expand : Option (Document → HookOutcome ε Expansion)

/-- A parse node of the extension. -/
structure ParseObj where
  args : Bytes
  deriving DecidableEq, Repr

/-- An AST node of the extension. -/
structure AstObj where
  args : Bytes
  deriving DecidableEq, Repr

/-- The stage document of an argument document. -/
def stageDocument (name : String) (args : Document) : Document := [(name, .document args)]

namespace Reporting

section Functions

variable {ε : Type} (r : Reporting ε) (codec : BsonCodec) (table : StageTable ε)

/-- The closure of `desc_parse`. -/
def parseStage (stageBson : Bytes) : Except ε ParseObj :=
  match codec.decode stageBson with
  | .error e => .error (r.failedToParse ("parse bson: " ++ e))
  | .ok doc =>
    match doc.keys.head? with
    | none => .error (r.badValue "stage document must have one field")
    | some key =>
      if key ≠ table.name then
        .error (r.badValue ("expected stage " ++ table.name ++ ", got " ++ key))
      else
        match (doc.get key).bind Bson.asDocument with
        | none => .error (r.badValue unexpectedType)
        | some args =>
          if table.expectEmpty && !args.isEmpty then
            .error (r.badValue "stage definition must be an empty object")
          else (codec.encode args).mapError r.failedToParse |>.map .mk

/-- `desc_parse`. -/
def descParse (stageBson : Bytes) : Delivery ParseObj :=
  r.deliver "extension panic during parse" (attempt (r.parseStage codec table stageBson))

/-- Decoded arguments, wrapped as a stage document and encoded. `decodeText` is the text of an
error of the decoder. -/
def wrapArgs (decodeText : String → String) (args : Bytes) : Except ε Bytes :=
  match codec.decode args with
  | .error e => .error (r.failedToParse (decodeText e))
  | .ok d => (codec.encode (stageDocument table.name d)).mapError r.failedToParse

/-- `parse_get_query_shape`. -/
def parseGetQueryShape (p : ParseObj) : Delivery Bytes :=
  r.deliver "panic during get_query_shape" (attempt (r.wrapArgs codec table id p.args))

/-- A function that wraps arguments without a boundary of its own. -/
def deliverArgs (decodeText : String) (args : Bytes) : Delivery Bytes :=
  match r.wrapArgs codec table (fun _ => decodeText) args with
  | .error e => ⟨r.status e, none⟩
  | .ok bytes => ⟨statusOk, some bytes⟩

/-- `parse_to_bson_for_log`. -/
def parseToBsonForLog (p : ParseObj) : Delivery Bytes :=
  r.deliverArgs codec table "log bson" p.args

/-- `log_serialize`, on the arguments of a logical stage. -/
def logSerialize (args : Bytes) : Delivery Bytes := r.deliverArgs codec table "serialize" args

end Functions

end Reporting

/-- `parse_clone`. -/
def parseClone (p : ParseObj) : Delivery ParseObj := ⟨statusOk, some ⟨p.args⟩⟩

/-- `ast_clone`. -/
def astClone (a : AstObj) : Delivery AstObj := ⟨statusOk, some ⟨a.args⟩⟩

/-! ## What the functions do -/

section Functions

variable {ε : Type} {r : Reporting ε} {codec : BsonCodec} {table : StageTable ε}

/-- **A parse node is made of the documents whose first field is the stage's name with an argument
document**, empty where the stage takes none. -/
theorem parseStage_ok_iff {stageBson : Bytes} {p : ParseObj} :
    r.parseStage codec table stageBson = .ok p ↔
      ∃ inner rest, codec.decode stageBson = .ok ((table.name, .document inner) :: rest) ∧
        (table.expectEmpty = true → inner = []) ∧ codec.encode inner = .ok p.args := by
  unfold Reporting.parseStage
  constructor
  · intro parsed
    cases decoded : codec.decode stageBson with
    | error e => simp [decoded] at parsed
    | ok doc =>
        rcases doc with _ | ⟨⟨key, value⟩, rest⟩
        · simp [decoded, Document.keys] at parsed
        · by_cases named : key = table.name
          · subst named
            cases value with
            | document inner =>
                by_cases refused : (table.expectEmpty && !inner.isEmpty) = true
                · simp [decoded, Document.keys, Bson.asDocument, refused] at parsed
                · cases encoded : codec.encode inner with
                  | error e =>
                      simp [decoded, Document.keys, Bson.asDocument, refused, encoded,
                        Except.mapError, Except.map] at parsed
                  | ok bytes =>
                      simp only [decoded, Document.keys, Bson.asDocument, refused, encoded,
                        Except.mapError, Except.map, List.map_cons, List.head?_cons,
                        Document.get_cons, ne_eq, not_true_eq_false, if_true, if_false,
                        Option.bind_some, Except.ok.injEq, Bool.false_eq_true] at parsed
                      subst parsed
                      refine ⟨inner, rest, rfl, ?_, encoded⟩
                      intro expects
                      simpa [expects] using refused
            | _ => simp [decoded, Document.keys, Bson.asDocument] at parsed
          · simp [decoded, Document.keys, named] at parsed
  · rintro ⟨inner, rest, decoded, empty, encoded⟩
    have taken : ¬ (table.expectEmpty && !inner.isEmpty) = true := by
      intro refused
      rw [Bool.and_eq_true] at refused
      simp [empty refused.1] at refused
    simp [decoded, Document.keys, Bson.asDocument, taken, encoded, Except.mapError, Except.map]

theorem parseStage_error_fails {stageBson : Bytes} {e : ε}
    (failed : r.parseStage codec table stageBson = .error e) : (r.status e).isOk = false := by
  unfold Reporting.parseStage at failed
  split at failed
  · cases failed
    exact r.failedToParse_fails _
  · split at failed
    · cases failed
      exact r.badValue_fails _
    · split at failed
      · cases failed
        exact r.badValue_fails _
      · split at failed
        · cases failed
          exact r.badValue_fails _
        · split at failed
          · cases failed
            exact r.badValue_fails _
          · next args _ _ =>
            cases encoded : codec.encode args with
            | ok bytes => simp [encoded, Except.mapError, Except.map] at failed
            | error e' =>
                simp only [encoded, Except.mapError, Except.map, Except.error.injEq] at failed
                subst failed
                exact r.failedToParse_fails _

/-- **`desc_parse` delivers a node under the OK status, or nothing under an error.** -/
theorem descParse_cases (r : Reporting ε) (codec : BsonCodec) (table : StageTable ε)
    (stageBson : Bytes) :
    (∃ p, r.parseStage codec table stageBson = .ok p ∧
        r.descParse codec table stageBson = ⟨statusOk, some p⟩) ∨
      ∃ e, r.parseStage codec table stageBson = .error e ∧ (r.status e).isOk = false ∧
        r.descParse codec table stageBson = ⟨r.status e, none⟩ := by
  unfold Reporting.descParse
  cases parsed : r.parseStage codec table stageBson with
  | ok p => exact .inl ⟨p, rfl, rfl⟩
  | error e => exact .inr ⟨e, rfl, parseStage_error_fails parsed, rfl⟩

theorem wrapArgs_ok_iff {decodeText : String → String} {args bytes : Bytes} :
    r.wrapArgs codec table decodeText args = .ok bytes ↔
      ∃ d, codec.decode args = .ok d ∧ codec.encode (stageDocument table.name d) = .ok bytes := by
  unfold Reporting.wrapArgs
  cases codec.decode args with
  | error e => simp
  | ok d =>
      cases encoded : codec.encode (stageDocument table.name d) with
      | error e => simp [encoded, Except.mapError]
      | ok blob => simp [encoded, Except.mapError]

theorem wrapArgs_error_fails {decodeText : String → String} {args : Bytes} {e : ε}
    (failed : r.wrapArgs codec table decodeText args = .error e) : (r.status e).isOk = false := by
  unfold Reporting.wrapArgs at failed
  split at failed
  · cases failed
    exact r.failedToParse_fails _
  · next d _ =>
    cases encoded : codec.encode (stageDocument table.name d) with
    | ok bytes => simp [encoded, Except.mapError] at failed
    | error e' =>
        simp only [encoded, Except.mapError, Except.error.injEq] at failed
        subst failed
        exact r.failedToParse_fails _

/-- **Wrapped arguments are delivered under the OK status, or nothing under an error.** -/
theorem deliverArgs_cases (r : Reporting ε) (codec : BsonCodec) (table : StageTable ε)
    (decodeText : String) (args : Bytes) :
    (∃ bytes, r.wrapArgs codec table (fun _ => decodeText) args = .ok bytes ∧
        r.deliverArgs codec table decodeText args = ⟨statusOk, some bytes⟩) ∨
      ∃ e, r.wrapArgs codec table (fun _ => decodeText) args = .error e ∧
        (r.status e).isOk = false ∧
        r.deliverArgs codec table decodeText args = ⟨r.status e, none⟩ := by
  unfold Reporting.deliverArgs
  cases wrapped : r.wrapArgs codec table (fun _ => decodeText) args with
  | ok bytes => exact .inl ⟨bytes, rfl, rfl⟩
  | error e => exact .inr ⟨e, rfl, wrapArgs_error_fails wrapped, rfl⟩

end Functions

end ExtensionSdkMongodb

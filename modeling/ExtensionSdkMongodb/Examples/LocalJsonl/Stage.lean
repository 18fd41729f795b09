import ExtensionSdkMongodb.Data.Json
import ExtensionSdkMongodb.Examples.LocalJsonl.Paths
import ExtensionSdkMongodb.Sdk.StageContext
import ExtensionSdkMongodb.SourceStage.Scripts

/-!
# The stage `$readLocalJsonl`

The stage opens a file under the allowed root and emits the JSON object of each of its lines. It
skips blank lines, fails for lines that it cannot read, and goes on behind them, until the file ends
or it has returned as many documents as it may.

`tell` says on the pieces of the file what the stage emits, counts and logs, and
`readLocalJsonl_runs` that this is what the host sees of it in every run.
-/

set_option autoImplicit false

namespace ExtensionSdkMongodb.LocalJsonl

open SourceStage

/-- What the stage uses of other packages: the deserializers of the options and the arguments,
`serde_json::from_str`, `bson::to_document`, and the Unicode tables. -/
structure Packages where
  optionsJson : String → Except String ExtensionOptionsJson
  stageArgs : Document → Except String (String × Option UInt64)
  fromStr : String → Except String Json
  toDocument : Json → Except String Document
  unicode : UnicodeTables

/-- `ReadLocalJsonlArgs`. -/
structure ReadLocalJsonlArgs where
  path : String
  maxDocuments : Option UInt64
  deriving DecidableEq, Repr

/-- `ReadLocalJsonlState`. -/
structure ReadLocalJsonlState where
  reader : Reader
  lineBuf : Bytes
  physicalLineNo : ℕ
  cfg : JsonlExtensionConfig
  maxDocuments : Option UInt64
  returned : ℕ
  eofLogged : Bool

section Source

variable (packages : Packages) (codec : BsonCodec)

/-! ## The functions of the stage -/

/-- `ReadLocalJsonl::parse`. -/
def parse (args : Document) : HookOutcome ExtensionError ReadLocalJsonlArgs :=
  match packages.stageArgs args with
  | .error e => .error (.error (.failedToParse e))
  | .ok a =>
    let path := trim a.1
    if path = "" then .error (.error (.failedToParse "missing required field \"path\""))
    else
      match validateStageRelativePath path with
      | .error e => .error (.error e)
      | .ok () => .ok ⟨path, a.2⟩

/-- `ReadLocalJsonl::open`, by the options that the host has given. -/
def openArgs (files : ServerFiles) (extensionOptionsRaw : Option Bytes) (args : ReadLocalJsonlArgs)
    (services : Services) : HookOutcome ExtensionError ReadLocalJsonlState × Services :=
  match extensionConfigFromContext packages.optionsJson extensionOptionsRaw with
  | .error e => (.error (.error e), services)
  | .ok cfg =>
    match resolveUnderAllowedRoot files cfg args.path with
    | .error e =>
      (.error (.error e), services.log (.warn ("readLocalJsonl: rejected or invalid path " ++
        debugString packages.unicode args.path ++ ": " ++ e.message)))
    | .ok resolved =>
      let services := services.log (.info ("readLocalJsonl: opening " ++ display resolved))
      match openFileForRead files resolved cfg.allowSymlinks with
      | .error e => (.error (.error e), services)
      | .ok reader => (.ok ⟨reader, [], 0, cfg, args.maxDocuments, 0, false⟩, services)

/-- `bson_encoded_len`. -/
def bsonEncodedLen (doc : Document) : ℕ :=
  match codec.encode doc with
  | .ok v => v.length
  | .error _ => 2 ^ 64 - 1

/-- `parse_jsonl_object_line`. -/
def parseJsonlObjectLine (line : String) (physicalLineNo maxDocumentBytes : ℕ) :
    Except ExtensionError Document :=
  let at_ := "line " ++ toString physicalLineNo ++ ": "
  match packages.fromStr line with
  | .error e => .error (.failedToParse (at_ ++ e))
  | .ok v =>
    match v with
    | .object _ =>
      match packages.toDocument v with
      | .error e => .error (.failedToParse (at_ ++ e))
      | .ok doc =>
        let len := bsonEncodedLen codec doc
        if maxDocumentBytes < len then
          .error (.badValue (at_ ++ "document encodes to " ++ toString len ++
            " bytes, exceeds maxDocumentBytes (" ++ toString maxDocumentBytes ++ ")"))
        else .ok doc
    | _ => .error (.badValue (at_ ++ "JSON value must be an object, not array/scalar"))

/-- The end of the stream, which is logged once. -/
def eof (state : ReadLocalJsonlState) (message : String) (services : Services) :
    (HookOutcome ExtensionError Next × ReadLocalJsonlState) × Services :=
  if state.eofLogged then ((.ok .eof, state), services)
  else ((.ok .eof, { state with eofLogged := true }), services.log (.info message))

/-- The loop of `next`, for at most so many lines. -/
def nextLoop (ctx : StageContext) : ℕ → ReadLocalJsonlState → Services →
    (HookOutcome ExtensionError Next × ReadLocalJsonlState) × Services
  | 0, state, services => ((.error .panic, state), services)
  | fuel + 1, state, services =>
    let (got, lineBuf, reader) :=
      readJsonlPhysicalLine state.reader state.cfg.maxLineBytes.toNat
    let state := { state with lineBuf, reader }
    match got with
    | .error e => ((.error (.error e), state), services)
    | .ok none => eof state "readLocalJsonl: EOF (end of file)" services
    | .ok (some ()) =>
      let state := { state with physicalLineNo := saturatingSucc state.physicalLineNo }
      let lineNo := state.physicalLineNo
      let services := services.inc ctx "bytes_read" (Int64.ofNat state.lineBuf.length)
      let services := services.inc ctx "lines_read" 1
      match fromUtf8 state.lineBuf with
      | .error e =>
        ((.error (.error (.badValue ("line " ++ toString lineNo ++ ": not valid UTF-8: " ++ e))),
          state), services)
      | .ok text =>
        let trimmed := trim text
        if trimmed = "" then nextLoop ctx fuel state (services.inc ctx "empty_lines_skipped" 1)
        else
          match parseJsonlObjectLine packages codec trimmed lineNo
              state.cfg.maxDocumentBytes.toNat with
          | .ok doc =>
            ((.ok (.advanced doc none), { state with returned := (state.returned + 1) % 2 ^ 64 }),
              services.inc ctx "documents_returned" 1)
          | .error e =>
            ((.error (.error e), state),
              (services.inc ctx "parse_errors" 1).log (.error ("readLocalJsonl: " ++ e.message)))

/-- `ReadLocalJsonl::next`. A call reads no more lines than there are bytes, and then the end. -/
def next (state : ReadLocalJsonlState) (ctx : StageContext) (services : Services) :
    (HookOutcome ExtensionError Next × ReadLocalJsonlState) × Services :=
  if state.maxDocuments.any fun limit => limit.toNat ≤ state.returned then
    eof state "readLocalJsonl: EOF (maxDocuments reached)" services
  else nextLoop packages codec ctx (state.reader.reads.length + 1) state services

/-- The implementation of `SourceStage`. -/
def readLocalJsonl (files : ServerFiles) (extensionOptionsRaw : Option Bytes) :
    SourceStageImpl ReadLocalJsonlArgs ReadLocalJsonlState Services where
  name := "$readLocalJsonl"
  parse := parse packages
  openArgs := fun args _ services => openArgs packages files extensionOptionsRaw args services
  next := next packages codec
  dropInPlace := fun _ services => (some (), services)

/-! ## What a file tells -/

/-- What is read in a line. -/
inductive Line where
  | blank
  /-- The bytes are no text. -/
  | undecoded (e : ExtensionError)
  | rejected (e : ExtensionError)
  | document (doc : Document)

/-- What is read in the line of a number. -/
def readLine (maxDocumentBytes lineNo : ℕ) (body : Bytes) : Line :=
  match fromUtf8 body with
  | .error e => .undecoded (.badValue ("line " ++ toString lineNo ++ ": not valid UTF-8: " ++ e))
  | .ok text =>
    if trim text = "" then .blank
    else
      match parseJsonlObjectLine packages codec (trim text) lineNo maxDocumentBytes with
      | .error e => .rejected e
      | .ok doc => .document doc

/-- What is emitted for a line. -/
def Line.outcome : Line → Option RowOutcome
  | .blank => none
  | .undecoded e | .rejected e => some (.error (.error e))
  | .document doc => some (.ok (doc, none))

/-- What is counted and logged for a line. -/
def Line.serve (ctx : StageContext) (body : Bytes) (line : Line) (services : Services) : Services :=
  let read := (services.inc ctx "bytes_read" (Int64.ofNat body.length)).inc ctx "lines_read" 1
  match line with
  | .blank => read.inc ctx "empty_lines_skipped" 1
  | .undecoded _ => read
  | .rejected e =>
    (read.inc ctx "parse_errors" 1).log (.error ("readLocalJsonl: " ++ e.message))
  | .document _ => read.inc ctx "documents_returned" 1

/-- How many documents may still be returned after a line. -/
def Line.leaves (left : Option ℕ) : Line → Option ℕ
  | .document _ => left.map (· - 1)
  | _ => left

/-- **What the pieces of a file tell**: the results with the services after each, and the services
after the end. -/
def tell (ctx : StageContext) (cfg : JsonlExtensionConfig) :
    (left : Option ℕ) → (lineNo : ℕ) → List Piece → Services →
      List (RowOutcome × Services) × Services
  | some 0, _, _, services =>
    ([], services.log (.info "readLocalJsonl: EOF (maxDocuments reached)"))
  | _, _, [], services => ([], services.log (.info "readLocalJsonl: EOF (end of file)"))
  | left, lineNo, .overlong :: pieces, services =>
    let (results, final) := tell ctx cfg left lineNo pieces services
    ((.error (.error (overlongLine cfg.maxLineBytes.toNat)), services) :: results, final)
  | left, lineNo, .line body :: pieces, services =>
    let line := readLine packages codec cfg.maxDocumentBytes.toNat (lineNo + 1) body
    let services := line.serve ctx body services
    let (results, final) := tell ctx cfg (line.leaves left) (lineNo + 1) pieces services
    match line.outcome with
    | none => (results, final)
    | some result => ((result, services) :: results, final)

section Tell

variable {packages codec} {ctx : StageContext} {cfg : JsonlExtensionConfig} {left : Option ℕ}
variable {lineNo : ℕ} {pieces : List Piece} {services : Services}

theorem tell_nil (more : left ≠ some 0) :
    tell packages codec ctx cfg left lineNo [] services =
      ([], services.log (.info "readLocalJsonl: EOF (end of file)")) := by
  rcases left with _ | _ | left
  · rfl
  · exact absurd rfl more
  · rfl

theorem tell_overlong (more : left ≠ some 0) :
    tell packages codec ctx cfg left lineNo (.overlong :: pieces) services =
      ((.error (.error (overlongLine cfg.maxLineBytes.toNat)), services) ::
          (tell packages codec ctx cfg left lineNo pieces services).1,
        (tell packages codec ctx cfg left lineNo pieces services).2) := by
  rcases left with _ | _ | left
  · rfl
  · exact absurd rfl more
  · rfl

theorem tell_line (more : left ≠ some 0) {body : Bytes} {line : Line}
    (read : readLine packages codec cfg.maxDocumentBytes.toNat (lineNo + 1) body = line) :
    tell packages codec ctx cfg left lineNo (.line body :: pieces) services =
      let services := line.serve ctx body services
      let rest := tell packages codec ctx cfg (line.leaves left) (lineNo + 1) pieces services
      ((line.outcome.map fun result => (result, services)).toList ++ rest.1, rest.2) := by
  subst read
  rcases left with _ | _ | left
  · simp only [tell]
    cases (readLine packages codec cfg.maxDocumentBytes.toNat (lineNo + 1) body).outcome <;> rfl
  · exact absurd rfl more
  · simp only [tell]
    cases (readLine packages codec cfg.maxDocumentBytes.toNat (lineNo + 1) body).outcome <;> rfl

end Tell

/-! ## The stage tells the file -/

/-- How many documents a state may still return. -/
def leftOf (state : ReadLocalJsonlState) : Option ℕ :=
  state.maxDocuments.map fun limit => limit.toNat - state.returned

/-- A state before these bytes of a file. -/
structure Reads (bytes : Bytes) (state : ReadLocalJsonlState) : Prop where
  reader : state.reader = .ofBytes bytes
  unlogged : state.eofLogged = false
  counted : state.physicalLineNo + bytes.length < 2 ^ 63
  returned : state.returned ≤ state.physicalLineNo

section Loop

variable {packages codec} (setup : Setup) {state : ReadLocalJsonlState} {services : Services}

/-- What the stage tells from a state on. -/
def toldFrom (packages : Packages) (codec : BsonCodec) (setup : Setup)
    (state : ReadLocalJsonlState) (bytes : Bytes) (services : Services) :
    List (RowOutcome × Services) × Services :=
  tell packages codec (setup.nextContext none) state.cfg (leftOf state) state.physicalLineNo
    (filePieces state.cfg.maxLineBytes.toNat bytes) services

/-- The state behind a line. -/
def ReadLocalJsonlState.behind (state : ReadLocalJsonlState) (body rest : Bytes) :
    ReadLocalJsonlState :=
  { state with
    reader := .ofBytes rest, lineBuf := body, physicalLineNo := state.physicalLineNo + 1 }

/-- What the loop does with a line. -/
theorem nextLoop_line {body rest : Bytes}
    (got : readJsonlPhysicalLine state.reader state.cfg.maxLineBytes.toNat =
      (.ok (some ()), body, .ofBytes rest)) (few : state.physicalLineNo + 1 < 2 ^ 64)
    (returned : state.returned + 1 < 2 ^ 64) (fuel : ℕ) :
    nextLoop packages codec (setup.nextContext none) (fuel + 1) state services =
      let line := readLine packages codec state.cfg.maxDocumentBytes.toNat
        (state.physicalLineNo + 1) body
      let served := line.serve (setup.nextContext none) body services
      match line with
      | .blank =>
        nextLoop packages codec (setup.nextContext none) fuel (state.behind body rest) served
      | .undecoded e => ((.error (.error e), state.behind body rest), served)
      | .rejected e => ((.error (.error e), state.behind body rest), served)
      | .document doc =>
        ((.ok (.advanced doc none),
          { state.behind body rest with returned := state.returned + 1 }), served) := by
  have lines : saturatingSucc state.physicalLineNo = state.physicalLineNo + 1 :=
    saturatingSucc_of_lt few
  have documents : (state.returned + 1) % 2 ^ 64 = state.returned + 1 := Nat.mod_eq_of_lt returned
  simp only [nextLoop, got, lines, readLine]
  cases decoded : fromUtf8 body with
  | error e => rfl
  | ok text =>
      simp only
      by_cases blank : trim text = ""
      · rw [if_pos blank, if_pos blank]
        rfl
      · rw [if_neg blank, if_neg blank]
        cases parseJsonlObjectLine packages codec (trim text) (state.physicalLineNo + 1)
            state.cfg.maxDocumentBytes.toNat with
        | error e => rfl
        | ok doc =>
            simp only [documents]
            rfl

theorem Reads.behind {bytes body rest : Bytes} (reads : Reads bytes state)
    (shorter : rest.length < bytes.length) : Reads rest (state.behind body rest) := by
  obtain ⟨-, unlogged, counted, returned⟩ := reads
  refine ⟨rfl, unlogged, ?_, ?_⟩
  · simp only [ReadLocalJsonlState.behind]
    omega
  · simp only [ReadLocalJsonlState.behind]
    omega

variable (services) in
/-- What is told of a file that goes on with a line. -/
theorem toldFrom_line {bytes body rest : Bytes} {line : Line}
    (pieces : filePieces state.cfg.maxLineBytes.toNat bytes =
      .line body :: filePieces state.cfg.maxLineBytes.toNat rest) (more : leftOf state ≠ some 0)
    (read : readLine packages codec state.cfg.maxDocumentBytes.toNat (state.physicalLineNo + 1)
      body = line) (state' : ReadLocalJsonlState) (cfg : state'.cfg = state.cfg)
    (lineNo : state'.physicalLineNo = state.physicalLineNo + 1)
    (left : leftOf state' = line.leaves (leftOf state)) :
    toldFrom packages codec setup state bytes services =
      let served := line.serve (setup.nextContext none) body services
      ((line.outcome.map fun result => (result, served)).toList ++
          (toldFrom packages codec setup state' rest served).1,
        (toldFrom packages codec setup state' rest served).2) := by
  unfold toldFrom
  rw [pieces, tell_line more read, cfg, lineNo, left]

/-- The state after a result. -/
structure GoesOn (packages : Packages) (codec : BsonCodec) (setup : Setup)
    (state : ReadLocalJsonlState) (bytes : Bytes) (services : Services)
    (answer : (HookOutcome ExtensionError Next × ReadLocalJsonlState) × Services)
    (result : RowOutcome) (rest : Bytes) : Prop where
  gives : answer.1.1 = result.next
  reads : Reads rest answer.1.2
  shorter : rest.length < bytes.length
  told : toldFrom packages codec setup state bytes services =
    ((result, answer.2) :: (toldFrom packages codec setup answer.1.2 rest answer.2).1,
      (toldFrom packages codec setup answer.1.2 rest answer.2).2)

/-- **The loop gives the first result that is told**, or the end. -/
theorem nextLoop_told {fuel : ℕ} {bytes : Bytes} (reads : Reads bytes state)
    (more : leftOf state ≠ some 0) (enough : bytes.length < fuel) :
    let answer := nextLoop packages codec (setup.nextContext none) fuel state services
    (answer.1.1 = .ok .eof ∧ toldFrom packages codec setup state bytes services = ([], answer.2)) ∨
      ∃ result rest, GoesOn packages codec setup state bytes services answer result rest := by
  induction fuel generalizing state bytes services with
  | zero => omega
  | succ fuel ih =>
      have small : bytes.length < 2 ^ 64 := by
        have counted := reads.counted
        omega
      have read : state.reader = .ofBytes bytes := reads.reader
      rcases readJsonlPhysicalLine_piece state.cfg.maxLineBytes.toNat bytes small
        with ⟨pieces, got⟩ | ⟨piece, rest, pieces, got, buffered, left, shorter⟩
      · left
        rw [← read] at got
        have ended : toldFrom packages codec setup state bytes services =
            ([], services.log (.info "readLocalJsonl: EOF (end of file)")) := by
          unfold toldFrom
          rw [pieces, tell_nil more]
        rw [ended]
        simp only [nextLoop, eof, reads.unlogged, got]
        exact ⟨rfl, rfl⟩
      · rw [← read] at got buffered left
        have counted := reads.counted
        have returned := reads.returned
        cases piece with
        | overlong =>
            have failed : (readJsonlPhysicalLine state.reader state.cfg.maxLineBytes.toNat).1 =
              .error (overlongLine state.cfg.maxLineBytes.toNat) := got
            right
            refine ⟨.error (.error (overlongLine state.cfg.maxLineBytes.toNat)), rest, ?_⟩
            simp only [nextLoop, failed, left]
            refine ⟨rfl, ⟨rfl, reads.unlogged, ?_, returned⟩, shorter, ?_⟩
            · change state.physicalLineNo + rest.length < 2 ^ 63
              omega
            · unfold toldFrom
              rw [pieces, tell_overlong more]
              rfl
        | line body =>
            have line : readJsonlPhysicalLine state.reader state.cfg.maxLineBytes.toNat =
                (.ok (some ()), body, .ofBytes rest) := by
              rw [← left, ← buffered body rfl, ← show _ = Except.ok (some ()) from got]
            have behind : Reads rest (state.behind body rest) := reads.behind shorter
            rw [nextLoop_line setup line (by omega) (by omega)]
            cases here : readLine packages codec state.cfg.maxDocumentBytes.toNat
                (state.physicalLineNo + 1) body with
            | blank =>
                have told := toldFrom_line setup services pieces more here
                  (state.behind body rest) rfl rfl rfl
                simp only [Line.outcome, Option.map_none, Option.toList_none, List.nil_append]
                  at told
                rcases ih behind more (by omega) with ended | ⟨result, rest', goes⟩
                · left
                  exact ⟨ended.1, told.trans ended.2⟩
                · right
                  exact ⟨result, rest', goes.gives, goes.reads, goes.shorter.trans shorter,
                    told.trans goes.told⟩
            | undecoded e =>
                right
                exact ⟨.error (.error e), rest, rfl, behind, shorter,
                  toldFrom_line setup services pieces more here (state.behind body rest) rfl rfl
                    rfl⟩
            | rejected e =>
                right
                exact ⟨.error (.error e), rest, rfl, behind, shorter,
                  toldFrom_line setup services pieces more here (state.behind body rest) rfl rfl
                    rfl⟩
            | document doc =>
                right
                refine ⟨.ok (doc, none), rest, rfl, ?_, shorter,
                  toldFrom_line setup services pieces more here _ rfl rfl ?_⟩
                · refine ⟨rfl, behind.unlogged, behind.counted, ?_⟩
                  exact Nat.succ_le_succ returned
                · unfold leftOf Line.leaves
                  simp only [ReadLocalJsonlState.behind, Option.map_map, Function.comp_def,
                    Nat.sub_sub]

variable (packages codec services) in
/-- **A call gives the first result that is told**, or the end. -/
theorem next_told {bytes : Bytes} (reads : Reads bytes state) :
    let answer := next packages codec state (setup.nextContext none) services
    (answer.1.1 = .ok .eof ∧ toldFrom packages codec setup state bytes services = ([], answer.2)) ∨
      ∃ result rest, GoesOn packages codec setup state bytes services answer result rest := by
  have reached : (state.maxDocuments.any fun limit => limit.toNat ≤ state.returned) = true ↔
      leftOf state = some 0 := by
    unfold leftOf
    cases state.maxDocuments with
    | none => simp
    | some limit => simp [Nat.sub_eq_zero_iff_le]
  unfold next
  by_cases limited : leftOf state = some 0
  · rw [if_pos (reached.mpr limited)]
    left
    have ended : toldFrom packages codec setup state bytes services =
        ([], services.log (.info "readLocalJsonl: EOF (maxDocuments reached)")) := by
      unfold toldFrom
      rw [limited, tell]
    rw [ended]
    simp only [eof, reads.unlogged]
    exact ⟨rfl, rfl⟩
  · rw [if_neg fun full => limited (reached.mp full)]
    apply nextLoop_told setup reads limited
    rw [reads.reader, Reader.ofBytes, List.length_map]
    omega

/-- The query makes no difference. -/
theorem nextLoop_query (q : Option ℕ) (fuel : ℕ) :
    nextLoop packages codec (setup.nextContext q) fuel state services =
      nextLoop packages codec (setup.nextContext none) fuel state services := by
  induction fuel generalizing state services with
  | zero => rfl
  | succ fuel ih =>
      have inc : ∀ (services : Services) key delta, services.inc (setup.nextContext q) key delta =
          services.inc (setup.nextContext none) key delta := fun _ _ _ => rfl
      simp only [nextLoop, inc, ih]

theorem next_query (q : Option ℕ) :
    next packages codec state (setup.nextContext q) services =
      next packages codec state (setup.nextContext none) services := by
  unfold next
  rw [nextLoop_query]

variable (packages codec services) in
/-- **An open file yields what it tells.** -/
theorem yields_told (files : ServerFiles) (extensionOptionsRaw : Option Bytes) {bytes : Bytes}
    (reads : Reads bytes state) :
    Yields (readLocalJsonl packages codec files extensionOptionsRaw) setup state services
      (toldFrom packages codec setup state bytes services).1
      (toldFrom packages codec setup state bytes services).2 := by
  induction length : bytes.length using Nat.strong_induction_on
    generalizing bytes state services with
  | _ n ih =>
      have query : ∀ q, (readLocalJsonl packages codec files extensionOptionsRaw).next state
          (setup.nextContext q) services =
            next packages codec state (setup.nextContext none) services := next_query setup
      have told := next_told packages codec setup services reads
      generalize next packages codec state (setup.nextContext none) services = answer at query told
      obtain ⟨⟨outcome, state'⟩, services'⟩ := answer
      rcases told with ⟨ended, told⟩ | ⟨result, rest, gives, reads', shorter, told⟩
      · obtain rfl : outcome = .ok .eof := ended
        rw [told]
        exact Yields.ended query
      · obtain rfl : outcome = result.next := gives
        rw [told]
        exact Yields.more query (ih rest.length (by omega) services' reads' rfl)

end Loop

/-! ## Every run -/

/-- The script of the stage: it cannot be opened, or it tells the file. -/
def script (files : ServerFiles) (extensionOptionsRaw : Option Bytes) (setup : Setup) :
    Script Services :=
  let stage := readLocalJsonl packages codec files extensionOptionsRaw
  match openAttempt codec stage setup .start with
  | (.error fault, _) => .refused fault fun services => (openAttempt codec stage setup services).2
  | (.ok state, services) =>
    let bytes := state.reader.reads.filterMap Except.toOption
    let told := tell packages codec (setup.nextContext none) state.cfg
      (state.maxDocuments.map UInt64.toNat) 0 (filePieces state.cfg.maxLineBytes.toNat bytes)
      services
    .told told.1 told.2

/-- A file that is read to its end without errors. -/
def Regular (reader : Reader) : Prop :=
  ∃ bytes : Bytes, reader = .ofBytes bytes ∧ bytes.length < 2 ^ 63

theorem bytes_ofBytes (bytes : Bytes) :
    (Reader.ofBytes bytes).reads.filterMap Except.toOption = bytes := by
  simp [Reader.ofBytes, List.filterMap_map, Function.comp_def, Except.toOption]

section Runs

variable {packages codec} {files : ServerFiles} {extensionOptionsRaw : Option Bytes}
variable {setup : Setup}

/-- A change of the services that counts nothing. -/
def Quiet (entered : Services → Services) : Prop :=
  ∀ services handle key, (entered services).counter handle key = services.counter handle key

variable (packages codec files extensionOptionsRaw setup) in
/-- Opening fails, or gives a fresh state, whatever was counted and logged before. It logs, and
counts nothing. -/
theorem openAttempt_cases :
    (∃ (fault : Fault ExtensionError) (entered : Services → Services), Quiet entered ∧
      ∀ services, openAttempt codec (readLocalJsonl packages codec files extensionOptionsRaw) setup
        services = (.error fault, entered services)) ∨
    ∃ reader cfg maxDocuments, ∃ entered : Services → Services, Quiet entered ∧
      ∀ services, openAttempt codec (readLocalJsonl packages codec files extensionOptionsRaw) setup
        services = (.ok ⟨reader, [], 0, cfg, maxDocuments, 0, false⟩, entered services) := by
  have silent : Quiet id := fun _ _ _ => rfl
  have logs : ∀ call, Quiet fun services => services.log call := fun _ _ _ _ => rfl
  unfold openAttempt
  cases codec.decode setup.args with
  | error e => exact .inl ⟨_, _, silent, fun _ => rfl⟩
  | ok argsDoc =>
      simp only [readLocalJsonl]
      cases parse packages argsDoc with
      | error fault => exact .inl ⟨_, _, silent, fun _ => rfl⟩
      | ok a =>
          simp only [openArgs]
          cases extensionConfigFromContext packages.optionsJson extensionOptionsRaw with
          | error e => exact .inl ⟨_, _, silent, fun _ => rfl⟩
          | ok cfg =>
              simp only
              cases resolveUnderAllowedRoot files cfg a.path with
              | error e => exact .inl ⟨_, _, logs _, fun _ => rfl⟩
              | ok resolved =>
                  simp only
                  cases openFileForRead files resolved cfg.allowSymlinks with
                  | error e => exact .inl ⟨_, _, logs _, fun _ => rfl⟩
                  | ok reader => exact .inr ⟨_, _, _, _, logs _, fun _ => rfl⟩

/-- **What is opened is the query's own path below the root**: with links allowed the place that the
path leads to, and otherwise the one that its names lead to without any link. The place is
logged. -/
theorem opened_below_root {services services' : Services} {state : ReadLocalJsonlState}
    (opens : openAttempt codec (readLocalJsonl packages codec files extensionOptionsRaw) setup
      services = (.ok state, services')) :
    ∃ argsDoc a root place, codec.decode setup.args = .ok argsDoc ∧
      parse packages argsDoc = .ok a ∧ Relative a.path ∧
      extensionConfigFromContext packages.optionsJson extensionOptionsRaw = .ok state.cfg ∧
      files.canonicalize state.cfg.allowedRoot = .ok root ∧ root <+: place ∧
      (if state.cfg.allowSymlinks then
        files.tree.canonicalize (root ++ (partsOf a.path).filter (· ≠ "")) = .ok place
      else Reaches files root (partsOf a.path) place) ∧
      (files.tree.lookup place = .ok (.file (.ok state.reader)) ∨
        files.tree.lookup place = .ok .directory ∧ state.reader = directoryReader) ∧
      services' = services.log (.info ("readLocalJsonl: opening " ++ display place)) := by
  unfold openAttempt at opens
  cases decoded : codec.decode setup.args with
  | error e =>
      rw [decoded] at opens
      cases opens
  | ok argsDoc =>
      simp only [decoded, readLocalJsonl] at opens
      cases parsed : parse packages argsDoc with
      | error fault =>
          rw [parsed] at opens
          cases opens
      | ok a =>
          simp only [parsed, openArgs] at opens
          split at opens
          · cases opens
          · next cfg configured =>
              split at opens
              · cases opens
              · next place resolved =>
                  split at opens
                  · cases opens
                  · next reader opened =>
                      cases opens
                      obtain ⟨here, root, found, below⟩ := resolved_below resolved
                      have valid := (resolve_ok_iff.mp resolved).1
                      refine ⟨argsDoc, a, root, place, rfl, parsed, valid, configured, found, below,
                        ?_, openAt_ok ((openFileForRead_place here).mp opened), rfl⟩
                      cases links : cfg.allowSymlinks with
                      | true =>
                          obtain ⟨-, root', found', leads, -⟩ :=
                            (resolve_ok_iff_of_links links).mp resolved
                          obtain rfl := Except.ok.inj (found.symm.trans found')
                          exact leads
                      | false =>
                          obtain ⟨-, root', found', -, reaches⟩ :=
                            (resolve_ok_iff_of_plain links).mp resolved
                          obtain rfl := Except.ok.inj (found.symm.trans found')
                          exact reaches

/-- The script tells what the stage does. -/
theorem tells_script
    (regular : ∀ state services, openAttempt codec
      (readLocalJsonl packages codec files extensionOptionsRaw) setup .start =
        (.ok state, services) → Regular state.reader) :
    Tells codec (readLocalJsonl packages codec files extensionOptionsRaw) setup .start
      (script packages codec files extensionOptionsRaw setup) := by
  unfold script
  rcases openAttempt_cases packages codec files extensionOptionsRaw setup with
    ⟨fault, entered, -, opens⟩ | ⟨reader, cfg, maxDocuments, entered, -, opens⟩
  · simp only [opens]
    exact .refused opens
  · obtain ⟨bytes, rfl, small⟩ := regular _ _ (opens .start)
    have reads : Reads bytes ⟨.ofBytes bytes, [], 0, cfg, maxDocuments, 0, false⟩ :=
      ⟨rfl, rfl, by simpa using small, le_rfl⟩
    have yields := yields_told packages codec setup (entered .start) files extensionOptionsRaw reads
    simp only [opens, bytes_ofBytes]
    exact .told (opens .start) yields

end Runs

/-- **The runs of `$readLocalJsonl`**, for every script of an upstream and every number of calls. -/
theorem readLocalJsonl_runs (files : ServerFiles) (extensionOptionsRaw : Option Bytes)
    (setup : Setup)
    (regular : ∀ state services, openAttempt codec
      (readLocalJsonl packages codec files extensionOptionsRaw) setup .start =
        (.ok state, services) → Regular state.reader)
    (source : Option Upstream) (frames : List Frame) :
    let stage := readLocalJsonl packages codec files extensionOptionsRaw
    let story := script packages codec files extensionOptionsRaw setup
    RunsAs (some true) source (fun ctxs => story.pulls codec ctxs.length)
      (fun ctxs => story.world .start ctxs.length) frames
      ((execGetNext codec stage.sdkSourceOps.toSourceOps).outputs
        (setup.compiled ⟨.empty, .start⟩ source) frames)
      ((execGetNext codec stage.sdkSourceOps.toSourceOps).after
        (setup.compiled ⟨.empty, .start⟩ source) frames).hooks.world
      ((execGetNext codec stage.sdkSourceOps.toSourceOps).after
        (setup.compiled ⟨.empty, .start⟩ source) frames).pulls := by
  intro stage story
  exact Script.runs codec stage (fun _ _ => rfl) setup .start (tells_script regular) source frames

end Source

/-! ## A file with one line -/

/-- A tree with one file under the default root. -/
def oneFile : ServerFiles where
  tree := {
    lookup := fun place =>
      if place = [] ∨ place = ["federation-data"] then .ok .directory
      else if place = ["federation-data", "a"] then .ok (.file (.ok (.ofBytes [123, 125, 10])))
      else .error "No such file or directory (os error 2)"
    maxLinks := 40
    root := by simp }
  workingDirectory := []
  working := .root

def oneArgs : Document := [("path", .string "a")]

/-- The BSON of the arguments. -/
def oneArgsBytes : Bytes := [17, 0, 0, 0, 2, 112, 97, 116, 104, 0, 2, 0, 0, 0, 97, 0, 0]

/-- The packages on the arguments and the line. -/
def onePackages : Packages where
  optionsJson := fun _ => .error "expected value at line 1 column 1"
  stageArgs := fun
    | [("path", .string path)] => .ok (path, none)
    | _ => .error "missing field \"path\""
  fromStr := fun line =>
    if line = "\x7b\x7d" then .ok (.object []) else .error "expected value at line 1 column 1"
  toDocument := fun
    | .object [] => .ok []
    | _ => .error "not a document"
  unicode := .ascii

/-- The codec on the arguments and the empty document. -/
def oneCodec : BsonCodec where
  encode := fun
    | [] => .ok [5, 0, 0, 0, 0]
    | [("path", .string "a")] => .ok oneArgsBytes
    | _ => .error "not encoded"
  decode := fun bytes =>
    if bytes = [5, 0, 0, 0, 0] then .ok []
    else if bytes = oneArgsBytes then .ok oneArgs
    else .error "not decoded"

/-- A cursor over the file, with metrics. -/
def oneSetup : Setup := ⟨oneArgsBytes, none, some 0⟩

theorem parse_oneArgs : oneCodec.decode oneSetup.args = .ok oneArgs ∧
    parse onePackages oneArgs = .ok ⟨"a", none⟩ := by
  have trimmed : trim "a" = "a" := by decide
  have valid : validateStageRelativePath "a" = .ok () := by decide +kernel
  refine ⟨rfl, ?_⟩
  simp [parse, onePackages, oneArgs, trimmed, valid]

theorem openAttempt_oneFile :
    openAttempt oneCodec (readLocalJsonl onePackages oneCodec oneFile none) oneSetup .start =
      (.ok ⟨.ofBytes [123, 125, 10], [], 0, demoExtensionConfigFallback, none, 0, false⟩,
        Services.start.log (.info "readLocalJsonl: opening /federation-data/a")) := by
  obtain ⟨decoded, parsed⟩ := parse_oneArgs
  have cfg : extensionConfigFromContext onePackages.optionsJson none =
      .ok demoExtensionConfigFallback := rfl
  have resolved : resolveUnderAllowedRoot oneFile demoExtensionConfigFallback "a" =
      .ok ["federation-data", "a"] := by decide +kernel
  have plain : demoExtensionConfigFallback.allowSymlinks = false := rfl
  have opened : openFileForRead oneFile ["federation-data", "a"] false =
      .ok (.ofBytes [123, 125, 10]) := rfl
  have shown : "readLocalJsonl: opening " ++ display ["federation-data", "a"] =
      "readLocalJsonl: opening /federation-data/a" := by decide +kernel
  unfold openAttempt
  simp only [readLocalJsonl, decoded, parsed]
  unfold openArgs
  rw [cfg]
  simp only [resolved]
  rw [plain, opened, shown]

theorem regular_oneFile (state : ReadLocalJsonlState) (services : Services)
    (opens : openAttempt oneCodec (readLocalJsonl onePackages oneCodec oneFile none) oneSetup
      .start = (.ok state, services)) : Regular state.reader := by
  rw [openAttempt_oneFile] at opens
  cases opens
  exact ⟨[123, 125, 10], rfl, by decide⟩

/-- The file is opened below the root, where its name leads. -/
theorem opened_below_root_oneFile :
    ∃ root place, oneFile.canonicalize "/federation-data" = .ok root ∧ root <+: place ∧
      Reaches oneFile root (partsOf "a") place ∧
      (oneFile.tree.lookup place = .ok (.file (.ok (.ofBytes [123, 125, 10]))) ∨
        oneFile.tree.lookup place = .ok .directory ∧
          Reader.ofBytes [123, 125, 10] = directoryReader) ∧
      Services.start.log (.info "readLocalJsonl: opening /federation-data/a") =
        Services.start.log (.info ("readLocalJsonl: opening " ++ display place)) := by
  obtain ⟨argsDoc, a, root, place, decoded, parsed, -, -, found, below, leads, there, logged⟩ :=
    opened_below_root openAttempt_oneFile
  obtain ⟨decoded', parsed'⟩ := parse_oneArgs
  obtain rfl := Except.ok.inj (decoded.symm.trans decoded')
  obtain rfl := Except.ok.inj (parsed.symm.trans parsed')
  exact ⟨root, place, found, below, leads, there, logged⟩

/-- Two calls: the document of the line, and the end. -/
theorem readLocalJsonl_runs_oneFile :
    let stage := readLocalJsonl onePackages oneCodec oneFile none
    let story := script onePackages oneCodec oneFile none oneSetup
    RunsAs (some true) none (fun ctxs => story.pulls oneCodec ctxs.length)
      (fun ctxs => story.world .start ctxs.length) [.blank, .blank]
      ((execGetNext oneCodec stage.sdkSourceOps.toSourceOps).outputs
        (oneSetup.compiled ⟨.empty, .start⟩ none) [.blank, .blank])
      ((execGetNext oneCodec stage.sdkSourceOps.toSourceOps).after
        (oneSetup.compiled ⟨.empty, .start⟩ none) [.blank, .blank]).hooks.world
      ((execGetNext oneCodec stage.sdkSourceOps.toSourceOps).after
        (oneSetup.compiled ⟨.empty, .start⟩ none) [.blank, .blank]).pulls := by
  exact readLocalJsonl_runs onePackages oneCodec oneFile none oneSetup regular_oneFile none
    [.blank, .blank]

end ExtensionSdkMongodb.LocalJsonl

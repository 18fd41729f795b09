import ExtensionSdkMongodb.MapTransform.Buffers
import ExtensionSdkMongodb.Passthrough

/-!
# Stages on top of each other

In a pipeline the stage below is the source of the stage above. A call of the stage on top calls
down through all stages and the replies come back up (`getNext`). A buffer in a reply has a new
owner on every level, and the owner knows it by an identity of its own (`handed`).

Every map and passthrough stage turns the list of replies that it gets into the list that it gives
(`Planned.shows`), and a pipeline composes these functions (`getNext_shows`): which rows, ends and
errors come out of it depends on nothing else.
-/

set_option autoImplicit false

namespace ExtensionSdkMongodb.Pipelines

open MapTransform (MapStageGlobals mappedRow emptyInputRow faultStatus faultStatus_not_ok)

/-! ## Replies between stages -/

/-- What the bytes of a container are to a stage that decodes them. A null buffer has none. -/
def documentBytes : ByteContainer → Option Bytes
  | .byteView bytes => some (bytes.getD [])
  | .byteBuf none => none
  | .byteBuf (some buf) => some buf.data

/-- What a stage reads off a result of the stage below it. -/
structure Seen where
  code : ResultCode
  document : Option Bytes
  metadata : Bytes
  deriving DecidableEq, Repr

/-- What a stage reads off a reply of the stage below it. -/
def seen (r : Reply) : Except Status Seen :=
  if r.status.isOk then
    .ok ⟨r.result.code, documentBytes r.result.resultDocument, r.result.resultMetadata.bytes⟩
  else .error r.status

/-- A container of the stage below, under the identity that its buffer gets above. -/
def received (n : ℕ) : ByteContainer → ByteContainer
  | .byteView bytes => .byteView bytes
  | .byteBuf none => .byteBuf none
  | .byteBuf (some buf) => .byteBuf (some ⟨.upstream n, buf.data⟩)

/-- The slots of the `k`-th reply of the stage below. -/
def receivedResult (k : ℕ) (res : GetNextResult) : GetNextResult :=
  ⟨res.code, received (2 * k) res.resultDocument, received (2 * k + 1) res.resultMetadata⟩

theorem owned_received (n : ℕ) (c : ByteContainer) :
    (received n c).owned = 0 ∨ (received n c).owned = {.upstream n} := by
  rcases c with bytes | _ | buf
  · exact .inl rfl
  · exact .inl rfl
  · exact .inr rfl

theorem exclusive_received (k : ℕ) (res : GetNextResult) : (receivedResult k res).Exclusive := by
  have document := owned_received (2 * k) res.resultDocument
  have metadata := owned_received (2 * k + 1) res.resultMetadata
  unfold GetNextResult.Exclusive GetNextResult.owned receivedResult
  rcases document with document | document <;> rcases metadata with metadata | metadata <;>
    simp [document, metadata, BufId.isUpstream]

/-- The `k`-th reply of the stage below as the answer that the stage above gets. -/
def handed (k : ℕ) (r : Reply) : Pulled :=
  if okay : r.status.isOk = true then
    .success (some r.status) (by simpa using okay) (receivedResult k r.result)
      (exclusive_received k r.result)
  else .failure r.status (by simpa using okay) (some (receivedResult k r.result))

@[simp] theorem documentBytes_received (n : ℕ) (c : ByteContainer) :
    documentBytes (received n c) = documentBytes c := by
  rcases c with bytes | _ | buf <;> rfl

@[simp] theorem bytes_received (n : ℕ) (c : ByteContainer) : (received n c).bytes = c.bytes := by
  rcases c with bytes | _ | buf <;> rfl

/-- Handing a reply on changes nothing that is read off it. -/
theorem seen_reply_handed (k : ℕ) (r : Reply) (slots : GetNextResult) :
    seen ((handed k r).reply slots) = seen r := by
  unfold handed
  split
  · next okay => simp [seen, Pulled.reply, okay, receivedResult]
  · next bad => simp [seen, Pulled.reply, bad]

/-! ## The live stack -/

/-- An executable stage above another one. -/
inductive Layer where
  | map (mg : MapStageGlobals) (stage : MapTransform.Stage)
  | passthrough (stage : Passthrough.Stage)

section Calls

variable (codec : BsonCodec) {σ : Type}

/-- How many answers a stage took from the stage below. -/
def Layer.pulls : Layer → ℕ
  | .map _ stage => stage.pulls
  | .passthrough stage => stage.pulls

/-- A call of a stage whose source answers it so. -/
def Layer.getNext (answer : Pulled) (frame : Frame) : Layer → Reply × Layer
  | .map mg stage =>
    let (r, stage) := MapTransform.execGetNext codec mg
      (MapTransform.execSetSource stage (some fun _ => answer)) frame
    (r, .map mg stage)
  | .passthrough stage =>
    let (r, stage) := Passthrough.execGetNext
      (Passthrough.execSetSource stage (some fun _ => answer)) frame
    (r, .passthrough stage)

/-- A call of the first of some stages, which calls those below it and the bottom. -/
def callDown (bottom : Machine σ Frame Reply) (frame : Frame) :
    List Layer → σ → Reply × List Layer × σ
  | [], t => ((bottom t frame).1, [], (bottom t frame).2)
  | layer :: below, t =>
    let lower := callDown bottom frame below t
    let own := layer.getNext codec (handed layer.pulls lower.1) frame
    (own.1, own.2 :: lower.2.1, lower.2.2)

/-- A pipeline, called at its top. -/
def getNext (bottom : Machine σ Frame Reply) : Machine (List Layer × σ) Frame Reply :=
  fun (layers, t) frame => callDown codec bottom frame layers t

end Calls

/-! ## What a stage shows of the stage below -/

/-- The reply is a row. -/
def isRow : Except Status Seen → Bool
  | .ok result => result.code = .advanced
  | .error _ => false

/-- The reply is an end. -/
def isEnd : Except Status Seen → Bool
  | .ok result => result.code = .eof
  | .error _ => false

/-- A container with these bytes, or with a null buffer. -/
def carrier : Option Bytes → ByteContainer
  | none => .byteBuf none
  | some bytes => .byteView (some bytes)

/-- A computed row over the given metadata, or the status of the failure. -/
def rowSeen (panicText : String) (metadata : Bytes) :
    HookOutcome String Bytes → Except Status Seen
  | .ok bytes => .ok ⟨.advanced, some bytes, metadata⟩
  | .error fault => .error (faultStatus panicText fault)

/-- A stage of a pipeline before its first call. -/
inductive Planned where
  | map (mg : MapStageGlobals) (args : Bytes)
  | passthrough (args : Bytes)

/-- The executable stage. -/
def Planned.compiled : Planned → Layer
  | .map mg args => .map mg (.compiled (MapTransform.execAlloc args))
  | .passthrough args => .passthrough ⟨Passthrough.execAlloc args, 0⟩

section Shows

variable (codec : BsonCodec)

/-- What a map stage makes of a reply, after the replies before it. -/
def mapSeen (mg : MapStageGlobals) (args : Bytes) (before : List (Except Status Seen)) :
    Except Status Seen → Except Status Seen
  | .error status => .error status
  | .ok result =>
    match result.code with
    | .advanced =>
      rowSeen "panic during map transform" result.metadata
        (mappedRow codec mg args (carrier result.document))
    | .pauseExecution => .ok result
    | .eof =>
      match mg.onEofNoRows with
      | none => .ok result
      | some onEof =>
        if before.any isRow then .ok result
        else
          match emptyInputRow codec args onEof with
          | .error fault => .error (faultStatus "panic during on_eof_no_rows" fault)
          | .ok bytes =>
            if before.any isEnd then .ok result else .ok ⟨.advanced, some bytes, []⟩

/-- The list of replies that a stage makes of the list of replies that it gets. -/
def Planned.shows : Planned → List (Except Status Seen) → List (Except Status Seen)
  | .map mg args, below => below.mapIdx fun i reply => mapSeen codec mg args (below.take i) reply
  | .passthrough _, below => below

end Shows

/-! ## The rows of a map stage -/

/-- The first end of a list of replies, with no row before. -/
structure FirstEnd (below : List (Except Status Seen)) (i : ℕ) : Prop where
  ends : ∃ reply, below[i]? = some reply ∧ isEnd reply = true
  quiet : ∀ reply ∈ below.take i, isRow reply = false ∧ isEnd reply = false

theorem FirstEnd.unique {below : List (Except Status Seen)} {i j : ℕ} (first : FirstEnd below i)
    (second : FirstEnd below j) : i = j := by
  have before : ∀ {i j : ℕ}, FirstEnd below i → FirstEnd below j → ¬ i < j := by
    intro i j first second lt
    obtain ⟨reply, here, ends⟩ := first.ends
    have member : reply ∈ below.take j :=
      List.mem_iff_getElem?.mpr ⟨i, by rw [List.getElem?_take_of_lt lt, here]⟩
    rw [(second.quiet reply member).2] at ends
    cases ends
  have one := before first second
  have other := before second first
  omega

/-- Where a row of a map stage comes from: it is the mapped row of the stage below, or the row of
`on_eof` at the first end. -/
inductive RowOf (codec : BsonCodec) (mg : MapStageGlobals) (args : Bytes)
    (below : List (Except Status Seen)) (i : ℕ) (result : Seen) : Prop where
  | mapped (document : Option Bytes) (bytes : Bytes)
      (given : below[i]? = some (.ok ⟨.advanced, document, result.metadata⟩))
      (made : mappedRow codec mg args (carrier document) = .ok bytes)
      (shown : result.document = some bytes)
  | own (onEof : Document → HookOutcome String Document) (bytes : Bytes) (first : FirstEnd below i)
      (hook : mg.onEofNoRows = some onEof) (made : emptyInputRow codec args onEof = .ok bytes)
      (shown : result.document = some bytes)

theorem rowOf_shows {codec : BsonCodec} {mg : MapStageGlobals} {args : Bytes}
    {below : List (Except Status Seen)} {i : ℕ} {result : Seen}
    (shown : ((Planned.map mg args).shows codec below)[i]? = some (.ok result))
    (advanced : result.code = .advanced) : RowOf codec mg args below i result := by
  rw [Planned.shows, List.getElem?_mapIdx] at shown
  obtain ⟨reply, given, made⟩ := Option.map_eq_some_iff.mp shown
  rcases reply with status | ⟨_ | _ | _, document, metadata⟩
  · cases made
  · simp only [mapSeen] at made
    cases mapped : mappedRow codec mg args (carrier document) with
    | error fault =>
        rw [mapped] at made
        cases made
    | ok bytes =>
        rw [mapped] at made
        cases made
        exact .mapped document bytes given mapped rfl
  · simp only [mapSeen] at made
    cases hook : mg.onEofNoRows with
    | none =>
        rw [hook] at made
        cases made
        cases advanced
    | some onEof =>
        simp only [hook] at made
        cases rows : (below.take i).any isRow with
        | true =>
            rw [rows, if_pos rfl] at made
            cases made
            cases advanced
        | false =>
            rw [rows, if_neg Bool.false_ne_true] at made
            cases own : emptyInputRow codec args onEof with
            | error fault =>
                rw [own] at made
                cases made
            | ok bytes =>
                rw [own] at made
                cases ends : (below.take i).any isEnd with
                | true =>
                    rw [ends] at made
                    cases made
                    cases advanced
                | false =>
                    rw [ends] at made
                    cases made
                    refine .own onEof bytes ⟨⟨_, given, rfl⟩, fun reply member => ⟨?_, ?_⟩⟩
                      hook own rfl
                    · exact Bool.eq_false_iff.mpr (List.any_eq_false.mp rows reply member)
                    · exact Bool.eq_false_iff.mpr (List.any_eq_false.mp ends reply member)
  · cases made
    cases advanced

/-! ## A map stage over a script -/

section Map

variable {codec : BsonCodec} {mg : MapStageGlobals} {args : Bytes}

@[simp] theorem mappedRow_carrier (c : ByteContainer) :
    mappedRow codec mg args (carrier (documentBytes c)) = mappedRow codec mg args c := by
  rcases c with bytes | _ | buf <;> rfl

@[simp] theorem seen_ok (res : GetNextResult) :
    seen ⟨statusOk, res⟩ =
      .ok ⟨res.code, documentBytes res.resultDocument, res.resultMetadata.bytes⟩ := rfl

theorem seen_failed {r : Reply} (bad : r.status.isOk = false) : seen r = .error r.status := by
  simp [seen, bad]

/-- The rows of a map stage are buffers of its own. -/
theorem advanced_owned {s : MapTransform.Stage} {frame : Frame} {up : Upstream}
    (source : s.exec.source = some up)
    (okay : (MapTransform.execGetNext codec mg s frame).1.status.isOk = true)
    (advanced : (MapTransform.execGetNext codec mg s frame).1.result.code = .advanced) :
    ∃ buf, (MapTransform.execGetNext codec mg s frame).1.result.resultDocument =
      .byteBuf (some buf) := by
  revert okay advanced
  simp only [MapTransform.execGetNext, source]
  cases up s.pulls with
  | failure status bad written =>
      intro okay
      rw [bad] at okay
      cases okay
  | success status okay res exclusive =>
      simp only [MapTransform.mapResult]
      cases code : res.code with
      | pauseExecution => simp [code]
      | advanced =>
          simp only [MapTransform.advancedRow]
          split
          · exact fun _ _ => ⟨_, rfl⟩
          · next fault _ => simp [faultStatus_not_ok]
      | eof =>
          simp only
          split
          · simp [code]
          · cases mg.onEofNoRows with
            | none => simp [code]
            | some onEof =>
                simp only [MapTransform.syntheticRow]
                split
                · exact fun _ _ => ⟨_, rfl⟩
                · next fault _ => simp [faultStatus_not_ok]

/-- What is seen of a reply with a computed row. -/
theorem seen_of_rowReply {outcome : HookOutcome String Bytes} {panicText : String}
    {metadata : ByteContainer} {r : Reply}
    (row : MapTransform.RowReply outcome panicText metadata r)
    (owned : r.status.isOk = true → r.result.code = .advanced →
      ∃ buf, r.result.resultDocument = .byteBuf (some buf)) :
    seen r = rowSeen panicText metadata.bytes outcome := by
  cases outcome with
  | error fault =>
      have failed : r.status = faultStatus panicText fault := row
      rw [seen_failed (by rw [failed]; exact faultStatus_not_ok _ _), failed]
      rfl
  | ok bytes =>
      obtain ⟨status, result⟩ := r
      obtain ⟨rfl, advanced, rfl, rfl⟩ := row
      obtain ⟨buf, held⟩ := owned rfl advanced
      have data : result.resultDocument.bytes = buf.data := by rw [held]; rfl
      rw [seen_ok, advanced, data, held]
      rfl

/-- The list of replies before says which answers were before. -/
structure Before (up : Upstream) (i : ℕ) (before : List (Except Status Seen)) : Prop where
  rows : before.any isRow = true ↔ ∃ j < i, (up j).Advances
  ends : before.any isEnd = true ↔ ∃ j < i, (up j).Ends

/-- An end with no row before is the first one unless one was before. -/
theorem Before.endsFirst {up : Upstream} {i : ℕ} {before : List (Except Status Seen)}
    (past : Before up i before) (rowless : ∀ j < i, ¬ (up j).Advances) (ended : (up i).Ends) :
    up.EndsFirst 0 i ↔ before.any isEnd = false := by
  rw [← Bool.not_eq_true, past.ends]
  constructor
  · rintro first ⟨j, before, ends⟩
    exact (first.2.2 j (Nat.zero_le j) before).1 ends
  · intro none_
    refine ⟨Nat.zero_le i, ended, fun j _ before => ⟨?_, rowless j before⟩⟩
    exact fun ends => none_ ⟨j, before, ends⟩

/-- **What a map stage owes is what it makes of the replies that it gets.** -/
theorem seen_of_owes {up : Upstream} {i : ℕ} {before : List (Except Status Seen)}
    (past : Before up i before) {frame : Frame} {r : Reply}
    (owed : MapTransform.Owes codec mg args up i frame r)
    (owned : r.status.isOk = true → r.result.code = .advanced →
      ∃ buf, r.result.resultDocument = .byteBuf (some buf)) :
    seen r = mapSeen codec mg args before (seen ((up i).reply frame.result)) := by
  unfold MapTransform.Owes at owed
  cases answer : up i with
  | failure status bad written =>
      rw [answer] at owed
      obtain rfl : r = _ := owed
      rw [Pulled.reply, seen_failed bad]
      rfl
  | success status okay res exclusive =>
      simp only [answer] at owed
      rw [Pulled.reply, seen_ok]
      cases code : res.code with
      | advanced =>
          rw [code] at owed
          rw [seen_of_rowReply owed owned]
          simp [mapSeen]
      | pauseExecution =>
          rw [code] at owed
          obtain rfl : r = _ := owed
          rw [seen_ok, code]
          rfl
      | eof =>
          rw [code] at owed
          have ended : (up i).Ends := by simp [answer, Pulled.Ends, code]
          have plain : r = ⟨statusOk, res⟩ →
              seen r = .ok ⟨.eof, documentBytes res.resultDocument, res.resultMetadata.bytes⟩ := by
            rintro rfl
            rw [seen_ok, code]
          simp only [MapTransform.OwesEnd] at owed
          simp only [mapSeen]
          cases hook : mg.onEofNoRows with
          | none =>
              rw [hook] at owed
              exact plain owed
          | some onEof =>
              rw [hook] at owed
              obtain ⟨afterRow, rowless⟩ := owed
              cases rows : before.any isRow with
              | true => exact plain (afterRow (past.rows.mp rows))
              | false =>
                  have none_ : ∀ j < i, ¬ (up j).Advances := by
                    intro j lt advances
                    rw [past.rows.mpr ⟨j, lt, advances⟩] at rows
                    cases rows
                  have owed := rowless none_
                  have first := past.endsFirst none_ ended
                  simp only [Bool.false_eq_true, if_false]
                  cases made : emptyInputRow codec args onEof with
                  | error fault =>
                      rw [made] at owed
                      have failed : r.status = faultStatus _ fault := owed
                      have bad : r.status.isOk = false := by
                        rw [failed]
                        exact faultStatus_not_ok _ _
                      rw [seen_failed bad, failed]
                  | ok bytes =>
                      rw [made] at owed
                      obtain ⟨atFirst, later⟩ := owed
                      cases ends : before.any isEnd with
                      | true =>
                          have late : ¬ up.EndsFirst 0 i := by simp [first, ends]
                          simpa using plain (later late)
                      | false =>
                          exact seen_of_rowReply (atFirst (first.mpr ends)) owned

/-- An upstream that gives these replies. -/
def script (replies : List Reply) : Upstream :=
  fun k => handed k (replies.getD k ⟨statusOk, .setEofEmpty⟩)

theorem script_of_getElem? {replies : List Reply} {k : ℕ} {r : Reply}
    (replied : replies[k]? = some r) : script replies k = handed k r := by
  simp [script, List.getD, replied]

/-- What an answer of a script is can be seen from the reply. -/
theorem answer_of_seen (k : ℕ) (r : Reply) :
    ((handed k r).Advances ↔ isRow (seen r) = true) ∧
      ((handed k r).Ends ↔ isEnd (seen r) = true) := by
  unfold handed
  split
  · next okay =>
    simp [Pulled.Advances, Pulled.Ends, receivedResult, seen, okay, isRow, isEnd]
  · next bad =>
    simp [Pulled.Advances, Pulled.Ends, seen, bad, isRow, isEnd]

/-- The replies of a script before a call. -/
theorem before_script {replies : List Reply} {i : ℕ} (le : i ≤ replies.length) :
    Before (script replies) i ((replies.map seen).take i) := by
  have at_ : ∀ {look : Except Status Seen → Bool} {holds : Pulled → Prop},
      (∀ k r, holds (handed k r) ↔ look (seen r) = true) →
      (((replies.map seen).take i).any look = true ↔ ∃ j < i, holds (script replies j)) := by
    intro look holds reads
    rw [List.any_eq_true]
    constructor
    · rintro ⟨reply, member, looks⟩
      obtain ⟨j, lt, rfl⟩ := List.mem_iff_getElem.mp member
      rw [List.length_take, List.length_map] at lt
      have inRange : j < replies.length := by omega
      refine ⟨j, by omega, ?_⟩
      rw [script_of_getElem? (List.getElem?_eq_getElem inRange), reads]
      simpa using looks
    · rintro ⟨j, before, holds⟩
      have inRange : j < replies.length := by omega
      rw [script_of_getElem? (List.getElem?_eq_getElem inRange), reads] at holds
      refine ⟨seen replies[j], ?_, holds⟩
      rw [← List.map_take]
      apply List.mem_map_of_mem
      exact List.mem_take_iff_getElem.mpr ⟨j, by omega, rfl⟩
  exact ⟨at_ fun k r => (answer_of_seen k r).1, at_ fun k r => (answer_of_seen k r).2⟩

/-- A map stage over a script shows what it makes of the script's replies. -/
theorem map_script (codec : BsonCodec) (mg : MapStageGlobals) (args : Bytes) {replies : List Reply}
    {frames : List Frame} (each : replies.length = frames.length) :
    ((MapTransform.execGetNext codec mg).outputs (MapTransform.start args (script replies))
        frames).map seen =
      (Planned.map mg args).shows codec (replies.map seen) := by
  apply List.ext_getElem?
  intro i
  rw [Planned.shows, List.getElem?_mapIdx, List.getElem?_map, List.getElem?_map]
  cases called : frames[i]? with
  | none =>
      have past : frames.length ≤ i := List.getElem?_eq_none_iff.mp called
      rw [List.getElem?_eq_none (by rwa [Machine.length_outputs]),
        List.getElem?_eq_none (by rwa [each])]
      rfl
  | some frame =>
      have lt : i < replies.length := by
        rw [each]
        exact (List.getElem?_eq_some_iff.mp called).1
      obtain ⟨-, -, r, replied, owed⟩ :=
        MapTransform.owes_run codec mg args (script replies) frames i frame called
      have given := script_of_getElem? (List.getElem?_eq_getElem lt)
      rw [replied, List.getElem?_eq_getElem lt]
      simp only [Option.map_some, Option.some.injEq]
      rw [seen_of_owes (before_script lt.le) owed, given, seen_reply_handed]
      have history :=
        (MapTransform.history_start codec mg args (script replies)).after (frames.take i)
      have output : r = (MapTransform.execGetNext codec mg
          ((MapTransform.execGetNext codec mg).after
            (MapTransform.start args (script replies)) (frames.take i)) frame).1 := by
        rw [Machine.getElem?_outputs, called] at replied
        exact (Option.some.inj replied).symm
      rw [output]
      exact advanced_owned history.source

end Map

/-! ## Pipelines -/

section Pipelines

variable (codec : BsonCodec) {σ : Type}

/-- A call of a map stage takes one answer, and depends on its source by that answer only. -/
theorem execGetNext_source (mg : MapStageGlobals) (s : MapTransform.Stage) (up : Upstream)
    (frame : Frame) :
    let own := MapTransform.execGetNext codec mg
      (MapTransform.execSetSource s (some fun _ => up s.pulls)) frame
    MapTransform.execGetNext codec mg (MapTransform.execSetSource s (some up)) frame =
        (own.1, MapTransform.execSetSource own.2 (some up)) ∧
      own.2.pulls = s.pulls + 1 := by
  simp only [MapTransform.execGetNext, MapTransform.execSetSource]
  cases up s.pulls with
  | failure status bad written => exact ⟨rfl, rfl⟩
  | success status okay res exclusive =>
      simp only [MapTransform.mapResult]
      cases res.code with
      | pauseExecution => exact ⟨rfl, rfl⟩
      | advanced =>
          simp only [MapTransform.advancedRow]
          split
          · exact ⟨rfl, rfl⟩
          · exact ⟨rfl, rfl⟩
      | eof =>
          simp only
          split
          · exact ⟨rfl, rfl⟩
          · cases mg.onEofNoRows with
            | none => exact ⟨rfl, rfl⟩
            | some onEof =>
                simp only [MapTransform.syntheticRow]
                split
                · exact ⟨rfl, rfl⟩
                · exact ⟨rfl, rfl⟩

variable {codec} {bottom : Machine σ Frame Reply}

theorem getNext_cons (layer : Layer) (below : List Layer) (t : σ) (frame : Frame) :
    getNext codec bottom (layer :: below, t) frame =
      let lower := getNext codec bottom (below, t) frame
      let own := layer.getNext codec (handed layer.pulls lower.1) frame
      (own.1, (own.2 :: lower.2.1, lower.2.2)) := rfl

/-- A map stage on top runs as over the script of what the stages below reply. -/
theorem outputs_map {mg : MapStageGlobals} {s : MapTransform.Stage} {below : List Layer} {t : σ}
    {frames : List Frame} {up : Upstream}
    (fits : ∀ i r, ((getNext codec bottom).outputs (below, t) frames)[i]? = some r →
      up (s.pulls + i) = handed (s.pulls + i) r) :
    (getNext codec bottom).outputs (.map mg s :: below, t) frames =
      (MapTransform.execGetNext codec mg).outputs (MapTransform.execSetSource s (some up))
        frames := by
  induction frames generalizing s below t with
  | nil => rfl
  | cons frame frames ih =>
      obtain ⟨call, pulls⟩ := execGetNext_source codec mg s up frame
      have now : up s.pulls = handed s.pulls (getNext codec bottom (below, t) frame).1 :=
        fits 0 _ rfl
      rw [Machine.outputs_cons, Machine.outputs_cons, call, getNext_cons]
      simp only [Layer.getNext, Layer.pulls, ← now]
      refine congrArg (List.cons _) (ih ?_)
      intro i r replied
      rw [pulls, Nat.add_right_comm, Nat.add_assoc]
      exact fits (i + 1) r replied

/-- A passthrough stage on top hands the replies on. -/
theorem outputs_passthrough {s : Passthrough.Stage} {below : List Layer} {t : σ}
    {frames : List Frame} :
    ((getNext codec bottom).outputs (.passthrough s :: below, t) frames).map seen =
      ((getNext codec bottom).outputs (below, t) frames).map seen := by
  induction frames generalizing s below t with
  | nil => rfl
  | cons frame frames ih =>
      rw [Machine.outputs_cons, Machine.outputs_cons, List.map_cons, List.map_cons, getNext_cons]
      have same : seen (Layer.getNext codec
          (handed s.pulls (getNext codec bottom (below, t) frame).1) frame (.passthrough s)).1 =
            seen (getNext codec bottom (below, t) frame).1 := seen_reply_handed _ _ _
      exact congrArg₂ List.cons same ih

/-- A stage on top shows what it makes of what the stages below show. -/
theorem outputs_compiled (stage : Planned) (below : List Layer) (t : σ) (frames : List Frame) :
    ((getNext codec bottom).outputs (stage.compiled :: below, t) frames).map seen =
      stage.shows codec (((getNext codec bottom).outputs (below, t) frames).map seen) := by
  cases stage with
  | passthrough args => exact outputs_passthrough
  | map mg args =>
      have each : ((getNext codec bottom).outputs (below, t) frames).length = frames.length :=
        Machine.length_outputs _ _ _
      rw [← map_script codec mg args each]
      apply congrArg (List.map seen)
      apply outputs_map
      intro i r replied
      simp only [MapTransform.Stage.compiled, Nat.zero_add]
      exact script_of_getElem? replied

/-- A pipeline without stages is its bottom. -/
theorem outputs_bottom (t : σ) (frames : List Frame) :
    (getNext codec bottom).outputs ([], t) frames = bottom.outputs t frames := by
  rw [Machine.outputs_image (fun t => ([], t)) id (fun _ _ => rfl), List.map_id]

/-- **Every pipeline shows what its stages make, one after the other, of the replies of the
bottom**, for every number of map and passthrough stages, every bottom and every run. -/
theorem getNext_shows (codec : BsonCodec) (bottom : Machine σ Frame Reply) (stages : List Planned)
    (t : σ) (frames : List Frame) :
    ((getNext codec bottom).outputs (stages.map Planned.compiled, t) frames).map seen =
      stages.foldr (fun stage below => stage.shows codec below)
        ((bottom.outputs t frames).map seen) := by
  induction stages with
  | nil => rw [List.map_nil, outputs_bottom, List.foldr_nil]
  | cons stage stages ih => rw [List.map_cons, List.foldr_cons, outputs_compiled, ih]

end Pipelines

end ExtensionSdkMongodb.Pipelines

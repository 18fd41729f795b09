import ExtensionSdkMongodb.Data.Bson
import ExtensionSdkMongodb.Library.Machine
import ExtensionSdkMongodb.Sdk.Error
import Mathlib.Algebra.Ring.Int.Defs
import Mathlib.Logic.Function.Basic

/-!
# Operation metrics

The metrics object of the host and the exec stage share one document. The stage counts and times
through its handle, the host writes patches, and either may be gone before the other.

A `Tally` is what the updates are meant to add up to: one integer for each key that was written.
`metrics_tally_iff` says that what the host reads is the tally as long as no count starts at a
value that a patch stored with 32 bits, no time is longer than an `i64` holds, and no key has a
NUL.
-/

set_option autoImplicit false

namespace ExtensionSdkMongodb

/-! ## The shared document -/

/-- The document of the metrics object, and whether an exec stage holds its handle. -/
structure SharedMetrics where
  doc : Document
  bound : Bool

namespace SharedMetrics

/-- `alloc_sdk_operation_metrics`, with the handle kept by the exec stage. -/
def alloc : SharedMetrics := ⟨[], true⟩

/-- The destruction of the exec stage drops its handle. -/
def destroyExec (m : SharedMetrics) : SharedMetrics := { m with bound := false }

end SharedMetrics

/-- `Bson::as_i64`. -/
def Bson.asI64 : Bson → Option Int64
  | .int64 value => some value
  | _ => none

/-- `i64::saturating_add`. -/
def saturatingAdd (a b : Int64) : Int64 :=
  let sum := a.toInt + b.toInt
  if sum < Int64.minValue.toInt then Int64.minValue
  else if Int64.maxValue.toInt < sum then Int64.maxValue
  else Int64.ofInt sum

/-- `OperationMetricsSink::inc`. -/
def SharedMetrics.inc (m : SharedMetrics) (key : String) (delta : Int64) : SharedMetrics :=
  if m.bound then
    let prev := ((m.doc.get key).bind Bson.asI64).getD 0
    { m with doc := m.doc.insert key (.int64 (saturatingAdd prev delta)) }
  else m

/-- `OperationMetricsSink::record_time`. -/
def SharedMetrics.recordTime (m : SharedMetrics) (key : String) (elapsedNs : UInt64) :
    SharedMetrics :=
  if m.bound then { m with doc := m.doc.insert key (.int64 elapsedNs.toInt64) } else m

/-- The document that `sdk_met_update` reads from a patch: none from a null or empty view, or from
bytes that do not decode. -/
def readPatch (codec : BsonCodec) (patch : Option Bytes) : Option Document :=
  match patch.filter (· ≠ []) with
  | none => none
  | some bytes => (codec.decode bytes).toOption

/-- The loop of `sdk_met_update`. -/
def insertAll (doc extra : Document) : Document :=
  extra.foldl (fun doc field => doc.insert field.1 field.2) doc

/-- `sdk_met_update`. -/
def SharedMetrics.update (codec : BsonCodec) (m : SharedMetrics) (patch : Option Bytes) :
    SharedMetrics :=
  match readPatch codec patch with
  | none => m
  | some extra => { m with doc := insertAll m.doc extra }

/-- `sdk_met_serialize`: the bytes of the buffer. -/
def SharedMetrics.serialize (codec : BsonCodec) (m : SharedMetrics) : Except ExtensionError Bytes :=
  (codec.encode m.doc).mapError .failedToParse

/-- One update, by the stage or by the host. -/
inductive MetricsUpdate where
  | inc (key : String) (delta : Int64)
  | recordTime (key : String) (elapsedNs : UInt64)
  | update (patch : Option Bytes)
  | destroyExec
  deriving DecidableEq

/-- The metrics as a machine without outputs. -/
def metricsMachine (codec : BsonCodec) : Machine SharedMetrics MetricsUpdate Unit :=
  fun m update =>
    ((), match update with
      | .inc key delta => m.inc key delta
      | .recordTime key elapsedNs => m.recordTime key elapsedNs
      | .update patch => m.update codec patch
      | .destroyExec => m.destroyExec)

/-! ## The tally -/

/-- The nearest integer in the range of `i64`. -/
def clamp (n : ℤ) : ℤ := max (-2 ^ 63) (min (2 ^ 63 - 1) n)

/-- The integer of a value with 32 or 64 bits. -/
def Bson.asInteger : Bson → Option ℤ
  | .int32 value => some value.toInt
  | .int64 value => some value.toInt
  | _ => none

/-- The integers that updates add up to, by key; without an exec stage nothing is counted. -/
structure Tally where
  counting : Bool
  entries : String → Option ℤ

namespace Tally

def start : Tally := ⟨true, fun _ => none⟩

/-- The integer stored last, at this key only. -/
def store (t : Tally) (key : String) (n : ℤ) : Tally :=
  { t with entries := Function.update t.entries key (some n) }

/-- The integers of a document, stored one after the other. -/
def storeAll (t : Tally) (extra : Document) : Tally :=
  extra.foldl (fun t field => t.store field.1 (field.2.asInteger.getD 0)) t

def post (codec : BsonCodec) (t : Tally) : MetricsUpdate → Tally
  | .inc key delta =>
    if t.counting then t.store key (clamp ((t.entries key).getD 0 + delta.toInt)) else t
  | .recordTime key elapsedNs => if t.counting then t.store key elapsedNs.toNat else t
  | .update patch =>
    match readPatch codec patch with
    | none => t
    | some extra => t.storeAll extra
  | .destroyExec => { t with counting := false }

end Tally

/-- The tally of a list of updates. -/
def tallyOf (codec : BsonCodec) (updates : List MetricsUpdate) : Tally :=
  updates.foldl (Tally.post codec) .start

/-- A document has exactly the entries, as integers. -/
def Shows (d : Document) (entries : String → Option ℤ) : Prop :=
  ∀ key, (d.get key).map Bson.asInteger = (entries key).map some

/-- What the host reads from its metrics object is the tally. -/
def Reads (codec : BsonCodec) (m : SharedMetrics) (t : Tally) : Prop :=
  ∃ bytes d, m.serialize codec = .ok bytes ∧ codec.decode bytes = .ok d ∧ Shows d t.entries

/-- An update that adds up: it does not count on from another number than the one stored, does not
store a time that wraps, and its key can be written. -/
def AddsUp (m : SharedMetrics) : MetricsUpdate → Prop
  | .inc key delta => m.bound = true → '\x00' ∉ key.toList ∧
      ∀ v, m.doc.get key = some (.int32 v) → clamp (v.toInt + delta.toInt) = delta.toInt
  | .recordTime key elapsedNs => m.bound = true →
      '\x00' ∉ key.toList ∧ elapsedNs.toNat < 2 ^ 63
  | .update _ => True
  | .destroyExec => True

/-! ### Integers -/

theorem saturatingAdd_toInt (a b : Int64) :
    (saturatingAdd a b).toInt = clamp (a.toInt + b.toInt) := by
  unfold saturatingAdd clamp
  simp only [Int64.toInt_minValue, Int64.toInt_maxValue]
  split
  · rw [Int64.toInt_minValue]
    omega
  · split
    · rw [Int64.toInt_maxValue]
      omega
    · rw [Int64.toInt_ofInt_of_le (by omega) (by omega)]
      omega

theorem clamp_toInt (a : Int64) : clamp a.toInt = a.toInt := by
  have low := a.le_toInt
  have high := a.toInt_lt
  unfold clamp
  omega

/-- A time keeps its value as an `i64` exactly if it fits. -/
theorem toInt64_toInt_iff (elapsed : UInt64) :
    elapsed.toInt64.toInt = elapsed.toNat ↔ elapsed.toNat < 2 ^ 63 := by
  have small := elapsed.toNat_lt
  rw [← Int64.toInt_toBitVec, UInt64.toBitVec_toInt64, BitVec.toInt_eq_toNat_cond]
  simp only [UInt64.toNat_toBitVec]
  split <;> omega

/-! ### Documents -/

/-- After an insertion a document has the entries exactly if the inserted value is the new one. -/
theorem shows_insert_iff {d : Document} {entries : String → Option ℤ} (shows_ : Shows d entries)
    (key : String) (value : Bson) (n : ℤ) :
    Shows (d.insert key value) (Function.update entries key (some n)) ↔
      value.asInteger = some n := by
  constructor
  · intro after
    have here := after key
    rw [Document.get_insert, if_pos rfl, Function.update_self] at here
    simpa using here
  · intro same k
    rw [Document.get_insert]
    by_cases here : k = key
    · subst here
      simp [same]
    · rw [if_neg here, Function.update_of_ne here, shows_ k]

/-- No key has a NUL. -/
def NulFree (d : Document) : Prop := ∀ key ∈ d.keys, '\x00' ∉ key.toList

theorem nulFree_insert_iff {d : Document} {key : String} {value : Bson} :
    NulFree (d.insert key value) ↔ '\x00' ∉ key.toList ∧ NulFree d := by
  simp only [NulFree, Document.mem_keys_insert, or_imp, forall_and, forall_eq]

/-- A document of integers. -/
def Integral (d : Document) : Prop := ∀ field ∈ d, ∃ n, field.2.asInteger = some n

theorem insertAll_nulFree {doc extra : Document} (free : NulFree doc) (more : NulFree extra) :
    NulFree (insertAll doc extra) := by
  induction extra generalizing doc with
  | nil => exact free
  | cons field rest ih =>
      simp only [NulFree, Document.keys, List.map_cons, List.forall_mem_cons] at more
      exact ih (nulFree_insert_iff.mpr ⟨more.1, free⟩) more.2

theorem storeAll_counting (t : Tally) (extra : Document) :
    (t.storeAll extra).counting = t.counting := by
  induction extra generalizing t with
  | nil => rfl
  | cons field rest ih => exact ih _

/-- The integers of a patch are stored in the document as they are in the tally. -/
theorem insertAll_shows {doc extra : Document} {t : Tally} (shows_ : Shows doc t.entries)
    (integral : Integral extra) : Shows (insertAll doc extra) (t.storeAll extra).entries := by
  induction extra generalizing doc t with
  | nil => exact shows_
  | cons field rest ih =>
      obtain ⟨⟨n, value⟩, others⟩ := List.forall_mem_cons.mp integral
      refine ih ((shows_insert_iff shows_ _ _ _).mpr ?_) others
      rw [value, Option.getD_some]

/-! ### Updates -/

/-- The tally counts exactly while the stage is there, and the document shows it. -/
structure Agrees (m : SharedMetrics) (t : Tally) : Prop where
  counting : t.counting = m.bound
  shows_ : Shows m.doc t.entries
  free : NulFree m.doc

theorem Agrees.alloc : Agrees .alloc .start where
  counting := rfl
  shows_ _ := rfl
  free := by simp [NulFree, SharedMetrics.alloc, Document.keys]

section Codec

variable {codec : BsonCodec} {m : SharedMetrics} {t : Tally}

/-- The host reads the tally exactly if the document shows it and can be encoded. -/
theorem reads_iff (rejects : ∀ d bytes, codec.encode d = .ok bytes → NulFree d)
    (roundTrips : NulFree m.doc → codec.RoundTrips m.doc) :
    Reads codec m t ↔ NulFree m.doc ∧ Shows m.doc t.entries := by
  constructor
  · rintro ⟨bytes, d, serialized, decoded, shows_⟩
    have encoded : codec.encode m.doc = .ok bytes := by
      unfold SharedMetrics.serialize at serialized
      cases encoding : codec.encode m.doc with
      | error e => rw [encoding] at serialized; cases serialized
      | ok bytes' => rw [encoding] at serialized; cases serialized; rfl
    have free := rejects _ _ encoded
    obtain ⟨bytes', encoded', decoded'⟩ := roundTrips free
    rw [encoded', Except.ok.injEq] at encoded
    rw [← encoded, decoded', Except.ok.injEq] at decoded
    exact ⟨free, decoded ▸ shows_⟩
  · rintro ⟨free, shows_⟩
    obtain ⟨bytes, encoded, decoded⟩ := roundTrips free
    exact ⟨bytes, m.doc, by rw [SharedMetrics.serialize, encoded]; rfl, decoded, shows_⟩

theorem readPatch_decoded {patch : Option Bytes} {extra : Document}
    (read : readPatch codec patch = some extra) : ∃ bytes, codec.decode bytes = .ok extra := by
  unfold readPatch at read
  split at read
  · cases read
  · next bytes _ =>
    cases decoded : codec.decode bytes with
    | error e => simp [decoded, Except.toOption] at read
    | ok d => exact ⟨bytes, by simpa [decoded, Except.toOption] using read⟩

/-- A count adds up exactly if it goes on from the stored integer. -/
theorem inc_value_iff (agrees : Agrees m t) (key : String) (delta : Int64) :
    (Bson.int64 (saturatingAdd (((m.doc.get key).bind Bson.asI64).getD 0) delta)).asInteger =
        some (clamp ((t.entries key).getD 0 + delta.toInt)) ↔
      ∀ v, m.doc.get key = some (.int32 v) → clamp (v.toInt + delta.toInt) = delta.toInt := by
  have entry := agrees.shows_ key
  rw [Bson.asInteger, saturatingAdd_toInt, Option.some.injEq]
  cases stored : m.doc.get key with
  | none =>
      have none : t.entries key = none := by simpa [stored] using entry.symm
      simp [none]
  | some value =>
      rw [stored, Option.map_some] at entry
      cases known : t.entries key with
      | none => simp [known] at entry
      | some n =>
          rw [known, Option.map_some, Option.some.injEq] at entry
          cases value with
          | int64 w =>
              cases entry
              simp [Bson.asI64]
          | int32 v =>
              cases entry
              simp [Bson.asI64, clamp_toInt, eq_comm]
          | _ => cases entry

/-- The patches of an update are documents of integers. -/
def MetricsUpdate.Integral (codec : BsonCodec) (update : MetricsUpdate) : Prop :=
  ∀ patch extra, update = .update patch → readPatch codec patch = some extra →
    ExtensionSdkMongodb.Integral extra

theorem step_counting (agrees : Agrees m t) (update : MetricsUpdate) :
    (t.post codec update).counting = (metricsMachine codec m update).2.bound := by
  have counting := agrees.counting
  cases update with
  | inc key delta =>
      simp only [Tally.post, metricsMachine, SharedMetrics.inc, counting]
      split <;> simp [Tally.store, counting]
  | recordTime key elapsedNs =>
      simp only [Tally.post, metricsMachine, SharedMetrics.recordTime, counting]
      split <;> simp [Tally.store, counting]
  | update patch =>
      simp only [Tally.post, metricsMachine, SharedMetrics.update]
      split <;> simp [storeAll_counting, counting]
  | destroyExec => rfl

/-- **An update keeps the document at the tally exactly if it adds up.** -/
theorem step_shows_iff (decodes : ∀ bytes d, codec.decode bytes = .ok d → NulFree d)
    (agrees : Agrees m t) {update : MetricsUpdate} (integral : update.Integral codec) :
    NulFree (metricsMachine codec m update).2.doc ∧
        Shows (metricsMachine codec m update).2.doc (t.post codec update).entries ↔
      AddsUp m update := by
  have unchanged : NulFree m.doc ∧ Shows m.doc t.entries := ⟨agrees.free, agrees.shows_⟩
  cases update with
  | inc key delta =>
      simp only [Tally.post, metricsMachine, SharedMetrics.inc, agrees.counting, AddsUp]
      by_cases bound : m.bound = true
      · simp only [bound, if_true, Tally.store, nulFree_insert_iff, agrees.free, and_true,
          shows_insert_iff agrees.shows_, inc_value_iff agrees, forall_const]
      · simp [bound, unchanged]
  | recordTime key elapsedNs =>
      simp only [Tally.post, metricsMachine, SharedMetrics.recordTime, agrees.counting, AddsUp]
      by_cases bound : m.bound = true
      · simp only [bound, if_true, Tally.store, nulFree_insert_iff, agrees.free, and_true,
          shows_insert_iff agrees.shows_, Bson.asInteger, Option.some.injEq, toInt64_toInt_iff,
          forall_const]
      · simp [bound, unchanged]
  | update patch =>
      refine iff_of_true ?_ trivial
      simp only [Tally.post, metricsMachine, SharedMetrics.update]
      cases read : readPatch codec patch with
      | none => exact unchanged
      | some extra =>
          obtain ⟨bytes, decoded⟩ := readPatch_decoded read
          exact ⟨insertAll_nulFree agrees.free (decodes bytes extra decoded),
            insertAll_shows agrees.shows_ (integral patch extra rfl read)⟩
  | destroyExec => exact iff_of_true unchanged trivial

end Codec

/-! ### Runs -/

/-- The metrics after updates to a new object. -/
def metricsAfter (codec : BsonCodec) (updates : List MetricsUpdate) : SharedMetrics :=
  (metricsMachine codec).after .alloc updates

/-- What is known of the steps of a run: the patches are integers, and the codec restores what it
can encode. -/
def Sound (codec : BsonCodec) (m : SharedMetrics) (update : MetricsUpdate) : Prop :=
  update.Integral codec ∧
    (NulFree (metricsMachine codec m update).2.doc →
      codec.RoundTrips (metricsMachine codec m update).2.doc)

/-- **The host reads the tally after every part of a run exactly if every update of the run adds
up.** -/
theorem metrics_tally_iff (codec : BsonCodec)
    (rejects : ∀ d bytes, codec.encode d = .ok bytes → NulFree d)
    (decodes : ∀ bytes d, codec.decode bytes = .ok d → NulFree d) (updates : List MetricsUpdate)
    (roundTrips : ∀ seen, seen <+: updates → NulFree (metricsAfter codec seen).doc →
      codec.RoundTrips (metricsAfter codec seen).doc)
    (integral : ∀ update ∈ updates, update.Integral codec) :
    (∀ seen, seen <+: updates → Reads codec (metricsAfter codec seen) (tallyOf codec seen)) ↔
      ∀ seen update, seen ++ [update] <+: updates → AddsUp (metricsAfter codec seen) update := by
  have sound : ∀ seen update, seen ++ [update] <+: updates →
      Sound codec (metricsAfter codec seen) update := by
    intro seen update begins
    have whole := roundTrips _ begins
    rw [metricsAfter, Machine.after_append] at whole
    exact ⟨integral update (begins.mem (by simp)), whole⟩
  have same : ∀ m t update, Agrees m t → Sound codec m update →
      (Reads codec (metricsMachine codec m update).2 (t.post codec update) ↔ AddsUp m update) :=
    fun m t update agrees sound =>
      (reads_iff rejects sound.2).trans (step_shows_iff decodes agrees sound.1)
  have step : ∀ m t update, Agrees m t → Sound codec m update → AddsUp m update →
      Agrees (metricsMachine codec m update).2 (t.post codec update) := by
    intro m t update agrees sound adds
    obtain ⟨free, shows_⟩ := (step_shows_iff decodes agrees sound.1).mpr adds
    exact ⟨step_counting agrees update, shows_, free⟩
  refine Iff.trans ?_ (Machine.seen_congr same step Agrees.alloc sound)
  constructor
  · intro every seen update begins
    have reads := every _ begins
    rw [metricsAfter, Machine.after_append, tallyOf, List.foldl_append] at reads
    exact reads
  · intro every seen begins
    rcases List.eq_nil_or_concat seen with rfl | ⟨seen, update, rfl⟩
    · exact (reads_iff rejects (roundTrips [] List.nil_prefix)).mpr
        ⟨Agrees.alloc.free, Agrees.alloc.shows_⟩
    · rw [List.concat_eq_append] at begins ⊢
      rw [metricsAfter, Machine.after_append, tallyOf, List.foldl_append]
      exact every seen update begins

/-! ### A count on a patched key -/

/-- The BSON bytes of `{rows: 1}` with 64 bits. -/
def oneRow : Bytes := [19, 0, 0, 0, 18, 114, 111, 119, 115, 0, 1, 0, 0, 0, 0, 0, 0, 0, 0]

/-- The BSON bytes of `{rows: 5}` with 32 bits. -/
def fiveRows : Bytes := [15, 0, 0, 0, 16, 114, 111, 119, 115, 0, 5, 0, 0, 0, 0]

/-- The encoder and the decoder on the empty document and on these two. -/
def rowsCodec : BsonCodec where
  encode
    | [] => .ok [5, 0, 0, 0, 0]
    | [(key, .int64 n)] => if key = "rows" ∧ n = 1 then .ok oneRow else .error ""
    | [(key, .int32 n)] => if key = "rows" ∧ n = 5 then .ok fiveRows else .error ""
    | _ => .error ""
  decode bytes :=
    if bytes = [5, 0, 0, 0, 0] then .ok []
    else if bytes = oneRow then .ok [("rows", .int64 1)]
    else if bytes = fiveRows then .ok [("rows", .int32 5)]
    else .error ""

theorem nulFree_rows (value : Bson) : NulFree [("rows", value)] := by
  simp [NulFree, Document.keys]

theorem rowsCodec_rejects (d : Document) (bytes : Bytes)
    (encoded : rowsCodec.encode d = .ok bytes) : NulFree d := by
  unfold rowsCodec at encoded
  simp only at encoded
  split at encoded
  · simp [NulFree, Document.keys]
  · split at encoded
    · next known => exact known.1 ▸ nulFree_rows _
    · cases encoded
  · split at encoded
    · next known => exact known.1 ▸ nulFree_rows _
    · cases encoded
  · cases encoded

theorem rowsCodec_decodes (bytes : Bytes) (d : Document)
    (decoded : rowsCodec.decode bytes = .ok d) : NulFree d := by
  unfold rowsCodec at decoded
  simp only at decoded
  split at decoded
  · cases decoded
    simp [NulFree, Document.keys]
  · split at decoded
    · cases decoded
      exact nulFree_rows _
    · split at decoded
      · cases decoded
        exact nulFree_rows _
      · cases decoded

/-- A stage that counts one row and is destroyed. -/
theorem metrics_tally_one_row :
    (tallyOf rowsCodec [.inc "rows" 1, .destroyExec]).entries "rows" = some 1 ∧
      ∀ seen, seen <+: [.inc "rows" 1, .destroyExec] →
        Reads rowsCodec (metricsAfter rowsCodec seen) (tallyOf rowsCodec seen) := by
  refine ⟨by decide, ?_⟩
  refine (metrics_tally_iff rowsCodec rowsCodec_rejects rowsCodec_decodes
    [.inc "rows" 1, .destroyExec] ?_ ?_).mpr ?_
  · intro seen begins _
    rcases seen with _ | ⟨first, _ | ⟨second, _ | ⟨third, rest⟩⟩⟩
    · exact ⟨_, rfl, rfl⟩
    · obtain ⟨rfl, _⟩ := List.cons_prefix_cons.mp begins
      exact ⟨oneRow, rfl, rfl⟩
    · obtain ⟨rfl, rfl, _⟩ : first = .inc "rows" 1 ∧ second = .destroyExec ∧ True := by
        simpa [List.cons_prefix_cons] using begins
      exact ⟨oneRow, rfl, rfl⟩
    · simp [List.cons_prefix_cons] at begins
  · simp [MetricsUpdate.Integral]
  · intro seen update begins
    rcases seen with _ | ⟨first, _ | ⟨second, rest⟩⟩
    · obtain ⟨rfl, _⟩ := List.cons_prefix_cons.mp begins
      intro _
      simp [metricsAfter, SharedMetrics.alloc]
    · obtain ⟨rfl, rfl⟩ : first = .inc "rows" 1 ∧ update = .destroyExec := by
        simpa [List.cons_prefix_cons] using begins
      exact trivial
    · simp [List.cons_prefix_cons] at begins

/-- A patch stores 32 bits and the stage counts one more: the host reads one. -/
theorem count_restarts_after_patch :
    (metricsAfter rowsCodec [.update (some fiveRows), .inc "rows" 1]).serialize rowsCodec =
        .ok oneRow ∧
      (tallyOf rowsCodec [.update (some fiveRows), .inc "rows" 1]).entries "rows" = some 6 ∧
      ¬ Reads rowsCodec (metricsAfter rowsCodec [.update (some fiveRows), .inc "rows" 1])
        (tallyOf rowsCodec [.update (some fiveRows), .inc "rows" 1]) := by
  have serialized : (metricsAfter rowsCodec [.update (some fiveRows), .inc "rows" 1]).serialize
      rowsCodec = .ok oneRow := by rfl
  have six : (tallyOf rowsCodec [.update (some fiveRows), .inc "rows" 1]).entries "rows" =
      some 6 := by decide
  refine ⟨serialized, six, ?_⟩
  rintro ⟨bytes, d, reads, decoded, shows_⟩
  rw [serialized, Except.ok.injEq] at reads
  subst reads
  have one : rowsCodec.decode oneRow = .ok [("rows", .int64 1)] := rfl
  rw [one, Except.ok.injEq] at decoded
  subst decoded
  have wrong := shows_ "rows"
  rw [six] at wrong
  revert wrong
  decide

end ExtensionSdkMongodb

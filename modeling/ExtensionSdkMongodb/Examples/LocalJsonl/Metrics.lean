import ExtensionSdkMongodb.Examples.LocalJsonl.Stage

/-!
# The metrics of `$readLocalJsonl`

The stage counts the lines that it reads and what becomes of them. A call reads blank lines up to
the first piece of the file that has a result (`linesRead`). After every run the counters are the
tallies of the lines that its calls read (`readLocalJsonl_metrics`). A line that is no text is read
and fails, but is no parse error, and of a line that is too long nothing is counted.
-/

set_option autoImplicit false

namespace ExtensionSdkMongodb.LocalJsonl

open SourceStage

def Line.isBlank : Line → Bool
  | .blank => true
  | _ => false

def Line.isUndecoded : Line → Bool
  | .undecoded _ => true
  | _ => false

def Line.isRejected : Line → Bool
  | .rejected _ => true
  | _ => false

def Line.isDocument : Line → Bool
  | .document _ => true
  | _ => false

/-- Each line is of one kind. -/
theorem length_eq_kinds (lines : List (Bytes × Line)) :
    lines.length = lines.countP (·.2.isBlank) + lines.countP (·.2.isDocument) +
      lines.countP (·.2.isRejected) + lines.countP (·.2.isUndecoded) := by
  induction lines with
  | nil => rfl
  | cons line lines ih =>
      obtain ⟨body, line⟩ := line
      simp only [List.length_cons, List.countP_cons, ih]
      cases line <;> simp [Line.isBlank, Line.isDocument, Line.isRejected, Line.isUndecoded] <;>
        omega

/-! ## Tallies -/

/-- What the counters say after lines were read. -/
structure Tallied (handle : ℕ) (lines : List (Bytes × Line)) (services : Services) : Prop where
  bytes : services.counter handle "bytes_read" = ((lines.map (·.1.length)).sum : ℕ)
  read : services.counter handle "lines_read" = lines.length
  skipped : services.counter handle "empty_lines_skipped" = lines.countP (·.2.isBlank)
  returned : services.counter handle "documents_returned" = lines.countP (·.2.isDocument)
  failed : services.counter handle "parse_errors" = lines.countP (·.2.isRejected)

/-- The size of lines in a file at least. -/
def weight (lines : List (Bytes × Line)) : ℕ := (lines.map fun line => max line.1.length 1).sum

theorem weight_append (first second : List (Bytes × Line)) :
    weight (first ++ second) = weight first + weight second := by
  simp [weight]

theorem sum_le_weight (lines : List (Bytes × Line)) :
    (lines.map (·.1.length)).sum ≤ weight lines ∧ lines.length ≤ weight lines := by
  induction lines with
  | nil => exact ⟨le_rfl, le_rfl⟩
  | cons line lines ih =>
      obtain ⟨bytes, read⟩ := ih
      simp only [weight, List.map_cons, List.sum_cons, List.length_cons] at bytes read ⊢
      omega

theorem clamp_of_small {n : ℤ} (nonneg : 0 ≤ n) (small : n < 2 ^ 63) : clamp n = n := by
  unfold clamp
  omega

/-- A counter far from its bound counts. -/
theorem counter_inc_of_small {ctx : StageContext} {handle : ℕ} (bound : ctx.metrics = some handle)
    (services : Services) (key : String) (delta : Int64)
    (nonneg : 0 ≤ services.counter handle key + delta.toInt)
    (small : services.counter handle key + delta.toInt < 2 ^ 63) (other : String) :
    (services.inc ctx key delta).counter handle other =
      services.counter handle other + if other = key then delta.toInt else 0 := by
  rw [Services.counter_inc bound]
  by_cases here : other = key
  · rw [if_pos here, if_pos here, clamp_of_small nonneg small, here]
  · rw [if_neg here, if_neg here, Int.add_zero]

/-- The counter of a kind of lines. -/
def Line.key : Line → Option String
  | .blank => some "empty_lines_skipped"
  | .undecoded _ => none
  | .rejected _ => some "parse_errors"
  | .document _ => some "documents_returned"

/-- What a line adds to a counter. -/
theorem counter_serve {ctx : StageContext} {handle : ℕ} (bound : ctx.metrics = some handle)
    {services : Services} {body : Bytes} {line : Line}
    (fits : ∀ key, key = "bytes_read" ∨ key = "lines_read" ∨ line.key = some key →
      0 ≤ services.counter handle key ∧
        services.counter handle key + max body.length 1 < 2 ^ 63) (key : String) :
    (line.serve ctx body services).counter handle key =
      services.counter handle key + (if key = "bytes_read" then (body.length : ℤ) else 0) +
        (if key = "lines_read" then 1 else 0) + (if line.key = some key then 1 else 0) := by
  have one : (1 : Int64).toInt = 1 := by decide
  obtain ⟨bytes, bytes'⟩ := fits "bytes_read" (.inl rfl)
  obtain ⟨lines, lines'⟩ := fits "lines_read" (.inr (.inl rfl))
  have length : (Int64.ofNat body.length).toInt = body.length := by
    rw [Int64.toInt_ofNat_of_lt (by omega)]
  have read : ∀ key, ((services.inc ctx "bytes_read" (Int64.ofNat body.length)).inc ctx
      "lines_read" 1).counter handle key = services.counter handle key +
        (if key = "bytes_read" then (body.length : ℤ) else 0) +
          if key = "lines_read" then 1 else 0 := by
    intro key
    have first := counter_inc_of_small bound services "bytes_read" (Int64.ofNat body.length)
      (by omega) (by omega)
    have same : (services.inc ctx "bytes_read" (Int64.ofNat body.length)).counter handle
        "lines_read" = services.counter handle "lines_read" := by
      rw [first, if_neg (by decide), Int.add_zero]
    rw [counter_inc_of_small bound _ "lines_read" 1 (by omega) (by omega), first, length, one]
  -- The counter of the line's kind is none of the two before.
  have third : ∀ kind, line.key = some kind → kind ≠ "bytes_read" → kind ≠ "lines_read" →
      (((services.inc ctx "bytes_read" (Int64.ofNat body.length)).inc ctx "lines_read" 1).inc ctx
        kind 1).counter handle key = services.counter handle key +
          (if key = "bytes_read" then (body.length : ℤ) else 0) +
            (if key = "lines_read" then 1 else 0) + if some kind = some key then 1 else 0 := by
    intro kind counted notBytes notLines
    obtain ⟨low, high⟩ := fits kind (.inr (.inr counted))
    have here := read kind
    rw [if_neg notBytes, if_neg notLines, Int.add_zero, Int.add_zero] at here
    rw [counter_inc_of_small bound _ kind 1 (by omega) (by omega), read, one]
    simp only [Option.some.injEq, eq_comm]
  cases line with
  | blank => exact third _ rfl (by decide) (by decide)
  | undecoded e =>
      simp only [Line.serve, Line.key, read]
      simp
  | rejected e =>
      simp only [Line.serve, Services.counter_log]
      exact third _ rfl (by decide) (by decide)
  | document doc => exact third _ rfl (by decide) (by decide)

/-- **A line is counted.** -/
theorem Tallied.serve {handle : ℕ} {lines : List (Bytes × Line)} {services : Services}
    (tallied : Tallied handle lines services) {ctx : StageContext}
    (bound : ctx.metrics = some handle) (body : Bytes) (line : Line)
    (small : weight (lines ++ [(body, line)]) < 2 ^ 63) :
    Tallied handle (lines ++ [(body, line)]) (line.serve ctx body services) := by
  have heavy : weight lines + max body.length 1 < 2 ^ 63 := by
    rw [weight_append] at small
    exact small
  obtain ⟨bytes, length⟩ := sum_le_weight lines
  have count : ∀ p : Bytes × Line → Bool, lines.countP p ≤ lines.length :=
    fun p => List.countP_le_length
  have fits : ∀ key, key = "bytes_read" ∨ key = "lines_read" ∨ line.key = some key →
      0 ≤ services.counter handle key ∧
        services.counter handle key + max body.length 1 < 2 ^ 63 := by
    rintro key (rfl | rfl | kind)
    · rw [tallied.bytes]
      omega
    · rw [tallied.read]
      omega
    · have blanks := count (·.2.isBlank)
      have documents := count (·.2.isDocument)
      have rejected := count (·.2.isRejected)
      cases line with
      | blank =>
          cases kind
          rw [tallied.skipped]
          omega
      | undecoded e => cases kind
      | rejected e =>
          cases kind
          rw [tallied.failed]
          omega
      | document doc =>
          cases kind
          rw [tallied.returned]
          omega
  constructor
  · rw [counter_serve bound fits, tallied.bytes]
    cases line <;> simp [Line.key]
  · rw [counter_serve bound fits, tallied.read]
    cases line <;> simp [Line.key]
  · rw [counter_serve bound fits, tallied.skipped]
    cases line <;> simp [Line.key, Line.isBlank]
  · rw [counter_serve bound fits, tallied.returned]
    cases line <;> simp [Line.key, Line.isDocument]
  · rw [counter_serve bound fits, tallied.failed]
    cases line <;> simp [Line.key, Line.isRejected]

/-! ## Lines of a file -/

section Files

variable (packages : Packages) (codec : BsonCodec) (cfg : JsonlExtensionConfig)

/-- The lines among the pieces of a file, behind so many others. -/
def linesOf : (lineNo : ℕ) → List Piece → List (Bytes × Line)
  | _, [] => []
  | lineNo, .overlong :: pieces => linesOf lineNo pieces
  | lineNo, .line body :: pieces =>
    (body, readLine packages codec cfg.maxDocumentBytes.toNat (lineNo + 1) body) ::
      linesOf (lineNo + 1) pieces

variable {packages codec cfg}

/-- The lines are no larger than the file. -/
theorem weight_filePieces (maxLineBytes lineNo : ℕ) (bytes : Bytes) :
    weight (linesOf packages codec cfg lineNo (filePieces maxLineBytes bytes)) ≤ bytes.length := by
  induction length : bytes.length using Nat.strong_induction_on generalizing bytes lineNo with
  | _ n ih =>
      subst length
      rcases file_cases maxLineBytes bytes with ⟨body, rest, rfl, absent, short⟩ |
        ⟨chunk, rest, rfl, absent, full⟩ | ⟨absent, short⟩
      · rw [filePieces_line absent short, linesOf]
        have behind := ih rest.length (by simp; omega) (lineNo + 1) rest rfl
        simp only [weight, List.map_cons, List.sum_cons, List.length_append,
          List.length_cons] at behind ⊢
        omega
      · rw [filePieces_long absent full, linesOf]
        have behind := ih rest.length (by simp; omega) lineNo rest rfl
        rw [List.length_append]
        omega
      · rw [filePieces_rest absent short]
        by_cases empty : bytes = []
        · simp [empty, linesOf, weight]
        · have nonempty : 1 ≤ bytes.length := List.length_pos_iff.mpr empty
          simp only [empty, if_false, linesOf, weight, List.map_cons, List.map_nil, List.sum_cons,
            List.sum_nil]
          omega

variable (packages codec cfg) in
/-- The lines that so many calls read of the pieces of a file, behind so many others and with so
many documents left. -/
def linesRead : (left : Option ℕ) → (lineNo : ℕ) → List Piece → (calls : ℕ) → List (Bytes × Line)
  | _, _, _, 0 => []
  | some 0, _, _, _ + 1 => []
  | _, _, [], _ + 1 => []
  | left, lineNo, .overlong :: pieces, calls + 1 => linesRead left lineNo pieces calls
  | left, lineNo, .line body :: pieces, calls + 1 =>
    let line := readLine packages codec cfg.maxDocumentBytes.toNat (lineNo + 1) body
    -- A call goes on behind a line without a result.
    let calls := if line.outcome.isSome then calls else calls + 1
    (body, line) :: linesRead (line.leaves left) (lineNo + 1) pieces calls

section Read

variable {left : Option ℕ} {lineNo : ℕ} {pieces : List Piece}

@[simp] theorem linesRead_none : linesRead packages codec cfg left lineNo pieces 0 = [] := by
  unfold linesRead
  rfl

@[simp] theorem linesRead_full (calls : ℕ) :
    linesRead packages codec cfg (some 0) lineNo pieces calls = [] := by
  cases calls with
  | zero => exact linesRead_none
  | succ calls =>
      unfold linesRead
      rfl

@[simp] theorem linesRead_nil (calls : ℕ) :
    linesRead packages codec cfg left lineNo [] calls = [] := by
  cases calls with
  | zero => exact linesRead_none
  | succ calls =>
      unfold linesRead
      rcases left with _ | _ | left <;> rfl

theorem linesRead_overlong (more : left ≠ some 0) (calls : ℕ) :
    linesRead packages codec cfg left lineNo (.overlong :: pieces) (calls + 1) =
      linesRead packages codec cfg left lineNo pieces calls := by
  rcases left with _ | _ | left
  · rw [linesRead]
    exact more
  · exact absurd rfl more
  · rw [linesRead]
    exact more

theorem linesRead_line (more : left ≠ some 0) {body : Bytes} {line : Line}
    (read : readLine packages codec cfg.maxDocumentBytes.toNat (lineNo + 1) body = line)
    (calls : ℕ) :
    linesRead packages codec cfg left lineNo (.line body :: pieces) (calls + 1) =
      (body, line) :: linesRead packages codec cfg (line.leaves left) (lineNo + 1) pieces
        (if line.outcome.isSome then calls else calls + 1) := by
  subst read
  rcases left with _ | _ | left
  · rw [linesRead]
    exact more
  · exact absurd rfl more
  · rw [linesRead]
    exact more

/-- The lines read are the first ones of the file. -/
theorem linesRead_prefix (left : Option ℕ) (lineNo : ℕ) (pieces : List Piece) (calls : ℕ) :
    linesRead packages codec cfg left lineNo pieces calls <+:
      linesOf packages codec cfg lineNo pieces := by
  induction pieces generalizing left lineNo calls with
  | nil => simp
  | cons piece pieces ih =>
      by_cases more : left = some 0
      · simp [more]
      · cases calls with
        | zero => simp
        | succ calls =>
            cases piece with
            | overlong =>
                rw [linesRead_overlong more, linesOf]
                exact ih _ _ _
            | line body =>
                rw [linesRead_line more rfl, linesOf]
                exact List.cons_prefix_cons.mpr ⟨rfl, ih _ _ _⟩

/-- No more documents are among them than may be returned. -/
theorem linesRead_documents (most lineNo : ℕ) (pieces : List Piece) (calls : ℕ) :
    (linesRead packages codec cfg (some most) lineNo pieces calls).countP (·.2.isDocument) ≤
      most := by
  induction pieces generalizing most lineNo calls with
  | nil => simp
  | cons piece pieces ih =>
      cases most with
      | zero => simp
      | succ most =>
          have more : some (most + 1) ≠ some 0 := by simp
          cases calls with
          | zero => simp
          | succ calls =>
              cases piece with
              | overlong =>
                  rw [linesRead_overlong more]
                  exact ih _ _ _
              | line body =>
                  rw [linesRead_line more rfl, List.countP_cons]
                  generalize readLine packages codec cfg.maxDocumentBytes.toNat (lineNo + 1) body =
                    line
                  cases line with
                  | document doc =>
                      have rest := ih most (lineNo + 1)
                        (if (Line.document doc).outcome.isSome then calls else calls + 1)
                      simpa [Line.isDocument, Line.leaves] using rest
                  | blank => simpa [Line.isDocument, Line.leaves] using ih (most + 1) _ _
                  | undecoded e => simpa [Line.isDocument, Line.leaves] using ih (most + 1) _ _
                  | rejected e => simpa [Line.isDocument, Line.leaves] using ih (most + 1) _ _

end Read

theorem Tallied.log {handle : ℕ} {lines : List (Bytes × Line)} {services : Services}
    (tallied : Tallied handle lines services) (call : LogCall) :
    Tallied handle lines (services.log call) := by
  obtain ⟨bytes, read, skipped, returned, failed⟩ := tallied
  exact ⟨bytes, read, skipped, returned, failed⟩

/-- **Whatever is told, the counters are the tallies of the lines that were read.** -/
theorem tell_tallied {ctx : StageContext} {handle : ℕ} (bound : ctx.metrics = some handle)
    {left : Option ℕ} {lineNo : ℕ} {pieces : List Piece} {lines : List (Bytes × Line)}
    {services : Services} (tallied : Tallied handle lines services)
    (small : weight (lines ++ linesOf packages codec cfg lineNo pieces) < 2 ^ 63) (calls : ℕ) :
    let told := tell packages codec ctx cfg left lineNo pieces services
    Tallied handle (lines ++ linesRead packages codec cfg left lineNo pieces (calls + 1))
      (((told.1[calls]?).map Prod.snd).getD told.2) := by
  induction pieces generalizing left lineNo lines services calls with
  | nil =>
      by_cases more : left = some 0
      · rw [more, tell]
        simpa using tallied.log _
      · rw [tell_nil more]
        simpa using tallied.log _
  | cons piece pieces ih =>
      by_cases more : left = some 0
      · rw [more, tell]
        simpa using tallied.log _
      · cases piece with
        | overlong =>
            rw [tell_overlong more, linesRead_overlong more]
            cases calls with
            | zero => simpa using tallied
            | succ calls => exact ih tallied small calls
        | line body =>
            rw [linesOf, ← List.singleton_append, ← List.append_assoc] at small
            have here := tallied.serve bound body
              (readLine packages codec cfg.maxDocumentBytes.toNat (lineNo + 1) body) (by
                rw [weight_append] at small
                omega)
            rw [tell_line more rfl, linesRead_line more rfl, ← List.singleton_append,
              ← List.append_assoc]
            cases outcome : (readLine packages codec cfg.maxDocumentBytes.toNat (lineNo + 1)
                body).outcome with
            | none => exact ih here small calls
            | some result =>
                cases calls with
                | zero => simpa using here
                | succ calls => exact ih here small calls

end Files

/-! ## Every run -/

/-- The counters of a stage. -/
structure Counters where
  bytesRead : ℤ
  linesRead : ℤ
  emptyLinesSkipped : ℤ
  documentsReturned : ℤ
  parseErrors : ℤ

/-- The counters in a metrics document. -/
def Services.counters (services : Services) (handle : ℕ) : Counters where
  bytesRead := services.counter handle "bytes_read"
  linesRead := services.counter handle "lines_read"
  emptyLinesSkipped := services.counter handle "empty_lines_skipped"
  documentsReturned := services.counter handle "documents_returned"
  parseErrors := services.counter handle "parse_errors"

/-- The counters that lines give. -/
def tally (lines : List (Bytes × Line)) : Counters where
  bytesRead := ((lines.map (·.1.length)).sum : ℕ)
  linesRead := lines.length
  emptyLinesSkipped := lines.countP (·.2.isBlank)
  documentsReturned := lines.countP (·.2.isDocument)
  parseErrors := lines.countP (·.2.isRejected)

theorem Tallied.counters {handle : ℕ} {lines : List (Bytes × Line)} {services : Services}
    (tallied : Tallied handle lines services) :
    Services.counters services handle = tally lines := by
  simp only [Services.counters, tallied.bytes, tallied.read, tallied.skipped, tallied.returned,
    tallied.failed]
  rfl

section Runs

variable (packages : Packages) (codec : BsonCodec) (files : ServerFiles)
variable (extensionOptionsRaw : Option Bytes) (setup : Setup)

/-- The lines of the file that is opened. -/
def fileLines : List (Bytes × Line) :=
  match (openAttempt codec (readLocalJsonl packages codec files extensionOptionsRaw) setup
      .start).1 with
  | .error _ => []
  | .ok state => linesOf packages codec state.cfg 0 (filePieces state.cfg.maxLineBytes.toNat
      (state.reader.reads.filterMap Except.toOption))

/-- The lines of it that so many calls read. -/
def fileLinesRead (calls : ℕ) : List (Bytes × Line) :=
  match (openAttempt codec (readLocalJsonl packages codec files extensionOptionsRaw) setup
      .start).1 with
  | .error _ => []
  | .ok state => linesRead packages codec state.cfg (state.maxDocuments.map UInt64.toNat) 0
      (filePieces state.cfg.maxLineBytes.toNat (state.reader.reads.filterMap Except.toOption)) calls

/-- How many documents may be returned of it. -/
def mostDocuments : Option ℕ :=
  match (openAttempt codec (readLocalJsonl packages codec files extensionOptionsRaw) setup
      .start).1 with
  | .error _ => none
  | .ok state => state.maxDocuments.map UInt64.toNat

variable {packages codec files extensionOptionsRaw setup}

theorem tallied_start (handle : ℕ) : Tallied handle [] .start := ⟨rfl, rfl, rfl, rfl, rfl⟩

theorem Tallied.quiet {handle : ℕ} {lines : List (Bytes × Line)} {services : Services}
    (tallied : Tallied handle lines services) {entered : Services → Services}
    (quiet : Quiet entered) : Tallied handle lines (entered services) := by
  obtain ⟨bytes, read, skipped, returned, failed⟩ := tallied
  exact ⟨(quiet ..).trans bytes, (quiet ..).trans read, (quiet ..).trans skipped,
    (quiet ..).trans returned, (quiet ..).trans failed⟩

/-- After so many pulls the counters are the tallies of the lines that they read. -/
theorem tallied_world
    (regular : ∀ state services, openAttempt codec
      (readLocalJsonl packages codec files extensionOptionsRaw) setup .start =
        (.ok state, services) → Regular state.reader)
    {handle : ℕ} (bound : setup.metrics = some handle) (k : ℕ) :
    Tallied handle (fileLinesRead packages codec files extensionOptionsRaw setup k)
      ((script packages codec files extensionOptionsRaw setup).world .start k) := by
  unfold fileLinesRead script
  rcases openAttempt_cases packages codec files extensionOptionsRaw setup with
    ⟨fault, entered, quiet, opens⟩ | ⟨reader, cfg, maxDocuments, entered, quiet, opens⟩
  · simp only [opens]
    have tallied : Tallied handle [] (entered^[k] .start) := by
      induction k with
      | zero => exact tallied_start handle
      | succ k ih =>
          rw [Function.iterate_succ_apply']
          exact ih.quiet quiet
    cases k with
    | zero => exact tallied
    | succ k => exact tallied
  · obtain ⟨bytes, rfl, small⟩ := regular _ _ (opens .start)
    simp only [opens, bytes_ofBytes]
    cases k with
    | zero =>
        rw [linesRead_none]
        exact tallied_start handle
    | succ k =>
        have metrics : (setup.nextContext none).metrics = some handle := bound
        apply tell_tallied metrics ((tallied_start handle).quiet quiet)
        rw [List.nil_append]
        exact Nat.lt_of_le_of_lt (weight_filePieces ..) small

theorem fileLinesRead_prefix (calls : ℕ) :
    fileLinesRead packages codec files extensionOptionsRaw setup calls <+:
      fileLines packages codec files extensionOptionsRaw setup := by
  unfold fileLinesRead fileLines
  split
  · exact List.prefix_rfl
  · exact linesRead_prefix _ _ _ _

theorem fileLinesRead_documents {most : ℕ}
    (limited : mostDocuments packages codec files extensionOptionsRaw setup = some most)
    (calls : ℕ) :
    (fileLinesRead packages codec files extensionOptionsRaw setup calls).countP (·.2.isDocument) ≤
      most := by
  unfold mostDocuments at limited
  unfold fileLinesRead
  split at limited
  · cases limited
  · rw [limited]
    exact linesRead_documents _ _ _ _

end Runs

/-- **The books of `$readLocalJsonl` balance after every run**: the counters are the tallies of the
lines that its calls read, which are the first of the file, and no more documents are returned than
the query allows. -/
theorem readLocalJsonl_metrics (packages : Packages) (codec : BsonCodec) (files : ServerFiles)
    (extensionOptionsRaw : Option Bytes) (setup : Setup)
    (regular : ∀ state services, openAttempt codec
      (readLocalJsonl packages codec files extensionOptionsRaw) setup .start =
        (.ok state, services) → Regular state.reader)
    {handle : ℕ} (bound : setup.metrics = some handle) (source : Option Upstream)
    (frames : List Frame) :
    let stage := readLocalJsonl packages codec files extensionOptionsRaw
    let story := script packages codec files extensionOptionsRaw setup
    let last := (execGetNext codec stage.sdkSourceOps.toSourceOps).after
      (setup.compiled ⟨.empty, .start⟩ source) frames
    let counters := Services.counters last.hooks.world handle
    RunsAs (some true) source (fun ctxs => story.pulls codec ctxs.length)
        (fun ctxs =>
          tally (fileLinesRead packages codec files extensionOptionsRaw setup ctxs.length))
        frames ((execGetNext codec stage.sdkSourceOps.toSourceOps).outputs
          (setup.compiled ⟨.empty, .start⟩ source) frames) counters last.pulls ∧
      ∃ lines, lines <+: fileLines packages codec files extensionOptionsRaw setup ∧
        counters = tally lines ∧
        counters.linesRead = counters.emptyLinesSkipped + counters.documentsReturned +
          counters.parseErrors + lines.countP (·.2.isUndecoded) ∧
        ∀ most, mostDocuments packages codec files extensionOptionsRaw setup = some most →
          counters.documentsReturned ≤ most := by
  intro stage story last counters
  have runs := (Script.runs codec stage (fun _ _ => rfl) setup .start (tells_script regular) source
    frames).map (fun services => Services.counters services handle) (fun _ => rfl)
      fun ctxs => (tallied_world regular bound ctxs.length).counters
  refine ⟨runs, ?_⟩
  obtain ⟨ctxs, counted⟩ := runs.last
  refine ⟨_, fileLinesRead_prefix ctxs.length, counted, ?_, ?_⟩
  · have read : counters = _ := counted
    rw [read]
    simp only [tally]
    rw [length_eq_kinds]
    push_cast
    rfl
  · intro most limited
    have read : counters = _ := counted
    rw [read]
    simp only [tally]
    exact_mod_cast fileLinesRead_documents limited ctxs.length

theorem tally_oneFile :
    tally (fileLinesRead onePackages oneCodec oneFile none oneSetup 2) =
      { bytesRead := 2, linesRead := 1, emptyLinesSkipped := 0, documentsReturned := 1,
        parseErrors := 0 } := by
  have pieces : filePieces demoExtensionConfigFallback.maxLineBytes.toNat [123, 125, 10] =
      [.line [123, 125]] := by decide +kernel
  have text : fromUtf8 [123, 125] = .ok "\x7b\x7d" := by decide +kernel
  have trimmed : trim "\x7b\x7d" = "\x7b\x7d" := by decide
  have read : readLine onePackages oneCodec demoExtensionConfigFallback.maxDocumentBytes.toNat 1
      [123, 125] = .document [] := by
    simp only [readLine, text, trimmed]
    rfl
  rw [fileLinesRead, openAttempt_oneFile]
  simp only [bytes_ofBytes, pieces]
  rw [linesRead_line (by simp) read, linesRead_nil]
  rfl

/-- Two calls on a file with one line: the document, and the end. -/
theorem readLocalJsonl_metrics_oneFile :
    let stage := readLocalJsonl onePackages oneCodec oneFile none
    let last := (execGetNext oneCodec stage.sdkSourceOps.toSourceOps).after
      (oneSetup.compiled ⟨.empty, .start⟩ none) [.blank, .blank]
    Services.counters last.hooks.world 0 =
      { bytesRead := 2, linesRead := 1, emptyLinesSkipped := 0, documentsReturned := 1,
        parseErrors := 0 } := by
  rw [← tally_oneFile]
  obtain ⟨runs, -⟩ := readLocalJsonl_metrics onePackages oneCodec oneFile none oneSetup
    regular_oneFile rfl none [.blank, .blank]
  exact (runs.generates (.inr ⟨rfl, rfl⟩)).2.1

end ExtensionSdkMongodb.LocalJsonl

import ExtensionSdkMongodb.Sdk.StageContext
import ExtensionSdkMongodb.SourceStage.Export
import Mathlib.Data.Nat.Fib.Basic

/-!
# The stage `$fibonacci`

The stage emits the first numbers of the Fibonacci sequence, at most 10 000 of them. Its state holds
two numbers of the sequence in 64 bits and adds them with saturation, so from the first number that
does not fit on it holds the largest that fits (`fibState_next`). `fibonacci_runs` says what the
host sees of the stage in every run.
-/

set_option autoImplicit false

namespace ExtensionSdkMongodb.Fibonacci

open SourceStage

/-- `FibArgs`. -/
structure FibArgs where
  n : ℕ

/-- `FibState`. -/
structure FibState where
  i : ℕ
  n : ℕ
  a : Int64
  b : Int64
  deriving DecidableEq, Repr

/-- `Fibonacci::parse`. The deserializer of `FibonacciArgs` is a parameter. -/
def parse (fibonacciArgs : Document → Except String UInt64) (args : Document) :
    HookOutcome ExtensionError FibArgs :=
  match fibonacciArgs args with
  | .error e => .error (.error (.failedToParse e))
  | .ok n => .ok ⟨min n.toNat 10000⟩

/-- `Fibonacci::open`. -/
def openArgs (args : FibArgs) : FibState :=
  if args.n = 0 then ⟨0, 0, 0, 0⟩ else ⟨0, args.n, 0, 1⟩

/-- `Fibonacci::next`. -/
def next (state : FibState) (ctx : StageContext) (services : Services) :
    (HookOutcome ExtensionError Next × FibState) × Services :=
  if state.n ≤ state.i then ((.ok .eof, state), services)
  else
    let out : Document := [("i", .int64 (Int64.ofNat state.i)), ("value", .int64 state.a)]
    let nb := saturatingAdd state.a state.b
    ((.ok (.advanced out none), { state with i := state.i + 1, a := state.b, b := nb }),
      services.inc ctx "rows_out" 1)

/-- The implementation of `SourceStage`. -/
def fibonacci (fibonacciArgs : Document → Except String UInt64) :
    SourceStageImpl FibArgs FibState Services where
  name := "$fibonacci"
  parse := parse fibonacciArgs
  openArgs := fun args _ services => (.ok (openArgs args), services)
  next := next
  dropInPlace := fun _ services => (some (), services)

/-! ## The sequence -/

/-- A number of the sequence, or the largest of 64 bits. -/
def fib (k : ℕ) : Int64 := Int64.ofInt (min (Nat.fib k : ℤ) (2 ^ 63 - 1))

theorem fib_toInt (k : ℕ) : (fib k).toInt = min (Nat.fib k : ℤ) (2 ^ 63 - 1) := by
  unfold fib
  rw [Int64.toInt_ofInt_of_le] <;> omega

/-- Saturated numbers of the sequence add up to saturated ones. -/
theorem saturatingAdd_fib (k : ℕ) : saturatingAdd (fib k) (fib (k + 1)) = fib (k + 2) := by
  apply Int64.toInt_inj.mp
  rw [saturatingAdd_toInt, fib_toInt, fib_toInt, fib_toInt, Nat.fib_add_two, clamp]
  push_cast
  omega

/-- The state before a row. -/
def fibState (n k : ℕ) : FibState := ⟨k, n, fib k, fib (k + 1)⟩

/-- The document of a row. -/
def row (k : ℕ) : Document := [("i", .int64 (Int64.ofNat k)), ("value", .int64 (fib k))]

theorem fibState_next {n k : ℕ} (lt : k < n) (ctx : StageContext) (services : Services) :
    next (fibState n k) ctx services =
      ((.ok (.advanced (row k) none), fibState n (k + 1)), services.inc ctx "rows_out" 1) := by
  have working : ¬ n ≤ k := by omega
  simp only [next, fibState, row, working, if_false, saturatingAdd_fib]

theorem next_end {state : FibState} (ended : state.n ≤ state.i) (ctx : StageContext)
    (services : Services) : next state ctx services = ((.ok .eof, state), services) := by
  simp only [next, ended, if_true]

/-! ## Runs -/

section Runs

variable (codec : BsonCodec) (fibonacciArgs : Document → Except String UInt64) (setup : Setup)

/-- What is counted under `rows_out`, if the stage has metrics. -/
def rowsOut (services : Services) : Option ℤ :=
  setup.metrics.map fun handle => services.counter handle "rows_out"

/-- The state before row `k` of `n`. -/
def stateAt (n k : ℕ) : FibState := if n = 0 then openArgs ⟨0⟩ else fibState n k

/-- A cursor that has the state, or opens it, and leaves the world as it is. -/
def HasState (d : Document) (s : FibState) (c : Cursor FibState Services) : Prop :=
  c.finished = false ∧
    c.opened (fibonacci fibonacciArgs) setup d = (.ok s, ⟨some s, false, c.world⟩)

/-- The cursor after `k` pulls: it is before row `k` and counted the rows, or it reported its
end. -/
inductive AtRow (d : Document) (n k : ℕ) (c : Cursor FibState Services) : Prop where
  | working (le : k ≤ n) (has : HasState fibonacciArgs setup d (stateAt n k) c)
      (counted : rowsOut setup c.world = setup.metrics.map fun _ => (k : ℤ))
  | ended (lt : n < k) (finished : c.finished = true)
      (counted : rowsOut setup c.world = setup.metrics.map fun _ => (n : ℤ))

/-- What the `k`-th pull yields. -/
def pulled (n k : ℕ) : Except Status Contents :=
  if k < n then Cursor.rowContents codec (row k) none else .ok endOfStream

theorem rowsOut_inc {services : Services} {k : ℕ} (le : k ≤ 10000) (queryCtx : Option ℕ)
    (counted : rowsOut setup services = setup.metrics.map fun _ => (k : ℤ)) :
    rowsOut setup (services.inc (setup.nextContext queryCtx) "rows_out" 1) =
      setup.metrics.map fun _ => ((k + 1 : ℕ) : ℤ) := by
  unfold rowsOut at counted ⊢
  cases bound : setup.metrics with
  | none => rfl
  | some handle =>
      rw [bound] at counted
      simp only [Option.map_some, Option.some.injEq] at counted ⊢
      have metrics : (setup.nextContext queryCtx).metrics = some handle := bound
      have one : (1 : Int64).toInt = 1 := by decide
      rw [Services.counter_inc metrics, if_pos rfl, counted, one, clamp]
      push_cast
      omega

variable {codec fibonacciArgs setup}

/-- **Every pull follows the sequence.** -/
theorem AtRow.pull {d : Document} (decoded : codec.decode setup.args = .ok d) {n k : ℕ}
    (most : n ≤ 10000) {c : Cursor FibState Services} (here : AtRow fibonacciArgs setup d n k c)
    (queryCtx : Option ℕ) :
    (c.pull codec (fibonacci fibonacciArgs) setup queryCtx).1 = pulled codec n k ∧
      AtRow fibonacciArgs setup d n (k + 1)
        (c.pull codec (fibonacci fibonacciArgs) setup queryCtx).2 := by
  cases here with
  | ended lt finished counted =>
      rw [Cursor.pull_of_finished finished, pulled, if_neg (by omega)]
      exact ⟨rfl, .ended (by omega) finished counted⟩
  | working le has counted =>
      rw [Cursor.pull_of_opened has.1 decoded has.2]
      by_cases lt : k < n
      · have nonzero : n ≠ 0 := by omega
        have state : ∀ j, stateAt n j = fibState n j := fun j => if_neg nonzero
        simp only [fibonacci, state, fibState_next lt, Cursor.deliver_advanced, pulled, lt, if_true]
        refine ⟨trivial, .working lt ⟨rfl, ?_⟩ (rowsOut_inc setup (by omega) queryCtx counted)⟩
        rw [state]
        rfl
      · obtain rfl : k = n := by omega
        have ended : (stateAt k k).n ≤ (stateAt k k).i := by
          unfold stateAt
          split
          · exact le_rfl
          · exact le_rfl
        simp only [fibonacci, next_end ended, pulled, lt, if_false]
        exact ⟨rfl, .ended (by omega) rfl counted⟩

/-- A fresh cursor is before the first row. -/
theorem atRow_start {d : Document} {n : UInt64} (read : fibonacciArgs d = .ok n) :
    AtRow fibonacciArgs setup d (min n.toNat 10000) 0 (.start .start) := by
  refine .working (Nat.zero_le _) ⟨rfl, ?_⟩ ?_
  · have first : openArgs ⟨min n.toNat 10000⟩ = stateAt (min n.toNat 10000) 0 := by
      unfold stateAt openArgs
      split
      · rfl
      · rfl
    simp only [Cursor.opened, Cursor.start, fibonacci, parse, read, first]
  · unfold rowsOut
    cases setup.metrics <;> rfl

/-- Without arguments that can be read every pull fails alike. -/
theorem pull_unread {e : String} (failed : (codec.decode setup.args >>= fibonacciArgs) = .error e)
    (queryCtx : Option ℕ) :
    (Cursor.start .start).pull codec (fibonacci fibonacciArgs) setup queryCtx =
      (.error (ExtensionError.failedToParse e).intoRawStatus, Cursor.start .start) := by
  cases decoded : codec.decode setup.args with
  | error e' =>
      rw [decoded] at failed
      cases failed
      simp only [Cursor.pull, Cursor.start, Bool.false_eq_true, if_false, Cursor.advance, decoded]
      rfl
  | ok d =>
      rw [decoded] at failed
      have unread : fibonacciArgs d = .error e := failed
      simp only [Cursor.pull, Cursor.start, Bool.false_eq_true, if_false, Cursor.advance, decoded,
        Cursor.opened, fibonacci, parse, unread]
      rfl

end Runs

/-- What the pulls of `$fibonacci` yield, in order. -/
def pulls (codec : BsonCodec) (fibonacciArgs : Document → Except String UInt64) (args : Bytes)
    (count : ℕ) : List (Except Status Contents) :=
  match codec.decode args >>= fibonacciArgs with
  | .error e => .replicate count (.error (ExtensionError.failedToParse e).intoRawStatus)
  | .ok n => (List.range count).map (pulled codec (min n.toNat 10000))

/-- How many rows `$fibonacci` counts in as many pulls. -/
def counts (codec : BsonCodec) (fibonacciArgs : Document → Except String UInt64) (args : Bytes)
    (count : ℕ) : ℤ :=
  match codec.decode args >>= fibonacciArgs with
  | .error _ => 0
  | .ok n => (min count (min n.toNat 10000) : ℕ)

/-- **The runs of `$fibonacci`**, for every script of an upstream and every number of calls: the
generator shows the rows of the sequence in order and then its end, and counts the rows. Without
arguments that can be read it shows the error forever. -/
theorem fibonacci_runs (codec : BsonCodec) (fibonacciArgs : Document → Except String UInt64)
    (setup : Setup) (source : Option Upstream) (frames : List Frame) :
    RunsAs (some true) source
      (fun ctxs => pulls codec fibonacciArgs setup.args ctxs.length)
      (fun ctxs => setup.metrics.map fun _ => counts codec fibonacciArgs setup.args ctxs.length)
      frames
      ((execGetNext codec (fibonacci fibonacciArgs).sdkSourceOps.toSourceOps).outputs
        (setup.compiled ⟨.empty, .start⟩ source) frames)
      (rowsOut setup ((execGetNext codec (fibonacci fibonacciArgs).sdkSourceOps.toSourceOps).after
        (setup.compiled ⟨.empty, .start⟩ source) frames).hooks.world)
      ((execGetNext codec (fibonacci fibonacciArgs).sdkSourceOps.toSourceOps).after
        (setup.compiled ⟨.empty, .start⟩ source) frames).pulls := by
  apply (runsAs_cursor codec (fibonacci fibonacciArgs) (fun _ _ => rfl) setup .start source
    frames).map (rowsOut setup)
  · intro ctxs
    unfold pulls
    cases args : codec.decode setup.args >>= fibonacciArgs with
    | error e => exact (Machine.run_of_fixed (pull_unread args) ctxs).1
    | ok n =>
        obtain ⟨d, decoded, read⟩ := bind_ok.mp args
        have start : AtRow fibonacciArgs setup d (min n.toNat 10000) 0 (.start .start) :=
          atRow_start read
        rw [List.range_eq_range']
        exact Machine.outputs_of_schedule
          (fun k c queryCtx here => here.pull decoded (Nat.min_le_right ..) queryCtx) start ctxs
  · intro ctxs
    unfold counts
    cases args : codec.decode setup.args >>= fibonacciArgs with
    | error e =>
        rw [(Machine.run_of_fixed (pull_unread args) ctxs).2]
        unfold rowsOut
        cases setup.metrics <;> rfl
    | ok n =>
        obtain ⟨d, decoded, read⟩ := bind_ok.mp args
        have start : AtRow fibonacciArgs setup d (min n.toNat 10000) 0 (.start .start) :=
          atRow_start read
        have step : ∀ k c queryCtx, AtRow fibonacciArgs setup d (min n.toNat 10000) k c →
            AtRow fibonacciArgs setup d (min n.toNat 10000) (k + 1)
              (c.pull codec (fibonacci fibonacciArgs) setup queryCtx).2 :=
          fun k c queryCtx here => (here.pull decoded (Nat.min_le_right ..) queryCtx).2
        have last := Machine.after_of_schedule step start ctxs
        rw [Nat.zero_add] at last
        cases last with
        | working le _ counted => simp only [counted, Nat.min_eq_left le]
        | ended lt _ counted => simp only [counted, Nat.min_eq_right lt.le]

end ExtensionSdkMongodb.Fibonacci

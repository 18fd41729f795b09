import ExtensionSdkMongodb.Library.Machine
import Mathlib.Logic.Function.Iterate

/-!
# Failover over a list of endpoints

A failover tries endpoints in turn. Before an attempt it asks for a permit, after the answer it
asks whether it is interrupted, and only then it looks at the answer: the answer settles the
result or is passed over. The outside answers every question by all that has happened so far.

`run_contract` says what a failover does whatever the outside answers. A reader that loads its
rows by a failover on demand is the machine `pull`; `pull_emits` says that its rows are the rows
of one load.
-/

set_option autoImplicit false

namespace Failover

variable {α τ ρ ε κ β : Type}

/-! ## Steps -/

/-- A step of a failover, with what the outside answered. -/
inductive Step (α τ ρ ε : Type) where
  /-- The check before an attempt; it grants what the attempt needs. -/
  | permit (outcome : Except ε τ)
  | attempt (endpoint : α) (grant : τ) (answer : ρ)
  /-- The check after an answer. -/
  | interrupt (outcome : Except ε Unit)

inductive Kind where
  | permit
  | attempt
  | interrupt
  deriving DecidableEq

def Step.kind : Step α τ ρ ε → Kind
  | .permit _ => .permit
  | .attempt .. => .attempt
  | .interrupt _ => .interrupt

/-- The error of a failing check. -/
def Step.failure : Step α τ ρ ε → Option ε
  | .permit (.error e) => some e
  | .interrupt (.error e) => some e
  | .permit (.ok _) | .interrupt (.ok _) | .attempt .. => none

def Step.answered : Step α τ ρ ε → Option (α × ρ)
  | .attempt endpoint _ answer => some (endpoint, answer)
  | .permit _ | .interrupt _ => none

/-- The endpoints contacted and their answers. -/
def answers (trace : List (Step α τ ρ ε)) : List (α × ρ) := trace.filterMap Step.answered

/-- The endpoints contacted. -/
def contacted (trace : List (Step α τ ρ ε)) : List α := (answers trace).map Prod.fst

/-- What the outside answers after what has happened so far. -/
structure Outside (α τ ρ ε : Type) where
  permit : List (Step α τ ρ ε) → Except ε τ
  attempt : List (Step α τ ρ ε) → α → τ → ρ
  interrupt : List (Step α τ ρ ε) → Except ε Unit

/-! ## The loop -/

/-- What an answer means: it settles the result, or is passed over for a reason. -/
inductive Verdict (ε κ β : Type) where
  | settled (result : Except ε β)
  | passed (reason : κ)

/-- How answers are judged, and the error when all have been passed over. -/
structure Policy (α ρ ε κ β : Type) where
  verdict : α → ρ → Verdict ε κ β
  exhausted : List κ → ε

/-- The failover from some reasons and a log of the steps so far. -/
def run (o : Outside α τ ρ ε) (p : Policy α ρ ε κ β) :
    List α → List κ → List (Step α τ ρ ε) → Except ε β × List (Step α τ ρ ε)
  | [], reasons, log => (.error (p.exhausted reasons), log)
  | endpoint :: rest, reasons, log =>
    match o.permit log with
    | .error e => (.error e, log ++ [.permit (.error e)])
    | .ok grant =>
      let log := log ++ [.permit (.ok grant)]
      let answer := o.attempt log endpoint grant
      let log := log ++ [.attempt endpoint grant answer]
      match o.interrupt log with
      | .error e => (.error e, log ++ [.interrupt (.error e)])
      | .ok () =>
        let log := log ++ [.interrupt (.ok ())]
        match p.verdict endpoint answer with
        | .settled result => (result, log)
        | .passed reason => run o p rest (reasons ++ [reason]) log

/-! ## The contract -/

section Contract

variable (p : Policy α ρ ε κ β)

/-- The answer is passed over. -/
def Policy.Passes (answer : α × ρ) : Prop := ∃ reason, p.verdict answer.1 answer.2 = .passed reason

/-- The reason why an answer is passed over. -/
def Policy.reason (answer : α × ρ) : Option κ :=
  match p.verdict answer.1 answer.2 with
  | .settled _ => none
  | .passed reason => some reason

/-- The result when no check fails: the first answer not passed over settles it, and without one
every endpoint has been contacted. -/
inductive Decided (endpoints : List α) (reasons : List κ) (trace : List (Step α τ ρ ε))
    (result : Except ε β) : Prop where
  | settled (earlier : List (α × ρ)) (endpoint : α) (answer : ρ)
      (asked : answers trace = earlier ++ [(endpoint, answer)])
      (passes : ∀ a ∈ earlier, p.Passes a) (verdict : p.verdict endpoint answer = .settled result)
  | exhausted (all : contacted trace = endpoints) (passes : ∀ a ∈ answers trace, p.Passes a)
      (error : result = .error (p.exhausted (reasons ++ (answers trace).filterMap p.reason)))

/-- What a failover does. -/
structure Contract (endpoints : List α) (reasons : List κ) (trace : List (Step α τ ρ ε))
    (result : Except ε β) : Prop where
  /-- The endpoints are contacted in their order, each entry at most once. -/
  inOrder : contacted trace <+: endpoints
  /-- Checks and attempts alternate: one check before an attempt and one after it. -/
  alternates : ∃ n, trace.map Step.kind <+:
    (List.replicate n [Kind.permit, .attempt, .interrupt]).flatten
  /-- An attempt has what the check right before it granted, and a check follows it. -/
  guarded : ∀ before endpoint grant answer after,
    trace = before ++ .attempt endpoint grant answer :: after →
      (∃ earlier, before = earlier ++ [.permit (.ok grant)]) ∧
      ∃ outcome rest, after = .interrupt outcome :: rest
  /-- A failing check is the last step, and its error is the result. -/
  stops : ∀ before step after e, trace = before ++ step :: after → step.failure = some e →
    after = [] ∧ result = .error e
  /-- Without a failing check the answers decide the result. -/
  decides : (∀ step ∈ trace, step.failure = none) → Decided p endpoints reasons trace result

/-! ### Rounds -/

/-- The steps of an attempt with the checks around it. -/
def round (endpoint : α) (grant : τ) (answer : ρ) (outcome : Except ε Unit) :
    List (Step α τ ρ ε) :=
  [.permit (.ok grant), .attempt endpoint grant answer, .interrupt outcome]

section Round

variable (endpoint : α) (grant : τ) (answer : ρ) (outcome : Except ε Unit)

@[simp] theorem answers_round (trace : List (Step α τ ρ ε)) :
    answers (round endpoint grant answer outcome ++ trace) = (endpoint, answer) :: answers trace :=
  rfl

@[simp] theorem contacted_round (trace : List (Step α τ ρ ε)) :
    contacted (round endpoint grant answer outcome ++ trace) = endpoint :: contacted trace := rfl

variable {endpoint grant answer outcome}

/-- Where a step of a round and what follows it can be. -/
theorem split_round {trace before after : List (Step α τ ρ ε)} {step : Step α τ ρ ε}
    (split : round endpoint grant answer outcome ++ trace = before ++ step :: after) :
    step = .permit (.ok grant) ∨
    (before = [.permit (.ok grant)] ∧ step = .attempt endpoint grant answer ∧
      after = .interrupt outcome :: trace) ∨
    (step = .interrupt outcome ∧ after = trace) ∨
    ∃ earlier, before = round endpoint grant answer outcome ++ earlier ∧
      trace = earlier ++ step :: after := by
  rcases before with _ | ⟨first, _ | ⟨second, _ | ⟨third, earlier⟩⟩⟩
  · simp only [round, List.cons_append, List.nil_append, List.cons.injEq] at split
    exact .inl split.1.symm
  · simp only [round, List.cons_append, List.nil_append, List.cons.injEq] at split
    obtain ⟨rfl, rfl, rfl⟩ := split
    exact .inr (.inl ⟨rfl, rfl, rfl⟩)
  · simp only [round, List.cons_append, List.nil_append, List.cons.injEq] at split
    obtain ⟨_, _, rfl, rfl⟩ := split
    exact .inr (.inr (.inl ⟨rfl, rfl⟩))
  · simp only [round, List.cons_append, List.nil_append, List.cons.injEq] at split
    obtain ⟨rfl, rfl, rfl, rfl⟩ := split
    exact .inr (.inr (.inr ⟨earlier, rfl, rfl⟩))

/-- A round leaves the alternation of checks and attempts as it is. -/
theorem alternates_round {trace : List (Step α τ ρ ε)}
    (alternates : ∃ n, trace.map Step.kind <+:
      (List.replicate n [Kind.permit, .attempt, .interrupt]).flatten) :
    ∃ n, (round endpoint grant answer outcome ++ trace).map Step.kind <+:
      (List.replicate n [Kind.permit, .attempt, .interrupt]).flatten := by
  obtain ⟨n, start⟩ := alternates
  refine ⟨n + 1, ?_⟩
  rw [List.map_append, List.replicate_succ, List.flatten_cons]
  exact (List.prefix_append_right_inj _).mpr start

/-- An attempt in a round and what follows it has its checks around it. -/
theorem guarded_round {trace : List (Step α τ ρ ε)}
    (guarded : ∀ before e g a after, trace = before ++ .attempt e g a :: after →
      (∃ earlier, before = earlier ++ [.permit (.ok g)]) ∧
      ∃ outcome rest, after = .interrupt outcome :: rest)
    (before : List (Step α τ ρ ε)) (e : α) (g : τ) (a : ρ) (after : List (Step α τ ρ ε))
    (split : round endpoint grant answer outcome ++ trace = before ++ .attempt e g a :: after) :
    (∃ earlier, before = earlier ++ [.permit (.ok g)]) ∧
      ∃ outcome rest, after = .interrupt outcome :: rest := by
  rcases split_round split with permit | ⟨rfl, same, rfl⟩ | ⟨interrupt, _⟩ | ⟨earlier, rfl, later⟩
  · cases permit
  · cases same
    exact ⟨⟨[], rfl⟩, outcome, trace, rfl⟩
  · cases interrupt
  · obtain ⟨⟨first, rfl⟩, follows⟩ := guarded _ _ _ _ _ later
    exact ⟨⟨_ ++ first, by rw [List.append_assoc]⟩, follows⟩

/-- A round alone has the checks around its attempt. -/
theorem guarded_round_alone (before : List (Step α τ ρ ε)) (e : α) (g : τ) (a : ρ)
    (after : List (Step α τ ρ ε))
    (split : round endpoint grant answer outcome = before ++ .attempt e g a :: after) :
    (∃ earlier, before = earlier ++ [.permit (.ok g)]) ∧
      ∃ outcome rest, after = .interrupt outcome :: rest :=
  guarded_round (fun _ _ _ _ _ none => by simp at none) _ _ _ _ _
    ((List.append_nil _).trans split)

end Round

/-! ### One case per end of the loop -/

variable {endpoint : α} {grant : τ} {answer : ρ} {rest : List α} {reasons : List κ}
  {trace : List (Step α τ ρ ε)} {result : Except ε β}

theorem contract_exhausted (reasons : List κ) :
    Contract p ([] : List α) reasons ([] : List (Step α τ ρ ε)) (.error (p.exhausted reasons)) where
  inOrder := List.prefix_rfl
  alternates := ⟨0, List.prefix_rfl⟩
  guarded _ _ _ _ _ split := by simp at split
  stops _ _ _ _ split := by simp at split
  decides _ := .exhausted rfl (by simp [answers]) (by simp [answers])

theorem contract_refused (e : ε) :
    Contract p (endpoint :: rest) reasons ([.permit (.error e)] : List (Step α τ ρ ε))
      (.error e) where
  inOrder := List.nil_prefix
  alternates := ⟨1, by simp [Step.kind]⟩
  guarded before _ _ _ _ split := by
    rcases List.singleton_eq_append_iff.mp split with ⟨_, same⟩ | ⟨_, same⟩ <;> simp at same
  stops before step after failure split failed := by
    rcases List.singleton_eq_append_iff.mp split with ⟨_, same⟩ | ⟨_, same⟩
    · cases same
      cases failed
      exact ⟨rfl, rfl⟩
    · cases same
  decides passed := by simp [Step.failure] at passed

/-- A round whose second check fails ends the failover. -/
theorem contract_interrupted (e : ε) :
    Contract p (endpoint :: rest) reasons (round endpoint grant answer (.error e))
      (.error e) where
  inOrder := ⟨rest, rfl⟩
  alternates := ⟨1, by simp [round, Step.kind]⟩
  guarded := guarded_round_alone
  stops before step after failure split failed := by
    rw [← List.append_nil (round _ _ _ _)] at split
    rcases split_round split with rfl | ⟨_, rfl, _⟩ | ⟨rfl, rfl⟩ | ⟨earlier, _, split⟩
    · cases failed
    · cases failed
    · cases failed
      exact ⟨rfl, rfl⟩
    · simp at split
  decides passed := by simp [round, Step.failure] at passed

/-- A round whose answer settles the result. -/
theorem contract_settled (verdict : p.verdict endpoint answer = .settled result) :
    Contract p (endpoint :: rest) reasons
      (round endpoint grant answer (.ok ()) : List (Step α τ ρ ε)) result where
  inOrder := ⟨rest, rfl⟩
  alternates := ⟨1, by simp [round, Step.kind]⟩
  guarded := guarded_round_alone
  stops before step after failure split failed := by
    rw [← List.append_nil (round _ _ _ _)] at split
    rcases split_round split with rfl | ⟨_, rfl, _⟩ | ⟨rfl, _⟩ | ⟨earlier, _, split⟩
    · cases failed
    · cases failed
    · cases failed
    · simp at split
  decides _ := .settled [] endpoint answer rfl (by simp) verdict

/-- A round whose answer is passed over, and the failover over the rest. -/
theorem contract_passed {reason : κ} (verdict : p.verdict endpoint answer = .passed reason)
    (contract : Contract p rest (reasons ++ [reason]) trace result) :
    Contract p (endpoint :: rest) reasons (round endpoint grant answer (.ok ()) ++ trace)
      result where
  inOrder := by
    rw [contacted_round]
    exact List.cons_prefix_cons.mpr ⟨rfl, contract.inOrder⟩
  alternates := alternates_round contract.alternates
  guarded := guarded_round contract.guarded
  stops before step after failure split failed := by
    rcases split_round split with rfl | ⟨_, rfl, _⟩ | ⟨rfl, _⟩ | ⟨earlier, _, split⟩
    · cases failed
    · cases failed
    · cases failed
    · exact contract.stops earlier step after failure split failed
  decides passed := by
    have passes : p.Passes (endpoint, answer) := ⟨reason, verdict⟩
    have why : p.reason (endpoint, answer) = some reason := by simp [Policy.reason, verdict]
    rcases contract.decides fun step member => passed step (List.mem_append_right _ member) with
      ⟨earlier, last, lastAnswer, asked, earlierPass, settled⟩ | ⟨all, allPass, error⟩
    · refine .settled ((endpoint, answer) :: earlier) last lastAnswer ?_ ?_ settled
      · rw [answers_round, asked, List.cons_append]
      · exact List.forall_mem_cons.mpr ⟨passes, earlierPass⟩
    · refine .exhausted ?_ ?_ ?_
      · rw [contacted_round, all]
      · rw [answers_round]
        exact List.forall_mem_cons.mpr ⟨passes, allPass⟩
      · rw [error, answers_round, List.filterMap_cons_some why, List.append_assoc]
        rfl

/-- **A failover keeps its contract**, whatever the outside answers. -/
theorem run_contract (o : Outside α τ ρ ε) (endpoints : List α) (reasons : List κ)
    (log : List (Step α τ ρ ε)) :
    ∃ trace, (run o p endpoints reasons log).2 = log ++ trace ∧
      Contract p endpoints reasons trace (run o p endpoints reasons log).1 := by
  induction endpoints generalizing reasons log with
  | nil => exact ⟨[], (List.append_nil log).symm, contract_exhausted p reasons⟩
  | cons endpoint rest ih =>
      unfold run
      split
      · next e refused => exact ⟨_, rfl, contract_refused p e⟩
      · next grant granted =>
        dsimp only
        generalize o.attempt (log ++ [.permit (.ok grant)]) endpoint grant = answer
        split
        · next e interrupted =>
          refine ⟨round endpoint grant answer (.error e), ?_, contract_interrupted p e⟩
          simp [round]
        · split
          · next result verdict =>
            refine ⟨round endpoint grant answer (.ok ()), ?_, contract_settled p verdict⟩
            simp [round]
          · next reason verdict =>
            obtain ⟨trace, grown, contract⟩ := ih (reasons ++ [reason])
              (log ++ [.permit (.ok grant)] ++ [.attempt endpoint grant answer] ++
                [.interrupt (.ok ())])
            refine ⟨round endpoint grant answer (.ok ()) ++ trace, ?_,
              contract_passed p verdict contract⟩
            rw [grown]
            simp [round]

/-! ### Steps and what they were answered -/

/-- The step has what the outside answers after a log. -/
def Step.AnsweredBy (o : Outside α τ ρ ε) (log : List (Step α τ ρ ε)) : Step α τ ρ ε → Prop
  | .permit outcome => outcome = o.permit log
  | .attempt endpoint grant answer => answer = o.attempt log endpoint grant
  | .interrupt outcome => outcome = o.interrupt log

/-- The steps after a log have what the outside answers. -/
def Answered (o : Outside α τ ρ ε) : List (Step α τ ρ ε) → List (Step α τ ρ ε) → Prop
  | _, [] => True
  | log, step :: trace => step.AnsweredBy o log ∧ Answered o (log ++ [step]) trace

theorem Answered.split {o : Outside α τ ρ ε} {log before after : List (Step α τ ρ ε)}
    {step : Step α τ ρ ε} (answered : Answered o log (before ++ step :: after)) :
    step.AnsweredBy o (log ++ before) := by
  induction before generalizing log with
  | nil =>
      rw [List.append_nil]
      exact answered.1
  | cons first before ih =>
      rw [List.append_cons]
      exact ih answered.2

/-- An attempt starts wherever a permit is granted. -/
def Starts (trace : List (Step α τ ρ ε)) : Prop :=
  ∀ before grant after, trace = before ++ .permit (.ok grant) :: after →
    ∃ endpoint answer rest, after = .attempt endpoint grant answer :: rest

theorem starts_round {endpoint : α} {grant : τ} {answer : ρ} {outcome : Except ε Unit}
    {trace : List (Step α τ ρ ε)} (starts : Starts trace) :
    Starts (round endpoint grant answer outcome ++ trace) := by
  intro before g after split
  rcases before with _ | ⟨_, _ | ⟨_, _ | ⟨_, earlier⟩⟩⟩
  · simp only [round, List.cons_append, List.nil_append, List.cons.injEq, Step.permit.injEq,
      Except.ok.injEq] at split
    obtain ⟨rfl, rfl⟩ := split
    exact ⟨endpoint, answer, _, rfl⟩
  · simp [round] at split
  · simp [round] at split
  · simp only [round, List.cons_append, List.nil_append, List.cons.injEq] at split
    exact starts earlier g after split.2.2.2

/-- **Every step of a failover has what the outside answered**, and each granted permit starts an
attempt. -/
theorem run_answered (o : Outside α τ ρ ε) (endpoints : List α) (reasons : List κ)
    (log : List (Step α τ ρ ε)) :
    ∃ trace, (run o p endpoints reasons log).2 = log ++ trace ∧ Answered o log trace ∧
      Starts trace := by
  induction endpoints generalizing reasons log with
  | nil => exact ⟨[], (List.append_nil log).symm, trivial, fun _ _ _ split => by simp at split⟩
  | cons endpoint rest ih =>
      unfold run
      split
      · next e refused =>
        refine ⟨_, rfl, ⟨refused.symm, trivial⟩, ?_⟩
        intro before grant after split
        rcases List.singleton_eq_append_iff.mp split with ⟨_, same⟩ | ⟨_, same⟩ <;> simp at same
      · next grant granted =>
        dsimp only
        generalize attempted : o.attempt (log ++ [.permit (.ok grant)]) endpoint grant = answer
        have none : Starts ([] : List (Step α τ ρ ε)) := fun _ _ _ split => by simp at split
        split
        · next e interrupted =>
          refine ⟨round endpoint grant answer (.error e), ?_, ?_, ?_⟩
          · simp [round]
          · exact ⟨granted.symm, attempted.symm, interrupted.symm, trivial⟩
          · exact List.append_nil (round _ _ _ _) ▸ starts_round none
        · next uninterrupted =>
          split
          · refine ⟨round endpoint grant answer (.ok ()), ?_, ?_, ?_⟩
            · simp [round]
            · exact ⟨granted.symm, attempted.symm, uninterrupted.symm, trivial⟩
            · exact List.append_nil (round _ _ _ _) ▸ starts_round none
          · next reason _ =>
            obtain ⟨trace, grown, answered, starts⟩ := ih (reasons ++ [reason])
              (log ++ [.permit (.ok grant)] ++ [.attempt endpoint grant answer] ++
                [.interrupt (.ok ())])
            refine ⟨round endpoint grant answer (.ok ()) ++ trace, ?_, ?_, starts_round starts⟩
            · rw [grown]
              simp [round]
            · exact ⟨granted.symm, attempted.symm, uninterrupted.symm, answered⟩

/-- A failover with rows has them from the answer that settled it. -/
theorem Contract.settles {endpoints : List α} {reasons : List κ} {trace : List (Step α τ ρ ε)}
    {value : β} (contract : Contract p endpoints reasons trace (.ok value)) :
    ∃ earlier endpoint answer, answers trace = earlier ++ [(endpoint, answer)] ∧
      (∀ a ∈ earlier, p.Passes a) ∧ p.verdict endpoint answer = .settled (.ok value) := by
  have passed : ∀ step ∈ trace, step.failure = none := by
    intro step member
    cases failure : step.failure with
    | none => rfl
    | some e =>
        obtain ⟨before, after, split⟩ := List.append_of_mem member
        obtain ⟨_, impossible⟩ := contract.stops before step after e split failure
        cases impossible
  rcases contract.decides passed with ⟨earlier, endpoint, answer, asked, passes, verdict⟩ |
    ⟨_, _, impossible⟩
  · exact ⟨earlier, endpoint, answer, asked, passes, verdict⟩
  · cases impossible

end Contract

/-! ## Rows loaded on demand -/

section Pull

variable {ω : Type}

/-- How a reader checks for interrupts and loads its rows. -/
structure Reader (ω ε β : Type) where
  check : ω → Except ε Unit × ω
  load : ω → Except ε (List β) × ω

/-- One call of a reader: a check, the load if there are no rows yet, and the next row. The state
changes when rows are there only. -/
def pull (r : Reader ω ε β) : Machine (Option (List β) × ω) Unit (Except ε (Option β)) :=
  fun s _ =>
    match r.check s.2 with
    | (.error e, w) => (.error e, (s.1, w))
    | (.ok (), w) =>
      match s.1 with
      | some rows => (.ok rows.head?, (some rows.tail, w))
      | none =>
        match r.load w with
        | (.error e, w) => (.error e, (none, w))
        | (.ok rows, w) => (.ok rows.head?, (some rows.tail, w))

/-- The row of an output. -/
def emittedRow : Except ε (Option β) → Option β
  | .ok row => row
  | .error _ => none

/-- The rows of the outputs. -/
def emitted (outputs : List (Except ε (Option β))) : List β := outputs.filterMap emittedRow

/-- A call that fails changes nothing. -/
theorem pull_error {r : Reader ω ε β} {s : Option (List β) × ω} {e : ε}
    (failed : (pull r s ()).1 = .error e) : (pull r s ()).2.1 = s.1 := by
  unfold pull at failed ⊢
  split
  · rfl
  · next passed =>
    simp only [passed] at failed
    split
    · next rows loaded => simp [loaded] at failed
    · next unloaded =>
      simp only [unloaded] at failed
      split
      · exact unloaded.symm
      · next loaded => simp [loaded] at failed

/-- **Loaded rows are handed out one by one, and then the end.** With `advance` for what a check
that passes does, a run over loaded rows does only that. -/
theorem pull_drains {r : Reader ω ε β} {advance : ω → ω}
    (checks : ∀ w, (r.check w).1 = .ok () → (r.check w).2 = advance w) (rows : List β) (w : ω)
    (calls : List Unit)
    (passing : (pull r).Along (fun s _ => (r.check s.2).1 = .ok ()) (some rows, w) calls) :
    (∀ i < calls.length, ((pull r).outputs (some rows, w) calls)[i]? = some (.ok rows[i]?)) ∧
      ((pull r).after (some rows, w) calls).2 = advance^[calls.length] w := by
  induction calls generalizing rows w with
  | nil => exact ⟨fun i lt => absurd lt (Nat.not_lt_zero i), rfl⟩
  | cons call calls ih =>
      rw [Machine.along_cons] at passing
      obtain ⟨passes, later⟩ := passing
      have step : pull r (some rows, w) call = (.ok rows.head?, (some rows.tail, advance w)) := by
        rw [← checks w passes]
        rcases checked : r.check w with ⟨outcome, w'⟩
        obtain rfl : outcome = .ok () := by simpa [checked] using passes
        simp only [pull, checked]
      rw [step] at later
      obtain ⟨outputs, last⟩ := ih rows.tail (advance w) later
      refine ⟨?_, ?_⟩
      · intro i lt
        rw [Machine.outputs_cons, step]
        cases i with
        | zero => simp [List.head?_eq_getElem?]
        | succ i =>
            rw [List.getElem?_cons_succ, outputs i (by simpa using lt), List.getElem?_tail]
      · rw [Machine.after_cons, step, last, List.length_cons, Function.iterate_succ_apply]

/-! ### Machines that pull -/

variable {σ γ : Type} {m : Machine (σ × ω) Unit (Except ε γ)} {r : Reader ω ε β}
  {place : Option (List β) → σ} {shown : Option β → γ}

/-- A machine whose states hold the rows of a reader and that does what the reader does. -/
def Pulls (m : Machine (σ × ω) Unit (Except ε γ)) (r : Reader ω ε β)
    (place : Option (List β) → σ) (shown : Option β → γ) : Prop :=
  ∀ rows w call, m (place rows, w) call =
    ((pull r (rows, w) call).1.map shown,
      (place (pull r (rows, w) call).2.1, (pull r (rows, w) call).2.2))

/-- A failing call of such a machine changes nothing. -/
theorem Pulls.error (pulls : Pulls m r place shown) {rows : Option (List β)} {w : ω} {e : ε}
    (failed : (m (place rows, w) ()).1 = .error e) : (m (place rows, w) ()).2.1 = place rows := by
  rw [pulls] at failed ⊢
  have inner : (pull r (rows, w) ()).1 = .error e := by
    cases answer : (pull r (rows, w) ()).1 with
    | error e' =>
        rw [answer] at failed
        cases failed
        rfl
    | ok row =>
        rw [answer] at failed
        cases failed
  rw [pull_error inner]

theorem Pulls.outputs (pulls : Pulls m r place shown) (w : ω) (calls : List Unit) :
    m.outputs (place none, w) calls =
      ((pull r).outputs (none, w) calls).map (Except.map shown) := by
  have image : ∀ (t : Option (List β) × ω) a, m (place t.1, t.2) a =
      (((pull r t a).1).map shown, (place (pull r t a).2.1, (pull r t a).2.2)) :=
    fun t a => pulls t.1 t.2 a
  exact Machine.outputs_image _ _ image (none, w) calls

theorem Pulls.after (pulls : Pulls m r place shown) (w : ω) (calls : List Unit) :
    m.after (place none, w) calls =
      (place ((pull r).after (none, w) calls).1, ((pull r).after (none, w) calls).2) := by
  have image : ∀ (t : Option (List β) × ω) a, m (place t.1, t.2) a =
      (((pull r t a).1).map shown, (place (pull r t a).2.1, (pull r t a).2.2)) :=
    fun t a => pulls t.1 t.2 a
  exact Machine.after_image _ _ image (none, w) calls

/-- **From the call that loads on, such a machine hands out the rows and then the end**, and does
nothing else but check. -/
theorem Pulls.drains (pulls : Pulls m r place shown) {advance : ω → ω}
    (checks : ∀ w, (r.check w).1 = .ok () → (r.check w).2 = advance w) {w w' : ω} {rows : List β}
    (loaded : r.load (advance w) = (.ok rows, w')) (calls : List Unit)
    (passing : m.Along (fun s _ => (r.check s.2).1 = .ok ()) (place none, w) (() :: calls)) :
    (∀ i ≤ calls.length,
        (m.outputs (place none, w) (() :: calls))[i]? = some (.ok (shown rows[i]?))) ∧
      (m.after (place none, w) (() :: calls)).2 = advance^[calls.length] w' := by
  have image : ∀ (t : Option (List β) × ω) a, m (place t.1, t.2) a =
      (((pull r t a).1).map shown, (place (pull r t a).2.1, (pull r t a).2.2)) :=
    fun t a => pulls t.1 t.2 a
  have passing : (pull r).Along (fun t _ => (r.check t.2).1 = .ok ()) (none, w) (() :: calls) :=
    (Machine.along_image image (none, w) _).mp passing
  rw [Machine.along_cons] at passing
  obtain ⟨passes, later⟩ := passing
  have step : pull r (none, w) () = (.ok rows.head?, (some rows.tail, w')) := by
    have passes : (r.check w).1 = .ok () := passes
    have advances := checks w passes
    rcases checked : r.check w with ⟨outcome, w₁⟩
    obtain rfl : outcome = .ok () := by simpa [checked] using passes
    obtain rfl : w₁ = advance w := by simpa [checked] using advances
    simp only [pull, checked, loaded]
  rw [step] at later
  obtain ⟨outputs, last⟩ := pull_drains checks rows.tail w' calls later
  refine ⟨?_, ?_⟩
  · intro i le
    rw [pulls.outputs, List.getElem?_map, Machine.outputs_cons, step]
    cases i with
    | zero => simp [Except.map, List.head?_eq_getElem?]
    | succ i =>
        rw [List.getElem?_cons_succ, outputs i le, List.getElem?_tail]
        rfl
  · rw [pulls.after, Machine.after_cons, step, last]

end Pull

end Failover

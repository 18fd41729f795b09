import ExtensionSdkMongodb.Library.Machine

/-!
# Machines that hand out rows

A feed has a list of rows and hands them out one by one. Its calls may fail in between, each for a
reason in the state before it, which changes nothing of the rows, and after the last row it reports
its end forever. `Fed` says this of the outputs of a run and of what is seen of its states, and
`Feeds.run` that it follows from what one call does.

A feed may first have to get its rows. Until it has them its calls are refused, each for a reason in
the state before it (`Refused`), and the call that gets them answers from them at once
(`Awaits.run`).
-/

set_option autoImplicit false

namespace Feeding

variable {σ τ α β γ : Type}

section Fed

variable (shown : β → γ) (ended : γ) (fails : τ → γ → τ → Prop) (passes : τ → τ → Prop)

/-- Outputs that hand out rows in their order, each once, among failures. The end comes after the
last row, and stays. -/
inductive Fed : List β → τ → List γ → τ → Prop where
  | begun (rows : List β) (t : τ) : Fed rows t [] t
  | failed {rows : List β} {t t' last : τ} {out : γ} {outputs : List γ} (now : fails t out t')
      (later : Fed rows t' outputs last) : Fed rows t (out :: outputs) last
  | handed {row : β} {rows : List β} {t t' last : τ} {outputs : List γ} (now : passes t t')
      (later : Fed rows t' outputs last) : Fed (row :: rows) t (shown row :: outputs) last
  | ended {t t' : τ} (now : passes t t') (count : ℕ) :
      Fed [] t (List.replicate (count + 1) ended) t'

/-- Outputs from a call that answers: it hands out the first of its rows, or it reports the end. -/
inductive Answers : List β → τ → List γ → τ → Prop where
  | handed {row : β} {rows : List β} {t last : τ} {outputs : List γ}
      (later : Fed shown ended fails passes rows t outputs last) :
      Answers (row :: rows) t (shown row :: outputs) last
  | ended (t : τ) (count : ℕ) : Answers [] t (List.replicate (count + 1) ended) t

variable {shown ended fails passes}

/-- What holds of the first state and is kept by failures and passes holds of the last state. -/
theorem Fed.invariant (keeps : τ → Prop)
    (failed : ∀ t out t', fails t out t' → keeps t → keeps t')
    (passed : ∀ t t', passes t t' → keeps t → keeps t') {rows : List β} {t last : τ}
    {outputs : List γ} (fed : Fed shown ended fails passes rows t outputs last) (first : keeps t) :
    keeps last := by
  induction fed with
  | begun rows t => exact first
  | failed now later ih => exact ih (failed _ _ _ now first)
  | handed now later ih => exact ih (passed _ _ now first)
  | ended now count => exact passed _ _ now first

theorem Answers.invariant (keeps : τ → Prop)
    (failed : ∀ t out t', fails t out t' → keeps t → keeps t')
    (passed : ∀ t t', passes t t' → keeps t → keeps t') {rows : List β} {t last : τ}
    {outputs : List γ} (answers : Answers shown ended fails passes rows t outputs last)
    (first : keeps t) : keeps last := by
  cases answers with
  | handed later => exact later.invariant keeps failed passed first
  | ended t count => exact first

/-- Outputs without failures that reach the end are those of all rows, and then the end. -/
theorem Fed.complete {rows : List β} {t last : τ} {outputs : List γ}
    (fed : Fed shown ended fails passes rows t outputs last)
    (fine : ∀ out ∈ outputs, ∀ t t', ¬ fails t out t') (apart : ∀ row ∈ rows, shown row ≠ ended)
    (ends : ended ∈ outputs) :
    ∃ count, outputs = rows.map shown ++ List.replicate count ended := by
  induction fed with
  | begun rows t => simp at ends
  | @failed rows t t' last out outputs now later ih =>
      exact absurd now (fine out List.mem_cons_self t t')
  | @handed row rows t t' last outputs now later ih =>
      rcases List.mem_cons.mp ends with same | ends
      · exact absurd same.symm (apart row List.mem_cons_self)
      · obtain ⟨count, rfl⟩ := ih (fun out member => fine out (List.mem_cons_of_mem _ member))
          (fun other member => apart other (List.mem_cons_of_mem _ member)) ends
        exact ⟨count, rfl⟩
  | ended now count => exact ⟨count + 1, rfl⟩

theorem Answers.complete {rows : List β} {t last : τ} {outputs : List γ}
    (answers : Answers shown ended fails passes rows t outputs last)
    (fine : ∀ out ∈ outputs, ∀ t t', ¬ fails t out t') (apart : ∀ row ∈ rows, shown row ≠ ended)
    (ends : ended ∈ outputs) :
    ∃ count, outputs = rows.map shown ++ List.replicate count ended := by
  cases answers with
  | @handed row rows t last outputs later =>
      rcases List.mem_cons.mp ends with same | ends
      · exact absurd same.symm (apart row List.mem_cons_self)
      · obtain ⟨count, rfl⟩ :=
          later.complete (fun out member => fine out (List.mem_cons_of_mem _ member))
            (fun other member => apart other (List.mem_cons_of_mem _ member)) ends
        exact ⟨count, rfl⟩
  | ended t count => exact ⟨count + 1, rfl⟩

end Fed

/-! ## From one call to a run -/

/-- A call answers from rows: it hands out the first and keeps the others, or it is done. -/
inductive Answer (shown : β → γ) (ended : γ) (holds : List β → σ → Prop) (done : σ → Prop) :
    List β → γ × σ → Prop where
  | handed {row : β} {rows : List β} {s : σ} (has : holds rows s) :
      Answer shown ended holds done (row :: rows) (shown row, s)
  | ended {s : σ} (atEnd : done s) : Answer shown ended holds done [] (ended, s)

/-- A machine that hands out the rows its states hold. Failures and passes are told by what is seen
of the states. -/
structure Feeds (m : Machine σ α γ) (view : σ → τ) (shown : β → γ) (ended : γ)
    (fails : τ → γ → τ → Prop) (passes : τ → τ → Prop) (holds : List β → σ → Prop)
    (done : σ → Prop) : Prop where
  call : ∀ {rows s} a, holds rows s →
    (fails (view s) (m s a).1 (view (m s a).2) ∧ holds rows (m s a).2) ∨
      (passes (view s) (view (m s a).2) ∧ Answer shown ended holds done rows (m s a))
  rest : ∀ {s} a, done s → m s a = (ended, s)

section Run

variable {m : Machine σ α γ} {view : σ → τ} {shown : β → γ} {ended : γ}
  {fails : τ → γ → τ → Prop} {passes : τ → τ → Prop} {holds : List β → σ → Prop} {done : σ → Prop}

/-- After the end there is only the end. -/
theorem Feeds.run_done (feeds : Feeds m view shown ended fails passes holds done) {s : σ}
    (atEnd : done s) (inputs : List α) :
    m.outputs s inputs = List.replicate inputs.length ended ∧ m.after s inputs = s := by
  induction inputs with
  | nil => exact ⟨rfl, rfl⟩
  | cons a inputs ih =>
      obtain ⟨outputs, last⟩ := ih
      rw [Machine.outputs_cons, Machine.after_cons, feeds.rest a atEnd, outputs]
      exact ⟨rfl, last⟩

/-- **A feed hands out its rows in every run.** -/
theorem Feeds.run (feeds : Feeds m view shown ended fails passes holds done) {rows : List β} {s : σ}
    (has : holds rows s) (inputs : List α) :
    Fed shown ended fails passes rows (view s) (m.outputs s inputs) (view (m.after s inputs)) := by
  induction inputs generalizing rows s with
  | nil => exact .begun rows (view s)
  | cons a inputs ih =>
      rw [Machine.outputs_cons, Machine.after_cons]
      rcases feeds.call a has with ⟨now, has⟩ | ⟨now, answer⟩
      · exact .failed now (ih has)
      · generalize m s a = call at now answer ⊢
        cases answer with
        | handed left => exact .handed now (ih left)
        | ended atEnd =>
            obtain ⟨outputs, last⟩ := feeds.run_done atEnd inputs
            simp only [outputs, last]
            exact .ended now inputs.length

/-- The outputs from a call that answers. -/
theorem Feeds.run_answer (feeds : Feeds m view shown ended fails passes holds done) {rows : List β}
    {s : σ} {a : α} (answer : Answer shown ended holds done rows (m s a)) (inputs : List α) :
    Answers shown ended fails passes rows (view (m s a).2) (m.outputs s (a :: inputs))
      (view (m.after s (a :: inputs))) := by
  rw [Machine.outputs_cons, Machine.after_cons]
  generalize m s a = call at answer ⊢
  cases answer with
  | handed has => exact .handed (feeds.run has inputs)
  | ended atEnd =>
      obtain ⟨outputs, last⟩ := feeds.run_done atEnd inputs
      simp only [outputs, last]
      exact .ended _ inputs.length

end Run

/-! ## Rows that have to be got first -/

/-- Outputs of calls that are refused one after the other, with what is seen of the states between
them. -/
inductive Refused (refuses : τ → γ → τ → Prop) : τ → List γ → τ → Prop where
  | start (t : τ) : Refused refuses t [] t
  | call {t t' last : τ} {out : γ} {outputs : List γ} (now : refuses t out t')
      (later : Refused refuses t' outputs last) : Refused refuses t (out :: outputs) last

/-- A machine that waits for rows, and hands out those that a call gets. -/
structure Awaits (m : Machine σ α γ) (view : σ → τ) (shown : β → γ) (ended : γ)
    (refuses : τ → γ → τ → Prop) (gets : τ → List β → τ → Prop) (fails : τ → γ → τ → Prop)
    (passes : τ → τ → Prop) (waiting : σ → Prop) (holds : List β → σ → Prop) (done : σ → Prop) :
    Prop where
  call : ∀ {s} a, waiting s →
    (refuses (view s) (m s a).1 (view (m s a).2) ∧ waiting (m s a).2) ∨
      ∃ rows, gets (view s) rows (view (m s a).2) ∧ Answer shown ended holds done rows (m s a)
  feeds : Feeds m view shown ended fails passes holds done

/-- **Until a call gets rows all calls are refused, and from that call on its rows are handed
out.** -/
theorem Awaits.run {m : Machine σ α γ} {view : σ → τ} {shown : β → γ} {ended : γ}
    {refuses : τ → γ → τ → Prop} {gets : τ → List β → τ → Prop} {fails : τ → γ → τ → Prop}
    {passes : τ → τ → Prop} {waiting : σ → Prop} {holds : List β → σ → Prop} {done : σ → Prop}
    (awaits : Awaits m view shown ended refuses gets fails passes waiting holds done) {s : σ}
    (waits : waiting s) (inputs : List α) :
    ∃ refused answered before, m.outputs s inputs = refused ++ answered ∧
      Refused refuses (view s) refused before ∧
      (answered = [] ∧ view (m.after s inputs) = before ∨
        ∃ rows got, gets before rows got ∧
          Answers shown ended fails passes rows got answered (view (m.after s inputs))) := by
  induction inputs generalizing s with
  | nil => exact ⟨[], [], view s, rfl, .start _, .inl ⟨rfl, rfl⟩⟩
  | cons a inputs ih =>
      rcases awaits.call a waits with ⟨now, waits'⟩ | ⟨rows, got, answer⟩
      · obtain ⟨refused, answered, before, outputs, all, rest⟩ := ih waits'
        refine ⟨_ :: refused, answered, before, ?_, .call now all, rest⟩
        rw [Machine.outputs_cons, outputs]
        rfl
      · exact ⟨[], _, view s, rfl, .start _,
          .inr ⟨rows, _, got, awaits.feeds.run_answer answer inputs⟩⟩

end Feeding

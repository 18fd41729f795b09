import Mathlib.Data.List.Basic

/-!
# Machines that answer calls

A machine takes a state and an input and returns an output with the next state. A run of a machine
over a list of inputs has one output per input (`outputs`) and a last state (`after`).

Facts about one step become facts about a run by these rules. An invariant that every step preserves
holds after a run (`after_invariant`). A predicate of the step that every state of the invariant
satisfies holds at each step of a run (`along_of_invariant`), and two that agree on these states
hold along the same runs (`along_congr_of_invariant`). Steps that follow a schedule give the outputs
of the schedule (`outputs_of_schedule`). Two machines related step by step show the same outputs in
every run (`Simulation.outputs_show`), and a machine that does on images of states what another does
on the states shows the images of its outputs (`outputs_image`).
-/

set_option autoImplicit false

/-- A machine with states `σ` that answers an input in `α` by an output in `β`. -/
abbrev Machine (σ α β : Type*) := σ → α → β × σ

namespace Machine

variable {σ α β τ γ δ : Type*}

/-- The outputs of a run, one for each input. -/
def outputs (m : Machine σ α β) : σ → List α → List β
  | _, [] => []
  | s, a :: inputs => (m s a).1 :: outputs m (m s a).2 inputs

/-- The state a run ends in. -/
def after (m : Machine σ α β) : σ → List α → σ
  | s, [] => s
  | s, a :: inputs => after m (m s a).2 inputs

@[simp] theorem outputs_nil (m : Machine σ α β) (s : σ) : m.outputs s [] = [] := rfl

@[simp] theorem outputs_cons (m : Machine σ α β) (s : σ) (a : α) (inputs : List α) :
    m.outputs s (a :: inputs) = (m s a).1 :: m.outputs (m s a).2 inputs := rfl

@[simp] theorem after_nil (m : Machine σ α β) (s : σ) : m.after s [] = s := rfl

@[simp] theorem after_cons (m : Machine σ α β) (s : σ) (a : α) (inputs : List α) :
    m.after s (a :: inputs) = m.after (m s a).2 inputs := rfl

@[simp] theorem length_outputs (m : Machine σ α β) (s : σ) (inputs : List α) :
    (m.outputs s inputs).length = inputs.length := by
  induction inputs generalizing s with
  | nil => rfl
  | cons a inputs ih => simp [ih]

theorem after_append (m : Machine σ α β) (s : σ) (first second : List α) :
    m.after s (first ++ second) = m.after (m.after s first) second := by
  induction first generalizing s with
  | nil => rfl
  | cons a first ih => simp [ih]

/-- The output at a position is the answer to its input in the state the inputs before it
lead to. -/
theorem getElem?_outputs (m : Machine σ α β) (s : σ) (inputs : List α) (i : ℕ) :
    (m.outputs s inputs)[i]? = inputs[i]?.map fun a => (m (m.after s (inputs.take i)) a).1 := by
  induction inputs generalizing s i with
  | nil => simp
  | cons a inputs ih =>
      cases i with
      | zero => simp
      | succ i => simp [ih]

/-! ## Images -/

section Image

variable {m : Machine σ α β} {n : Machine τ α δ} (state : τ → σ) (output : δ → β)

/-- A machine that does on images of states what another does on the states shows the images of
its outputs. -/
theorem outputs_image
    (image : ∀ t a, m (state t) a = (output (n t a).1, state (n t a).2)) (t : τ)
    (inputs : List α) : m.outputs (state t) inputs = (n.outputs t inputs).map output := by
  induction inputs generalizing t with
  | nil => rfl
  | cons a inputs ih => simp [image, ih]

theorem after_image
    (image : ∀ t a, m (state t) a = (output (n t a).1, state (n t a).2)) (t : τ)
    (inputs : List α) : m.after (state t) inputs = state (n.after t inputs) := by
  induction inputs generalizing t with
  | nil => rfl
  | cons a inputs ih => simp [image, ih]

end Image

/-! ## Invariants -/

/-- **An invariant of every step is an invariant of every run.** -/
theorem after_invariant {m : Machine σ α β} {invariant : σ → Prop}
    (step : ∀ s a, invariant s → invariant (m s a).2) {s : σ} (start : invariant s)
    (inputs : List α) : invariant (m.after s inputs) := by
  induction inputs generalizing s with
  | nil => exact start
  | cons a inputs ih => exact ih (step s a start)

/-- A property of a state and an input, at every step of a run. -/
def Along (m : Machine σ α β) (holds : σ → α → Prop) : σ → List α → Prop
  | _, [] => True
  | s, a :: inputs => holds s a ∧ Along m holds (m s a).2 inputs

@[simp] theorem along_nil (m : Machine σ α β) (holds : σ → α → Prop) (s : σ) :
    m.Along holds s [] := trivial

@[simp] theorem along_cons (m : Machine σ α β) (holds : σ → α → Prop) (s : σ) (a : α)
    (inputs : List α) :
    m.Along holds s (a :: inputs) ↔ holds s a ∧ m.Along holds (m s a).2 inputs := Iff.rfl

/-- A property holds at every step of a run exactly if it holds after every part of the inputs of
the input that follows. -/
theorem along_iff_seen (m : Machine σ α β) (holds : σ → α → Prop) (s : σ) (inputs : List α) :
    m.Along holds s inputs ↔
      ∀ seen a, seen ++ [a] <+: inputs → holds (m.after s seen) a := by
  induction inputs generalizing s with
  | nil => simp
  | cons b inputs ih =>
      rw [along_cons, ih]
      constructor
      · rintro ⟨now, later⟩ (_ | ⟨c, seen⟩) a begins
        · obtain ⟨rfl, _⟩ := List.cons_prefix_cons.mp begins
          exact now
        · obtain ⟨rfl, follows⟩ := List.cons_prefix_cons.mp begins
          exact later seen a follows
      · intro every
        refine ⟨every [] b (by simp), fun seen a begins => ?_⟩
        exact every (b :: seen) a (by simpa using begins)

/-- **Equivalent properties of single steps are equivalent along runs.** -/
theorem along_congr {m : Machine σ α β} {first second : σ → α → Prop}
    (same : ∀ s a, first s a ↔ second s a) (s : σ) (inputs : List α) :
    m.Along first s inputs ↔ m.Along second s inputs := by
  induction inputs generalizing s with
  | nil => exact Iff.rfl
  | cons a inputs ih => exact and_congr (same s a) (ih _)

/-- **A property of the steps from an invariant's states holds along every run.** -/
theorem along_of_invariant {m : Machine σ α β} {invariant : σ → Prop} {holds : σ → α → Prop}
    (step : ∀ s a, invariant s → invariant (m s a).2)
    (every : ∀ s a, invariant s → holds s a) {s : σ} (start : invariant s) (inputs : List α) :
    m.Along holds s inputs := by
  induction inputs generalizing s with
  | nil => exact trivial
  | cons a inputs ih => exact ⟨every s a start, ih (step s a start)⟩

/-- **Properties of single steps that are equivalent under an invariant are equivalent along
runs**, when one of them keeps the invariant; both at the steps of a run with a third property. -/
theorem along_congr_given {m : Machine σ α β} {invariant : σ → Prop}
    {given first second : σ → α → Prop}
    (same : ∀ s a, invariant s → given s a → (first s a ↔ second s a))
    (step : ∀ s a, invariant s → given s a → second s a → invariant (m s a).2) {s : σ}
    (start : invariant s) {inputs : List α} (all : m.Along given s inputs) :
    m.Along first s inputs ↔ m.Along second s inputs := by
  induction inputs generalizing s with
  | nil => exact Iff.rfl
  | cons a inputs ih =>
      rw [along_cons, along_cons, same s a start all.1]
      exact and_congr_right fun holds => ih (step s a start all.1 holds) all.2

/-- A run in which nothing more is given. -/
theorem along_congr_of_invariant {m : Machine σ α β} {invariant : σ → Prop}
    {first second : σ → α → Prop} (same : ∀ s a, invariant s → (first s a ↔ second s a))
    (step : ∀ s a, invariant s → second s a → invariant (m s a).2) {s : σ} (start : invariant s)
    (inputs : List α) : m.Along first s inputs ↔ m.Along second s inputs := by
  have nothing : m.Along (fun _ _ => True) s inputs :=
    (m.along_iff_seen _ s inputs).mpr fun _ _ _ => trivial
  exact along_congr_given (fun s a start _ => same s a start) (fun s a start _ => step s a start)
    start nothing

/-- A property of the steps of a machine on images of states is one of the steps on the states. -/
theorem along_image {m : Machine σ α β} {n : Machine τ α δ} {state : τ → σ} {output : δ → β}
    (image : ∀ t a, m (state t) a = (output (n t a).1, state (n t a).2)) {holds : σ → α → Prop}
    (t : τ) (inputs : List α) :
    m.Along holds (state t) inputs ↔ n.Along (fun t a => holds (state t) a) t inputs := by
  induction inputs generalizing t with
  | nil => exact Iff.rfl
  | cons a inputs ih =>
      rw [along_cons, along_cons, image]
      exact and_congr Iff.rfl (ih _)

/-! ## Schedules -/

/-- A state that answers everything alike and stays. -/
theorem run_of_fixed {m : Machine σ α β} {s : σ} {b : β} (fixed : ∀ a, m s a = (b, s))
    (inputs : List α) :
    m.outputs s inputs = .replicate inputs.length b ∧ m.after s inputs = s := by
  induction inputs with
  | nil => exact ⟨rfl, rfl⟩
  | cons a inputs ih =>
      obtain ⟨outputs, last⟩ := ih
      rw [outputs_cons, after_cons, fixed, outputs, last]
      exact ⟨rfl, rfl⟩

section Schedule

variable {m : Machine σ α β} {at_ : ℕ → σ → Prop}

/-- **A run along a schedule**: when the step from every state of the `k`-th kind gives the `k`-th
output and leads to the next kind, the outputs are those of the schedule. -/
theorem outputs_of_schedule {out : ℕ → β}
    (step : ∀ k s a, at_ k s → (m s a).1 = out k ∧ at_ (k + 1) (m s a).2) {s : σ} {k : ℕ}
    (start : at_ k s) (inputs : List α) :
    m.outputs s inputs = (List.range' k inputs.length).map out := by
  induction inputs generalizing s k with
  | nil => rfl
  | cons a inputs ih =>
      obtain ⟨shown, next⟩ := step k s a start
      rw [outputs_cons, List.length_cons, List.range'_succ, List.map_cons, shown, ih next]

theorem after_of_schedule (step : ∀ k s a, at_ k s → at_ (k + 1) (m s a).2) {s : σ} {k : ℕ}
    (start : at_ k s) (inputs : List α) : at_ (k + inputs.length) (m.after s inputs) := by
  induction inputs generalizing s k with
  | nil => exact start
  | cons a inputs ih =>
      have rest := ih (step k s a start)
      rw [after_cons, List.length_cons, ← Nat.add_assoc, Nat.add_right_comm]
      exact rest

end Schedule

/-! ## Expectations -/

section Expectations

variable {m : Machine σ α β} {post : τ → α → τ}

/-- A machine with an expectation beside its state, which the same inputs move on. -/
def expecting (m : Machine σ α β) (post : τ → α → τ) : Machine (σ × τ) α β :=
  fun (s, t) a => ((m s a).1, (m s a).2, post t a)

theorem after_expecting (s : σ) (t : τ) (inputs : List α) :
    (m.expecting post).after (s, t) inputs = (m.after s inputs, inputs.foldl post t) := by
  induction inputs generalizing s t with
  | nil => rfl
  | cons a inputs ih => exact ih _ _

/-- **Two properties of steps are equivalent at every step of a run**, when they are equivalent at
the steps from states that are as expected, and one of them keeps them so. -/
theorem seen_congr {invariant : σ → τ → Prop} {given first second : σ → τ → α → Prop}
    (same : ∀ s t a, invariant s t → given s t a → (first s t a ↔ second s t a))
    (step : ∀ s t a, invariant s t → given s t a → second s t a →
      invariant (m s a).2 (post t a)) {s : σ} {t : τ} (start : invariant s t) {inputs : List α}
    (all : ∀ seen a, seen ++ [a] <+: inputs → given (m.after s seen) (seen.foldl post t) a) :
    (∀ seen a, seen ++ [a] <+: inputs → first (m.after s seen) (seen.foldl post t) a) ↔
      ∀ seen a, seen ++ [a] <+: inputs → second (m.after s seen) (seen.foldl post t) a := by
  have along : ∀ holds : σ → τ → α → Prop,
      (m.expecting post).Along (fun s a => holds s.1 s.2 a) (s, t) inputs ↔
        ∀ seen a, seen ++ [a] <+: inputs → holds (m.after s seen) (seen.foldl post t) a := by
    intro holds
    rw [along_iff_seen]
    simp only [after_expecting]
  have sameAt : ∀ (s : σ × τ) a, invariant s.1 s.2 → given s.1 s.2 a →
      (first s.1 s.2 a ↔ second s.1 s.2 a) := fun s => same s.1 s.2
  rw [← along, ← along]
  exact along_congr_given sameAt (fun s => step s.1 s.2) start ((along given).mpr all)

end Expectations

/-! ## Simulations -/

/-- Two machines related step by step: the second reads the inputs through a function, and its
outputs are shown by the outputs of the first. -/
structure Simulation (m : Machine σ α β) (n : Machine τ γ δ) (input : α → γ)
    (shows : β → δ → Prop) where
  /-- The related states. -/
  related : σ → τ → Prop
  /-- Related states give outputs of which one shows the other. -/
  answer : ∀ s t a, related s t → shows (m s a).1 (n t (input a)).1
  /-- Steps keep states related. -/
  step : ∀ s t a, related s t → related (m s a).2 (n t (input a)).2

/-- **Related states show the same outputs in every run.** -/
theorem Simulation.outputs_show {m : Machine σ α β} {n : Machine τ γ δ} {input : α → γ}
    {shows : β → δ → Prop} (sim : Simulation m n input shows) {s : σ} {t : τ}
    (start : sim.related s t) (inputs : List α) :
    List.Forall₂ shows (m.outputs s inputs) (n.outputs t (inputs.map input)) := by
  induction inputs generalizing s t with
  | nil => exact .nil
  | cons a inputs ih => exact .cons (sim.answer s t a start) (ih (sim.step s t a start))

/-- **Related states stay related in every run.** -/
theorem Simulation.after_related {m : Machine σ α β} {n : Machine τ γ δ} {input : α → γ}
    {shows : β → δ → Prop} (sim : Simulation m n input shows) {s : σ} {t : τ}
    (start : sim.related s t) (inputs : List α) :
    sim.related (m.after s inputs) (n.after t (inputs.map input)) := by
  induction inputs generalizing s t with
  | nil => exact start
  | cons a inputs ih => exact ih (sim.step s t a start)

end Machine

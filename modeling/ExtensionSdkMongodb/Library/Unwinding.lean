import Mathlib.Data.Option.Basic

/-!
# Computations with unwinding callbacks

A computation calls callbacks, and a callback can panic. A panic unwinds through the computation
until a boundary catches it. An `Unwinding` computation has its value, which is missing when a
panic unwinds out of it, and remembers whether a callback panicked at all.

A computation is contained when it has a value, and one that counts as a failure if a callback
panicked (`Contained`). Computations without callbacks are (`contained_pure`), a callback outside
every boundary is when it does not panic (`contained_callback_bind_iff`), and one inside a boundary
is when what follows makes a failure of a caught panic (`contained_boundary_callback_bind`).
-/

set_option autoImplicit false

universe u

/-- A computation that calls callbacks. Its value is missing when a panic unwinds out of it, and
only a callback's panic does. -/
@[ext] structure Unwinding (α : Type u) where
  value : Option α
  panicked : Bool
  unwound : value = none → panicked = true

namespace Unwinding

variable {α β : Type u}

/-- A computation without callbacks. -/
def pure (a : α) : Unwinding α := ⟨some a, false, fun missing => by cases missing⟩

/-- A callback; its outcome is missing when it panics. -/
def callback (outcome : Option α) : Unwinding α :=
  ⟨outcome, outcome.isNone, fun missing => by rw [missing]; rfl⟩

/-- One computation after another: it does not run when a panic unwinds out of the first. -/
def bind (x : Unwinding α) (f : α → Unwinding β) : Unwinding β where
  value := x.value.bind fun a => (f a).value
  panicked := x.panicked || (x.value.map fun a => (f a).panicked).getD false
  unwound := by
    intro missing
    cases returned : x.value with
    | none => rw [x.unwound returned, Bool.true_or]
    | some a =>
        rw [returned, Option.bind_some] at missing
        simp [(f a).unwound missing]

instance : Monad Unwinding where
  pure := pure
  bind := bind

/-- A boundary: the value of the computation, or none when a panic unwinds out of it. -/
def boundary (x : Unwinding α) : Unwinding (Option α) :=
  ⟨some x.value, x.panicked, fun missing => by cases missing⟩

@[simp] theorem value_pure (a : α) : (Pure.pure a : Unwinding α).value = some a := rfl

@[simp] theorem panicked_pure (a : α) : (Pure.pure a : Unwinding α).panicked = false := rfl

@[simp] theorem value_bind (x : Unwinding α) (f : α → Unwinding β) :
    (x >>= f).value = x.value.bind fun a => (f a).value := rfl

@[simp] theorem panicked_bind (x : Unwinding α) (f : α → Unwinding β) :
    (x >>= f).panicked = (x.panicked || (x.value.map fun a => (f a).panicked).getD false) := rfl

@[simp] theorem value_callback (outcome : Option α) : (callback outcome).value = outcome := rfl

@[simp] theorem panicked_callback (outcome : Option α) :
    (callback outcome).panicked = outcome.isNone := rfl

@[simp] theorem value_boundary (x : Unwinding α) : (boundary x).value = some x.value := rfl

@[simp] theorem panicked_boundary (x : Unwinding α) : (boundary x).panicked = x.panicked := rfl

@[simp] theorem value_map (f : α → β) (x : Unwinding α) : (f <$> x).value = x.value.map f := by
  cases returned : x.value <;> simp [Functor.map, bind, pure, returned]

@[simp] theorem panicked_map (f : α → β) (x : Unwinding α) : (f <$> x).panicked = x.panicked := by
  cases returned : x.value <;> simp [Functor.map, bind, pure, returned]

instance : LawfulMonad Unwinding := .mk' _
  (by
    intro α x
    ext
    · simp
    · simp)
  (by
    intro α β a f
    ext
    · simp
    · simp)
  (by
    intro α β γ x f g
    ext
    · cases returned : x.value <;> simp [returned]
    · cases returned : x.value <;> simp [returned, Bool.or_assoc])

/-! ## Containment -/

section Contained

variable {fails : β → Prop}

/-- No panic unwinds out of the computation, and its value is a failure if a callback panicked. -/
def Contained (fails : β → Prop) (x : Unwinding β) : Prop :=
  ∃ b, x.value = some b ∧ (x.panicked = true → fails b)

theorem contained_pure (b : β) : Contained fails (Pure.pure b) :=
  ⟨b, rfl, fun panicked => by cases panicked⟩

/-- **A callback outside every boundary is contained when it returns.** -/
theorem contained_callback_bind_iff (outcome : Option α) (f : α → β) :
    Contained fails (callback outcome >>= fun a => Pure.pure (f a)) ↔ outcome ≠ none := by
  cases outcome with
  | none => simp [Contained]
  | some a => simp [Contained]

/-- **A computation after another is contained**: as long as no callback panicked in the first it
has to be contained itself, and after a panic it has to be a failure without callbacks. -/
theorem contained_bind {x : Unwinding α} {f : α → Unwinding β} {a : α} (value : x.value = some a)
    (calm : x.panicked = false → Contained fails (f a))
    (alarmed : x.panicked = true → ∃ b, f a = Pure.pure b ∧ fails b) :
    Contained fails (x >>= f) := by
  cases panicked : x.panicked with
  | false =>
      obtain ⟨b, last, failed⟩ := calm panicked
      exact ⟨b, by simp [value, last], by simpa [value, panicked] using failed⟩
  | true =>
      obtain ⟨b, last, failed⟩ := alarmed panicked
      exact ⟨b, by simp [value, last], fun _ => failed⟩

/-- A boundary around one callback. -/
theorem contained_boundary_callback_bind {outcome : Option α} {f : Option α → Unwinding β}
    (returned : ∀ a, outcome = some a → Contained fails (f (some a)))
    (caught : ∃ b, f none = Pure.pure b ∧ fails b) :
    Contained fails (boundary (callback outcome) >>= f) := by
  apply contained_bind (value_boundary _)
  · intro calm
    cases outcome with
    | none => cases calm
    | some a => exact returned a rfl
  · intro panicked
    cases outcome with
    | none => exact caught
    | some a => cases panicked

/-- What is made of a contained value is contained when failures stay failures. -/
theorem Contained.map {γ : Type u} {fails' : γ → Prop} {x : Unwinding β}
    (contained : Contained fails x) (f : β → γ) (keeps : ∀ b, fails b → fails' (f b)) :
    Contained fails' (x >>= fun b => Pure.pure (f b)) := by
  obtain ⟨b, value, failed⟩ := contained
  refine ⟨f b, by simp [value], ?_⟩
  intro panicked
  apply keeps
  apply failed
  simpa [value] using panicked

end Contained

end Unwinding

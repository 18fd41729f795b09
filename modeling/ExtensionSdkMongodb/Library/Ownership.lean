import Mathlib.Algebra.Order.Group.Multiset
import Mathlib.Data.Multiset.AddSub
import Mathlib.Logic.Function.Basic

/-!
# Owned things

A ledger of one call counts what came into a component (received from a caller, or created) and what
left it (handed out, or destroyed). A ledger is balanced when the two sides are the same multiset:
nothing is leaked, and nothing leaves twice. If the things that came in are distinct, each of them
left exactly once, on one side (`Balanced.exactly_one`).

Things that stay behind raw pointers are boxed. A pointer is valid from the call that made it to the
call that takes the value out again. The use of any other pointer is misuse, and the boxes remember
it. Owners hold pointers, and `Holds` says that they do it properly: every owner with a pointer has
a live box of its own, every live box has an owner, and nothing was misused. Boxing a value for an
owner without a box, writing to the box of an owner and taking its value out keep this
(`Holds.intoRaw`, `Holds.write`, `Holds.fromRaw`), and change the value of that owner only.
-/

set_option autoImplicit false

/-! ## Ledgers -/

/-- What one call took over, created, handed out and destroyed. -/
structure Ledger (β : Type*) where
  received : Multiset β
  created : Multiset β
  returned : Multiset β
  destroyed : Multiset β

namespace Ledger

variable {β : Type*}

/-- Everything taken over or created is handed out or destroyed, once. -/
def Balanced (l : Ledger β) : Prop :=
  l.received + l.created = l.returned + l.destroyed

instance [DecidableEq β] (l : Ledger β) : Decidable l.Balanced :=
  inferInstanceAs (Decidable (l.received + l.created = l.returned + l.destroyed))

/-- What is destroyed or handed out was taken over or created. -/
theorem Balanced.mem {l : Ledger β} (balanced : l.Balanced) {b : β}
    (left : b ∈ l.returned ∨ b ∈ l.destroyed) : b ∈ l.received ∨ b ∈ l.created := by
  rw [← Multiset.mem_add, balanced, Multiset.mem_add]
  exact left

/-- **In a balanced ledger of distinct things, each left exactly once and on one side.** -/
theorem Balanced.exactly_one [DecidableEq β] {l : Ledger β} (balanced : l.Balanced)
    (distinct : (l.received + l.created).Nodup) {b : β} (came : b ∈ l.received + l.created) :
    (l.returned.count b = 1 ∧ l.destroyed.count b = 0) ∨
      (l.returned.count b = 0 ∧ l.destroyed.count b = 1) := by
  have once : (l.received + l.created).count b = 1 := Multiset.count_eq_one_of_mem distinct came
  rw [balanced, Multiset.count_add] at once
  omega

end Ledger

/-! ## Boxes -/

/-- Boxes by their pointers; the box of a pointer is gone once its value was taken out. -/
structure Boxes (σ : Type*) where
  cells : List (Option σ)
  misused : Bool

namespace Boxes

variable {σ ι : Type*}

/-- No box was made yet. -/
def empty : Boxes σ := ⟨[], false⟩

/-- The value of the live box behind a pointer; null is `none`. -/
def read (b : Boxes σ) (ptr : Option ℕ) : Option σ := ptr.bind fun i => b.cells[i]?.join

/-- The boxes after the use of a pointer that is not valid. -/
def misuse (b : Boxes σ) : Boxes σ := { b with misused := true }

/-- What a cell holds from now on; only cells of live boxes are set. -/
def set (b : Boxes σ) (ptr : Option ℕ) (cell : Option σ) : Boxes σ :=
  match ptr with
  | some i => if (b.read ptr).isSome then { b with cells := b.cells.set i cell } else b.misuse
  | none => b.misuse

/-- A new box for a value, and its pointer. -/
def intoRaw (b : Boxes σ) (value : σ) : Option ℕ × Boxes σ :=
  (some b.cells.length, { b with cells := b.cells ++ [some value] })

/-- A write through a pointer. -/
def write (b : Boxes σ) (ptr : Option ℕ) (value : σ) : Boxes σ := b.set ptr (some value)

/-- The boxes once the value behind a pointer was taken out. -/
def fromRaw (b : Boxes σ) (ptr : Option ℕ) : Boxes σ := b.set ptr none

/-! ## Reading boxes -/

@[simp] theorem read_none (b : Boxes σ) : b.read none = none := rfl

/-- The pointer of a new box was the pointer of none before. -/
theorem read_fresh (b : Boxes σ) (value : σ) : b.read (b.intoRaw value).1 = none := by
  simp [read, intoRaw]

theorem read_intoRaw (b : Boxes σ) (value : σ) (ptr : Option ℕ) :
    (b.intoRaw value).2.read ptr =
      if ptr = (b.intoRaw value).1 then some value else b.read ptr := by
  cases ptr with
  | none => simp [intoRaw]
  | some i =>
      rcases Nat.lt_trichotomy i b.cells.length with before | rfl | behind
      · simp [read, intoRaw, List.getElem?_append_left before, Nat.ne_of_lt before]
      · simp [read, intoRaw]
      · have none_ : (b.cells ++ [some value])[i]? = none := by
          rw [List.getElem?_eq_none]
          simp only [List.length_append, List.length_singleton]
          omega
        simp [read, intoRaw, none_, Nat.ne_of_gt behind,
          List.getElem?_eq_none (Nat.le_of_lt behind)]

/-- A live box is set and no other changes. -/
theorem read_set {b : Boxes σ} {ptr : Option ℕ} (live : (b.read ptr).isSome) (cell : Option σ)
    (other : Option ℕ) :
    (b.set ptr cell).read other = if other = ptr then cell else b.read other := by
  cases ptr with
  | none => simp at live
  | some i =>
      have lt : i < b.cells.length := by
        by_contra beyond
        simp [read, List.getElem?_eq_none (Nat.not_lt.mp beyond)] at live
      simp only [set, live, if_true]
      cases other with
      | none => simp
      | some j =>
          by_cases same : j = i
          · subst same
            simp [read, lt]
          · simp [read, Ne.symm same, same]

theorem misused_set {b : Boxes σ} {ptr : Option ℕ} (live : (b.read ptr).isSome)
    (cell : Option σ) : (b.set ptr cell).misused = b.misused := by
  cases ptr with
  | none => simp at live
  | some i => simp [set, live]

/-! ## Owners of boxes -/

/-- Every owner has the content it should have, in a live box of its own or nowhere, every live box
has an owner, and nothing was misused. -/
structure Holds (b : Boxes σ) (owners : ι → Option ℕ) (content : ι → Option σ) : Prop where
  sound : b.misused = false
  each : ∀ i, b.read (owners i) = content i
  null : ∀ i, content i = none → owners i = none
  apart : ∀ i j, owners i = owners j → owners i ≠ none → i = j
  owned : ∀ ptr, (b.read ptr).isSome → ∃ i, owners i = ptr

namespace Holds

variable {b : Boxes σ} {owners : ι → Option ℕ} {content : ι → Option σ}

theorem empty : (Boxes.empty : Boxes σ).Holds (fun _ : ι => none) (fun _ => none) where
  sound := rfl
  each := fun _ => rfl
  null := fun _ _ => rfl
  apart := fun _ _ _ ne => absurd rfl ne
  owned := by
    intro ptr live
    cases ptr with
    | none => simp at live
    | some i => simp [Boxes.empty, read] at live

/-- When nobody owns a box, none is live. -/
theorem none_live (holds : b.Holds owners content) (nobody : ∀ i, owners i = none)
    (ptr : Option ℕ) : b.read ptr = none := by
  cases read : b.read ptr with
  | none => rfl
  | some value =>
      obtain ⟨i, owner⟩ := holds.owned ptr (by simp [read])
      rw [nobody i] at owner
      subst owner
      simp at read

theorem live (holds : b.Holds owners content) {i : ι} {value : σ} (has : content i = some value) :
    (b.read (owners i)).isSome := by
  rw [holds.each i, has]
  rfl

/-- An owner with a value has a pointer. -/
theorem owning (holds : b.Holds owners content) {i : ι} {value : σ}
    (has : content i = some value) : owners i ≠ none := by
  intro null
  have live := holds.live has
  rw [null] at live
  simp at live

variable [DecidableEq ι]

/-- **A value boxed for an owner without a box.** -/
theorem intoRaw (holds : b.Holds owners content) {i : ι} (unowning : owners i = none) (value : σ) :
    (b.intoRaw value).2.Holds (Function.update owners i (b.intoRaw value).1)
      (Function.update content i (some value)) := by
  -- The new pointer is nobody's: the box behind it would have been live.
  have fresh : ∀ j, owners j ≠ (b.intoRaw value).1 := by
    intro j same
    have none_ := holds.each j
    rw [same, read_fresh] at none_
    have null := holds.null j none_.symm
    rw [same] at null
    cases null
  refine ⟨holds.sound, ?_, ?_, ?_, ?_⟩
  · intro j
    by_cases here : j = i
    · subst here
      simp [read_intoRaw]
    · simp [here, read_intoRaw, fresh j, holds.each j]
  · intro j none_
    by_cases here : j = i
    · subst here
      simp at none_
    · rw [Function.update_of_ne here] at none_ ⊢
      exact holds.null j none_
  · intro j k same ne
    by_cases first : j = i
    · by_cases second : k = i
      · rw [first, second]
      · subst first
        rw [Function.update_self, Function.update_of_ne second] at same
        exact absurd same.symm (fresh k)
    · by_cases second : k = i
      · subst second
        rw [Function.update_self, Function.update_of_ne first] at same
        exact absurd same (fresh j)
      · rw [Function.update_of_ne first, Function.update_of_ne second] at same
        rw [Function.update_of_ne first] at ne
        exact holds.apart j k same ne
  · intro ptr live
    rw [read_intoRaw] at live
    by_cases here : ptr = (b.intoRaw value).1
    · exact ⟨i, by rw [Function.update_self, here]⟩
    · rw [if_neg here] at live
      obtain ⟨j, owner⟩ := holds.owned ptr live
      have ne : j ≠ i := by
        rintro rfl
        rw [unowning] at owner
        subst owner
        simp at live
      exact ⟨j, by rw [Function.update_of_ne ne, owner]⟩

/-- **A write to the box of an owner.** -/
theorem write (holds : b.Holds owners content) {i : ι} {old : σ} (has : content i = some old)
    (value : σ) :
    (b.write (owners i) value).Holds owners (Function.update content i (some value)) := by
  have live := holds.live has
  refine ⟨?_, ?_, ?_, holds.apart, ?_⟩
  · rw [Boxes.write, misused_set live]
    exact holds.sound
  · intro j
    rw [Boxes.write, read_set live]
    by_cases here : j = i
    · subst here
      simp
    · have ne : owners j ≠ owners i := by
        intro same
        exact here (holds.apart i j same.symm (holds.owning has)).symm
      rw [if_neg ne, Function.update_of_ne here, holds.each j]
  · intro j none_
    by_cases here : j = i
    · subst here
      simp at none_
    · rw [Function.update_of_ne here] at none_
      exact holds.null j none_
  · intro ptr live'
    rw [Boxes.write, read_set live] at live'
    by_cases here : ptr = owners i
    · exact ⟨i, here.symm⟩
    · rw [if_neg here] at live'
      exact holds.owned ptr live'

/-- **The value of an owner taken out.** -/
theorem fromRaw (holds : b.Holds owners content) {i : ι} {old : σ} (has : content i = some old) :
    (b.fromRaw (owners i)).Holds (Function.update owners i none)
      (Function.update content i none) := by
  have live := holds.live has
  refine ⟨?_, ?_, ?_, ?_, ?_⟩
  · rw [Boxes.fromRaw, misused_set live]
    exact holds.sound
  · intro j
    by_cases here : j = i
    · subst here
      simp
    · have ne : owners j ≠ owners i := by
        intro same
        exact here (holds.apart i j same.symm (holds.owning has)).symm
      rw [Boxes.fromRaw, Function.update_of_ne here, Function.update_of_ne here, read_set live,
        if_neg ne, holds.each j]
  · intro j none_
    by_cases here : j = i
    · subst here
      simp
    · rw [Function.update_of_ne here] at none_ ⊢
      exact holds.null j none_
  · intro j k same ne
    by_cases first : j = i
    · subst first
      simp at ne
    · by_cases second : k = i
      · subst second
        rw [same, Function.update_self] at ne
        exact absurd rfl ne
      · rw [Function.update_of_ne first, Function.update_of_ne second] at same
        rw [Function.update_of_ne first] at ne
        exact holds.apart j k same ne
  · intro ptr live'
    rw [Boxes.fromRaw, read_set live] at live'
    by_cases here : ptr = owners i
    · simp [here] at live'
    · rw [if_neg here] at live'
      obtain ⟨j, owner⟩ := holds.owned ptr live'
      have ne : j ≠ i := by
        rintro rfl
        exact here owner.symm
      exact ⟨j, by rw [Function.update_of_ne ne, owner]⟩

end Holds

end Boxes

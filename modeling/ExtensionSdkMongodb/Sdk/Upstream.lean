import ExtensionSdkMongodb.Library.Machine
import ExtensionSdkMongodb.Sdk.StageContext

/-!
# Upstream stages over a run

The answers of an upstream in the order of the calls, and the first end: the answer at which an
upstream reports its end before it handed over any row.
-/

set_option autoImplicit false

namespace ExtensionSdkMongodb

/-- The answers of an upstream stage, as a machine that counts the calls. -/
def Upstream.answer (up : Upstream) : Machine ℕ Frame Reply :=
  fun k frame => ((up k).reply frame.result, k + 1)

namespace Upstream

/-- From an answer on, the upstream's first end is at a position and no row comes before it. -/
def EndsFirst (up : Upstream) (start k : ℕ) : Prop :=
  start ≤ k ∧ (up k).Ends ∧ ∀ j, start ≤ j → j < k → ¬ (up j).Ends ∧ ¬ (up j).Advances

theorem not_ends_of_advances {p : Pulled} (advances : p.Advances) : ¬ p.Ends := by
  cases p with
  | success _ _ result _ =>
      intro ends
      have code : result.code = .advanced := advances
      rw [Pulled.Ends, code] at ends
      cases ends
  | failure _ _ _ => exact advances.elim

theorem endsFirst_self {up : Upstream} {start : ℕ} (ends : (up start).Ends) :
    up.EndsFirst start start :=
  ⟨le_rfl, ends, fun _ from_start before => absurd before (Nat.not_lt.mpr from_start)⟩

/-- An answer that neither ends nor advances leaves the first end where it is. -/
theorem endsFirst_succ {up : Upstream} {start k : ℕ} (ends : ¬ (up start).Ends)
    (advances : ¬ (up start).Advances) : up.EndsFirst start k ↔ up.EndsFirst (start + 1) k := by
  constructor
  · rintro ⟨le, ended, before⟩
    have ne : start ≠ k := by
      rintro rfl
      exact ends ended
    exact ⟨by omega, ended, fun j from_start lt => before j (by omega) lt⟩
  · rintro ⟨le, ended, before⟩
    refine ⟨by omega, ended, ?_⟩
    intro j from_start lt
    rcases Nat.eq_or_lt_of_le from_start with rfl | later
    · exact ⟨ends, advances⟩
    · exact before j later lt

/-- After a row the upstream never ends first. -/
theorem not_endsFirst_of_advances {up : Upstream} {start k : ℕ} (advances : (up start).Advances) :
    ¬ up.EndsFirst start k := by
  rintro ⟨le, ended, before⟩
  rcases Nat.eq_or_lt_of_le le with rfl | later
  · exact not_ends_of_advances advances ended
  · exact (before start le_rfl later).2 advances

/-- A row that no end and no row comes before keeps every end from being the first. -/
theorem not_endsFirst_of_row {up : Upstream} {k : ℕ} (advances : (up k).Advances)
    (quiet : ∀ j < k, ¬ (up j).Ends ∧ ¬ (up j).Advances) (i : ℕ) : ¬ up.EndsFirst 0 i := by
  rintro ⟨-, ended, earlier⟩
  rcases Nat.lt_trichotomy i k with before | rfl | after
  · exact (quiet i before).1 ended
  · exact not_ends_of_advances advances ended
  · exact (earlier k (Nat.zero_le k) after).2 advances

/-- Of the ends that no row comes before, one is the first. -/
theorem exists_endsFirst {up : Upstream} {start k : ℕ} (le : start ≤ k) (ends : (up k).Ends)
    (rowless : ∀ j, start ≤ j → j < k → ¬ (up j).Advances) :
    ∃ j, j ≤ k ∧ up.EndsFirst start j := by
  induction k using Nat.strong_induction_on with
  | _ k ih =>
      by_cases earlier : ∃ j, start ≤ j ∧ j < k ∧ (up j).Ends
      · obtain ⟨j, from_start, before, ended⟩ := earlier
        obtain ⟨i, upTo, first⟩ := ih j before from_start ended
          fun l from_start' before' => rowless l from_start' (by omega)
        exact ⟨i, by omega, first⟩
      · refine ⟨k, le_rfl, le, ends, fun j from_start before => ⟨?_, rowless j from_start before⟩⟩
        intro ended
        exact earlier ⟨j, from_start, before, ended⟩

/-- There is only one first end. -/
theorem endsFirst_unique {up : Upstream} {start i j : ℕ} (first : up.EndsFirst start i)
    (second : up.EndsFirst start j) : i = j := by
  rcases Nat.lt_trichotomy i j with before | same | after
  · exact absurd first.2.1 (second.2.2 i first.1 before).1
  · exact same
  · exact absurd second.2.1 (first.2.2 j second.1 after).1

end Upstream

end ExtensionSdkMongodb

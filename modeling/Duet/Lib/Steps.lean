import Mathlib.Logic.Relation
import Mathlib.Order.Basic

/-!
# Runs of a step relation

Rules for systems that take one step after another: an invariant that every step
preserves holds after every run, and steps that decrease a measure lead to a final state
wherever a step is possible before it.
-/

namespace Duet.Lib

open Relation

universe u

variable {σ : Type u} {step : σ → σ → Prop} {I : σ → Prop} {measure : σ → Nat}

/-- What every step preserves holds after every run. -/
theorem invariant_of_run (preserved : ∀ s t, I s → step s t → I t) {s t : σ}
    (run : ReflTransGen step s t) (start : I s) : I t := by
  induction run with
  | refl => exact start
  | tail _ last ih => exact preserved _ _ ih last

/-- A run can be continued to a final state when every step decreases a measure. -/
theorem exists_final {Final : σ → Prop} (preserved : ∀ s t, I s → step s t → I t)
    (decreases : ∀ s t, I s → step s t → measure t < measure s)
    (progress : ∀ s, I s → ¬ Final s → ∃ t, step s t) {s : σ} (start : I s) :
    ∃ t, ReflTransGen step s t ∧ Final t := by
  induction size : measure s using Nat.strongRecOn generalizing s with
  | ind n ih =>
    by_cases final : Final s
    · exact ⟨s, .refl, final⟩
    · obtain ⟨t, next⟩ := progress s start final
      obtain ⟨u, run, done⟩ := ih _ (size ▸ decreases s t start next) (preserved s t start next) rfl
      exact ⟨u, .head next run, done⟩

/-- No run goes on forever when every step decreases a measure. -/
theorem no_infinite_run (preserved : ∀ s t, I s → step s t → I t)
    (decreases : ∀ s t, I s → step s t → measure t < measure s) (run : Nat → σ)
    (start : I (run 0)) : ¬ ∀ n, step (run n) (run (n + 1)) := by
  intro steps
  have holds : ∀ n, I (run n) := by
    intro n
    induction n with
    | zero => exact start
    | succ n ih => exact preserved _ _ ih (steps n)
  have spent : ∀ n, measure (run n) + n ≤ measure (run 0) := by
    intro n
    induction n with
    | zero => exact Nat.le_refl _
    | succ n ih =>
      have less := decreases _ _ (holds n) (steps n)
      omega
  have := spent (measure (run 0) + 1)
  omega

end Duet.Lib

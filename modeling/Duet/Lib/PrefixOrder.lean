import Mathlib.Data.List.Lex
import Mathlib.Order.Lattice

/-!
# Prefixes in the lexicographic order

The extensions of a list are consecutive in the lexicographic order: what lies between
two of them is one itself (`prefix_of_le_of_le`).
-/

namespace Duet.Lib

universe u

variable {α : Type u} [LinearOrder α]

theorem cons_le_cons_iff {a b : α} {l m : List α} :
    a :: l ≤ b :: m ↔ a < b ∨ a = b ∧ l ≤ m := by
  have flipped : b :: m < a :: l ↔ b < a ∨ b = a ∧ m < l := List.cons_lt_cons_iff
  rw [← not_lt, flipped, ← not_lt]
  rcases lt_trichotomy a b with below | rfl | above
  · simp [below, below.not_gt, below.ne']
  · simp
  · simp [above, above.not_gt, above.ne']

theorem not_cons_le_nil {a : α} {l : List α} : ¬ a :: l ≤ [] :=
  not_le.mpr (List.nil_lt_cons a l)

/-- A list comes before its extensions. -/
theorem le_of_isPrefix {p a : List α} (h : p <+: a) : p ≤ a := by
  obtain ⟨rest, rfl⟩ := h
  induction p with
  | nil => exact not_lt.mp (List.not_lt_nil _)
  | cons x p ih => exact cons_le_cons_iff.mpr (.inr ⟨rfl, ih⟩)

/-- The extensions of a list are consecutive. -/
theorem prefix_of_le_of_le {p a b c : List α} (left : p <+: a) (right : p <+: c)
    (above : a ≤ b) (below : b ≤ c) : p <+: b := by
  induction p generalizing a b c with
  | nil => exact List.nil_prefix
  | cons x p ih =>
    obtain ⟨a, rfl⟩ := left
    obtain ⟨c, rfl⟩ := right
    cases b with
    | nil => exact absurd above not_cons_le_nil
    | cons y b =>
      rw [List.cons_append, cons_le_cons_iff] at above below
      rcases above with lt | ⟨rfl, above⟩
      · rcases below with gt | ⟨rfl, -⟩
        · exact absurd (lt.trans gt) (lt_irrefl _)
        · exact absurd lt (lt_irrefl _)
      · rcases below with gt | ⟨-, below⟩
        · exact absurd gt (lt_irrefl _)
        · have between := ih (List.prefix_append p a) (List.prefix_append p c) above below
          exact (List.prefix_cons_inj x).mpr between

end Duet.Lib

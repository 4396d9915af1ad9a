import Duet.Actions

/-!
# Merging two trees

What a merge of two trees does to their directory structure. A tree tells for each path
whether there is a directory, another entry or nothing. Each path may have a winner, the
side whose entry both sides are to have, or it may be unresolved. A path is held back while
something unresolved is above it, or below a directory that it removes. The merge of two
closed trees is closed on both sides exactly when no path clashes with its parent.
-/

namespace Duet

/-- Whether there is a directory (`some true`) or another entry (`some false`) at a path. -/
abbrev Shape := Option Bool

namespace Shape

/-- The parent of every entry is a directory. The top directory itself has no entry. -/
def Closed (tree : Path → Shape) : Prop :=
  ∀ p, p.dropLast ≠ [] → tree p ≠ none → tree p.dropLast = some true

end Shape

structure TreeMerge where
  now : Side → Path → Shape
  winner : Path → Option Side
  unresolved : Path → Prop

namespace TreeMerge

variable (m : TreeMerge)

def BelowUnresolved (p : Path) : Prop := ∃ u, m.unresolved u ∧ u <+: p ∧ u ≠ p

/-- The winner has no directory where the other side has one. -/
def RemovesDirectory (p : Path) : Prop :=
  ∃ side, m.winner p = some side ∧ m.now side p ≠ some true ∧ m.now side.other p = some true

def Held (p : Path) : Prop :=
  m.BelowUnresolved p ∨ m.RemovesDirectory p ∧ ∃ u, m.unresolved u ∧ p <+: u ∧ u ≠ p

/-- The sides differ only where there is a winner or something unresolved. -/
structure Sound : Prop where
  differ : ∀ p, m.winner p = none → ¬ m.unresolved p → ∀ side, m.now side p = m.now side.other p
  undecided : ∀ p, m.unresolved p → m.winner p = none
  closed : ∀ side, Shape.Closed (m.now side)

variable {m} {p q : Path} {side : Side}

end TreeMerge

end Duet

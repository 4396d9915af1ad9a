import Duet.ConflictDependencies
import Duet.Convergence
import Duet.Orchestrator.TreeMerge
import Duet.Lib.PrefixOrder

/-!
# The structure of the merged plan

The plan of a synchronization is an instance of a merge of two trees: the winner of a path
is the side whose change the plan carries over, and a path is held back for the conflicts
that stay unresolved. So the trees are closed afterwards exactly when no path clashes with
its parent.
-/

namespace Duet

open Lib

/-- Whether an entry is a directory. -/
def shape (entry : Option DirEntryWithMeta) : Shape := entry.map DirEntryWithMeta.isDir

/-- The directory structure of a manifest. -/
def shapeAt (entries : Entries) (p : Path) : Shape := shape (entryAt p entries)

/-- The change of a side at a path. -/
def changeAt (saved current : Side → Entries) (side : Side) (p : Path) : Option Change :=
  lookup Change.path p (changes (saved side) (current side))

section Shapes

variable {x y : Option DirEntryWithMeta} {c : Change}

end Shapes

/-- The change that an action makes on a side. -/
def Action.changeFor : Side → Action → Option Change
  | .local => Action.appliedChange
  | .remote => Action.sentChange

/-- An action does at its path what the merge says. -/
structure Carries (m : TreeMerge) (p : Path) (a : Action) : Prop where
  paths : a.flip.path = a.path
  unresolved : a.isUnresolvedConflict = true ↔ m.unresolved p
  change : ∀ side c, a.changeFor side = some c →
    m.winner p = some side.other ∧ shape c.newEntry = m.now side.other p
  winner : ∀ side, m.winner p = some side.other → ∃ c, a.changeFor side = some c
  removes : m.winner p ≠ none → (actionRemovesDirectory a = true ↔ m.RemovesDirectory p)

section Decide

variable {strong : Bool} {choice : Path → Option Resolution} {saved current : Side → Entries}
  {p : Path}

end Decide

/-! ## The plan -/

section Plan

variable {strong : Bool} {choice : Path → Option Resolution} {saved current : Side → Entries}
  {p : Path}

end Plan

/-! ## Examples -/

/-- A manifest whose entries have their parents is closed. -/
theorem closed_of_entries {entries : Entries}
    (parents : ∀ e ∈ entries, e.path.dropLast ≠ [] → shapeAt entries e.path.dropLast = some true) :
    Shape.Closed (shapeAt entries) := by
  intro p below present
  cases found : entryAt p entries with
  | none => exact absurd (congrArg shape found) present
  | some e =>
    have path : e.path = p := key_of_lookup found
    exact path ▸ parents e (mem_of_lookup found) (path ▸ below)

end Duet

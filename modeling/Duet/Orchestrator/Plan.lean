import Duet.Resolution

/-!
# The action plan

The client matches the changes of the two sides into one sorted list of actions,
and holds back every action that depends on a conflict which stays unresolved.
-/

namespace Duet

open Lib

def buildActions (localChanges remoteChanges : List Change) (strong : Bool) : Actions :=
  (matchSorted Change.path localChanges remoteChanges).filterMap fun pair =>
    if strong then Action.createStrong pair.1 pair.2 else Action.create pair.1 pair.2

def changeRemovesDirectory : Change → Bool
  | .removed entry => entry.isDir
  | .modified old new => old.isDir && !new.isDir
  | .added _ => false

def actionRemovesDirectory : Action → Bool
  | .local change | .remote change => changeRemovesDirectory change
  | .resolvedLocal _ change | .resolvedRemote _ change => changeRemovesDirectory change
  | .identical l r => changeRemovesDirectory l || changeRemovesDirectory r
  | .conflict _ _ => false

/-- The paths of the unresolved conflicts, in action order. -/
def unresolvedPaths (actions : Actions) : List Path :=
  (actions.filter Action.isUnresolvedConflict).map Action.path

/-- Whether an action has to wait for an unresolved conflict: one at a proper
ancestor, or one below a directory that the action removes. The first unresolved path
after the action's own is where the source's `partition_point` stops. -/
def dependsOnUnresolved (unresolved : List Path) (action : Action) : Bool :=
  let belowUnresolved := (action.path.ancestors.drop 1).any unresolved.contains
  let firstDescendant := (unresolved.dropWhile fun conflict => conflict ≤ action.path).head?
  let removesUnresolvedSubtree := actionRemovesDirectory action &&
    firstDescendant.any fun conflict => conflict.startsWith action.path
  belowUnresolved || removesUnresolvedSubtree

/-- The actions that can be applied, and the paths that are skipped. -/
def filterUnresolvedConflictDependencies (actions : Actions) : Actions × List Path :=
  let unresolved := unresolvedPaths actions
  let settled := actions.filter fun action => !action.isUnresolvedConflict
  (settled.filter fun action => !dependsOnUnresolved unresolved action,
    (settled.filter fun action => dependsOnUnresolved unresolved action).map Action.path)

theorem filterUnresolved_sublist (actions : Actions) :
    (filterUnresolvedConflictDependencies actions).1.Sublist actions :=
  List.filter_sublist.trans List.filter_sublist

/-- No unresolved conflict is active. -/
theorem not_unresolved_of_active {actions : Actions} {a : Action}
    (mem : a ∈ (filterUnresolvedConflictDependencies actions).1) :
    a.isUnresolvedConflict = false := by
  simp only [filterUnresolvedConflictDependencies, List.mem_filter] at mem
  simpa using mem.1.2

/-- Without unresolved conflicts everything is carried out. -/
theorem active_of_resolved {actions : Actions}
    (resolved : ∀ a ∈ actions, a.isUnresolvedConflict = false) :
    (filterUnresolvedConflictDependencies actions).1 = actions := by
  have nothing : unresolvedPaths actions = [] := by
    rw [unresolvedPaths, List.filter_eq_nil_iff.mpr (by simpa using resolved)]
    rfl
  have settled : actions.filter (fun a => !a.isUnresolvedConflict) = actions :=
    List.filter_eq_self.mpr (by simpa using resolved)
  simp only [filterUnresolvedConflictDependencies, nothing, settled]
  apply List.filter_eq_self.mpr
  intro a mem
  simp [dependsOnUnresolved]

/-! ## The action of a path -/

/-- The comparison of two changes that a plan uses. -/
def sameFor (strong : Bool) (lc rc : Change) : Bool := if strong then sameStrong lc rc else same lc rc

def createFor (strong : Bool) (lc rc : Option Change) : Option Action :=
  if strong then Action.createStrong lc rc else Action.create lc rc

/-- How the action of a path comes from the changes of the two sides. -/
inductive Planned (strong : Bool) : Option Change → Option Change → Action → Prop where
  | remote (lc : Change) : Planned strong (some lc) none (.remote lc)
  | local (rc : Change) : Planned strong none (some rc) (.local rc)
  | identical (lc rc : Change) (same : sameFor strong lc rc = true) :
      Planned strong (some lc) (some rc) (.identical lc rc)
  | conflict (lc rc : Change) (differ : sameFor strong lc rc = false) :
      Planned strong (some lc) (some rc) (.conflict lc rc)

theorem planned_of_createFor {strong : Bool} {lc rc : Option Change} {a : Action}
    (created : createFor strong lc rc = some a) : Planned strong lc rc a := by
  cases lc with
  | none =>
    cases rc with
    | none => cases strong <;> cases created
    | some rc => cases strong <;> cases created <;> exact .local rc
  | some lc =>
    cases rc with
    | none => cases strong <;> cases created <;> exact .remote lc
    | some rc =>
      cases strong with
      | false =>
        simp only [createFor, Action.create, Bool.false_eq_true, if_false] at created
        split at created <;> cases created
        next same => exact .identical lc rc same
        next differ => exact .conflict lc rc (by simpa [sameFor] using differ)
      | true =>
        simp only [createFor, Action.createStrong, if_true] at created
        split at created <;> cases created
        next same => exact .identical lc rc same
        next differ => exact .conflict lc rc (by simpa [sameFor] using differ)

theorem createFor_keyed {strong : Bool} {lcs rcs : List Change} :
    ∀ pair ∈ matchSorted Change.path lcs rcs, ∀ a,
      (if strong then Action.createStrong pair.1 pair.2 else Action.create pair.1 pair.2) = some a →
        (a.path : WithBot Path) = pairKey Change.path pair := by
  rintro ⟨x, y⟩ mem a image
  cases planned_of_createFor image <;> rfl

section BuildActions

variable {strong : Bool} {lcs rcs : List Change} {p : Path}

theorem sortedBy_buildActions (sortedL : SortedBy Change.path lcs)
    (sortedR : SortedBy Change.path rcs) : SortedBy Action.path (buildActions lcs rcs strong) :=
  sortedBy_filterMap_matchSorted sortedL sortedR createFor_keyed

/-- The action at a path is the one of the two changes there. -/
theorem lookup_buildActions (sortedL : SortedBy Change.path lcs)
    (sortedR : SortedBy Change.path rcs) :
    lookup Action.path p (buildActions lcs rcs strong) =
      createFor strong (lookup Change.path p lcs) (lookup Change.path p rcs) :=
  lookup_filterMap_matchSorted sortedL sortedR createFor_keyed (by cases strong <;> rfl)

/-- Every action of a plan comes from the changes of its path. -/
theorem planned_of_mem_buildActions (sortedL : SortedBy Change.path lcs)
    (sortedR : SortedBy Change.path rcs) {a : Action} (mem : a ∈ buildActions lcs rcs strong) :
    Planned strong (lookup Change.path a.path lcs) (lookup Change.path a.path rcs) a := by
  have found := (sortedBy_buildActions sortedL sortedR).lookup_of_mem mem
  rw [lookup_buildActions sortedL sortedR] at found
  exact planned_of_createFor found

end BuildActions

end Duet

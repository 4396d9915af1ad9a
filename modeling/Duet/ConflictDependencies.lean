import Duet.Lib.PrefixOrder
import Duet.Orchestrator.Plan
import Mathlib.Algebra.Order.Ring.Nat
import Mathlib.Data.List.TakeWhile

/-!
# What an unresolved conflict holds back

The filter looks for unresolved conflicts above an action by the ancestors of its path, and
below it at the first conflict that follows the path in the order only. The second is enough
because what lies below a path is consecutive in the order of its components
(`prefix_of_le_of_le`).
-/

namespace Duet

open Lib

theorem mem_ancestors_drop {u p : Path} : u ∈ p.ancestors.drop 1 ↔ u <+: p ∧ u ≠ p := by
  induction p using List.reverseRecOn with
  | nil => simp [Path.ancestors]
  | append_singleton p c _ =>
    have inits : Path.ancestors (p ++ [c]) = (p ++ [c]) :: Path.ancestors p := by
      simp [Path.ancestors, List.inits_append]
    rw [inits, List.drop_one, List.tail_cons, Path.mem_ancestors]
    constructor
    · intro above
      refine ⟨above.trans (List.prefix_append p [c]), ?_⟩
      rintro rfl
      simpa using above.length_le
    · rintro ⟨above, ne⟩
      exact (List.prefix_concat_iff.mp above).resolve_left ne

/-- The first unresolved path after the action's own is below it if any is. -/
theorem dependsOnUnresolved_iff {unresolved : List Path} (sorted : unresolved.Pairwise (· < ·))
    {a : Action} : dependsOnUnresolved unresolved a = true ↔
      (∃ u ∈ unresolved, u <+: a.path ∧ u ≠ a.path) ∨
        actionRemovesDirectory a = true ∧ ∃ u ∈ unresolved, a.path <+: u ∧ u ≠ a.path := by
  have above : ((a.path.ancestors.drop 1).any unresolved.contains) = true ↔
      ∃ u ∈ unresolved, u <+: a.path ∧ u ≠ a.path := by
    simp only [List.any_eq_true, mem_ancestors_drop, List.contains_iff_mem]
    exact ⟨fun ⟨u, proper, mem⟩ => ⟨u, mem, proper⟩, fun ⟨u, mem, proper⟩ => ⟨u, proper, mem⟩⟩
  have below : ((unresolved.dropWhile fun conflict => conflict ≤ a.path).head?.any
      fun conflict => conflict.startsWith a.path) = true ↔
      ∃ u ∈ unresolved, a.path <+: u ∧ u ≠ a.path := by
    constructor
    · intro starts
      obtain ⟨u, first, starts⟩ := (Option.any_eq_true _ _).mp starts
      have later : ¬ u ≤ a.path := by
        have stops := List.head?_dropWhile_not (p := fun conflict : Path => decide (conflict ≤ a.path))
          (l := unresolved)
        rw [first] at stops
        simpa using stops
      refine ⟨u, (List.dropWhile_sublist _).subset (List.mem_of_head? first),
        Path.startsWith_iff.mp starts, ?_⟩
      rintro rfl
      exact later le_rfl
    · rintro ⟨u, mem, under, ne⟩
      have after : a.path < u := lt_of_le_of_ne (le_of_isPrefix under) ne.symm
      have kept : u ∈ unresolved.dropWhile fun conflict => conflict ≤ a.path := by
        rw [← List.takeWhile_append_dropWhile (p := fun conflict : Path => decide (conflict ≤ a.path))
          (l := unresolved)] at mem
        refine (List.mem_append.mp mem).resolve_left fun early => ?_
        have small := List.mem_takeWhile_imp
          (p := fun conflict : Path => decide (conflict ≤ a.path)) early
        exact absurd after (not_lt.mpr (by simpa using small))
      cases found : unresolved.dropWhile fun conflict => conflict ≤ a.path with
      | nil =>
        rw [found] at kept
        cases kept
      | cons v rest =>
        have least : v ≤ u := by
          have ordered := sorted.sublist (List.dropWhile_sublist (l := unresolved)
            fun conflict => decide (conflict ≤ a.path))
          rw [found] at ordered kept
          rcases List.mem_cons.mp kept with rfl | later
          · exact le_rfl
          · exact ((List.pairwise_cons.mp ordered).1 u later).le
        have stops := List.head?_dropWhile_not (p := fun conflict : Path => decide (conflict ≤ a.path))
          (l := unresolved)
        rw [found] at stops
        have beyond : a.path < v := by simpa using stops
        have starts := prefix_of_le_of_le (List.prefix_refl a.path) under beyond.le least
        simpa using Path.startsWith_iff.mpr starts
  simp only [dependsOnUnresolved, Bool.or_eq_true, Bool.and_eq_true, above, below]

/-! ## The specification -/

/-- A change that finds a directory and leaves none. -/
def Change.DropsDirectory (change : Change) : Prop :=
  (∃ old, change.oldEntry = some old ∧ old.isDir = true) ∧
    ∀ new, change.newEntry = some new → new.isDir = false

/-- An action that drops a directory, on either side for an identical one. -/
def Action.DropsDirectory : Action → Prop
  | .local change | .remote change => change.DropsDirectory
  | .resolvedLocal _ change | .resolvedRemote _ change => change.DropsDirectory
  | .identical l r => l.DropsDirectory ∨ r.DropsDirectory
  | .conflict _ _ => False

/-- An unresolved conflict lies strictly above the action, or strictly below it when the
action drops a directory. -/
def HeldBack (actions : Actions) (a : Action) : Prop :=
  ∃ conflict ∈ actions, conflict.isUnresolvedConflict = true ∧ conflict.path ≠ a.path ∧
    (conflict.path <+: a.path ∨ a.DropsDirectory ∧ a.path <+: conflict.path)

theorem changeRemovesDirectory_eq_true {change : Change} :
    changeRemovesDirectory change = true ↔ change.DropsDirectory := by
  cases change <;>
    simp [changeRemovesDirectory, Change.DropsDirectory, Change.oldEntry, Change.newEntry]

theorem actionRemovesDirectory_eq_true {a : Action} :
    actionRemovesDirectory a = true ↔ a.DropsDirectory := by
  cases a <;> simp [actionRemovesDirectory, Action.DropsDirectory, changeRemovesDirectory_eq_true]

section Filter

variable {actions : Actions} {a : Action}

theorem mem_unresolvedPaths {p : Path} : p ∈ unresolvedPaths actions ↔
    ∃ conflict ∈ actions, conflict.isUnresolvedConflict = true ∧ conflict.path = p := by
  simp [unresolvedPaths, and_assoc]

/-- The unresolved paths are in the order of the actions. -/
theorem pairwise_unresolvedPaths (sorted : SortedBy Action.path actions) :
    (unresolvedPaths actions).Pairwise (· < ·) :=
  List.pairwise_map.mpr (sorted.sublist List.filter_sublist)

/-- The filter holds back what the specification does. -/
theorem dependsOnUnresolved_eq_true (sorted : SortedBy Action.path actions) :
    dependsOnUnresolved (unresolvedPaths actions) a = true ↔ HeldBack actions a := by
  rw [dependsOnUnresolved_iff (pairwise_unresolvedPaths sorted), actionRemovesDirectory_eq_true]
  constructor
  · rintro (⟨u, mem, above, ne⟩ | ⟨drops, u, mem, below, ne⟩)
    · obtain ⟨conflict, inside, unresolved, rfl⟩ := mem_unresolvedPaths.mp mem
      exact ⟨conflict, inside, unresolved, ne, .inl above⟩
    · obtain ⟨conflict, inside, unresolved, rfl⟩ := mem_unresolvedPaths.mp mem
      exact ⟨conflict, inside, unresolved, ne, .inr ⟨drops, below⟩⟩
  · rintro ⟨conflict, inside, unresolved, ne, above | ⟨drops, below⟩⟩
    · exact .inl ⟨_, mem_unresolvedPaths.mpr ⟨conflict, inside, unresolved, rfl⟩, above, ne⟩
    · exact .inr ⟨drops, _, mem_unresolvedPaths.mpr ⟨conflict, inside, unresolved, rfl⟩, below, ne⟩

open Classical in
/-- The active actions are those that no unresolved conflict holds back, in their order,
and the skipped paths are those of the other actions that are no conflicts. -/
theorem conflictDependencies_exact (sorted : SortedBy Action.path actions) :
    filterUnresolvedConflictDependencies actions =
      (actions.filter fun a => a.isUnresolvedConflict = false ∧ ¬ HeldBack actions a,
        (actions.filter fun a => a.isUnresolvedConflict = false ∧ HeldBack actions a).map
          Action.path) := by
  have held : ∀ a, dependsOnUnresolved (unresolvedPaths actions) a = decide (HeldBack actions a) := by
    intro a
    rw [Bool.eq_iff_iff, dependsOnUnresolved_eq_true sorted, decide_eq_true_eq]
  unfold filterUnresolvedConflictDependencies
  dsimp only
  rw [List.filter_filter, List.filter_filter]
  congr 1
  · refine List.filter_congr fun a _ => ?_
    rw [held, Bool.eq_iff_iff]
    simp [and_comm]
  · congr 1
    refine List.filter_congr fun a _ => ?_
    rw [held, Bool.eq_iff_iff]
    simp [and_comm]

end Filter

/-- A conflict in a directory that was removed on the other side keeps the removal back. -/
theorem conflictDependencies_exact_below :
    let tree : DirEntryWithMeta := ⟨[.normal [116]], 0, 0, 1, 0o40755, none, true, 0, none⟩
    let file : DirEntryWithMeta := ⟨[.normal [116], .normal [99]], 1, 0, 2, 0o100644, none, false, 0, none⟩
    let actions : Actions :=
      [.remote (.removed tree), .conflict (.removed file) (.modified file { file with mtime := 5 })]
    (filterUnresolvedConflictDependencies actions).1 = [] ∧
      HeldBack actions (.remote (.removed tree)) := by
  intro tree file actions
  have sorted : SortedBy Action.path actions := by
    refine List.pairwise_cons.mpr ⟨?_, List.pairwise_singleton _ _⟩
    intro a mem
    cases List.mem_singleton.mp mem
    decide
  have exact := conflictDependencies_exact sorted
  have held : HeldBack actions (.remote (.removed tree)) := by
    refine ⟨_, List.mem_cons_of_mem _ List.mem_cons_self, rfl, by decide, .inr ⟨?_, ?_⟩⟩
    · exact ⟨⟨tree, rfl, rfl⟩, fun new isNew => by cases isNew⟩
    · exact ⟨[.normal [99]], rfl⟩
  refine ⟨?_, held⟩
  rw [exact]
  refine List.filter_eq_nil_iff.mpr ?_
  intro a mem
  rcases List.mem_cons.mp mem with rfl | last
  · simp [held]
  · cases List.mem_singleton.mp last
    simp [Action.isUnresolvedConflict]

end Duet

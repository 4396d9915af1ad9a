import Duet.Orchestrator.Plan
import Duet.State.Changes
import Mathlib.Data.List.Dedup

/-!
# The migration plan

Where a snapshot has no digests the changes of the two sides cannot be compared with each
other. The client then compares the whole current manifests: a path that one side lists as
changed is brought from there, and every other difference becomes a conflict.
-/

namespace Duet

open Lib

/-- The change of a side from its current entry to the one of the other side. -/
def migrationChange (old new : Option DirEntryWithMeta) : Option Change :=
  match old, new with
  | none, none => none
  | none, some new => some (.added new)
  | some old, none => some (.removed old)
  | some old, some new => some (.modified old new)

/-- The conflict between two current entries. Without any entry there is none, where the
source panics. -/
def migrationConflict (localEntry remoteEntry : Option DirEntryWithMeta) : Option Action :=
  match localEntry, remoteEntry with
  | some l, some r => some (.conflict (.modified r l) (.modified l r))
  | none, some r => some (.conflict (.removed r) (.modified r r))
  | some l, none => some (.conflict (.modified l l) (.removed l))
  | none, none => none

/-- Both sides have the same entry, or none. -/
def equivalent (localEntry remoteEntry : Option DirEntryWithMeta) : Bool :=
  match localEntry, remoteEntry with
  | none, none => true
  | some a, some b => sameStrong (.added a) (.added b)
  | _, _ => false

/-- The action for one path, from what the two sides have there and whether they list it
as changed. -/
def migrationAction (localChanged remoteChanged : Bool)
    (localEntry remoteEntry : Option DirEntryWithMeta) : Option Action :=
  match localChanged, remoteChanged, equivalent localEntry remoteEntry with
  | true, false, _ => (migrationChange remoteEntry localEntry).map .remote
  | false, true, _ => (migrationChange localEntry remoteEntry).map .local
  | true, true, true =>
    match localEntry, remoteEntry with
    | some a, some b => some (.identical (.added a) (.added b))
    | _, _ => none
  | true, true, false | false, false, false => migrationConflict localEntry remoteEntry
  | false, false, true => none

/-- All paths that a side has or lists as changed, in order and each of them once. -/
def migrationPaths (localChanges remoteChanges : List Change)
    (localCurrent remoteCurrent : Entries) : List Path :=
  (localCurrent.map DirEntryWithMeta.path ++ remoteCurrent.map DirEntryWithMeta.path ++
    localChanges.map Change.path ++ remoteChanges.map Change.path).dedup.mergeSort
      fun a b => a ≤ b

def buildMigrationActions (localChanges remoteChanges : List Change)
    (localCurrent remoteCurrent : Entries) : Actions :=
  (migrationPaths localChanges remoteChanges localCurrent remoteCurrent).filterMap fun path =>
    migrationAction (lookup Change.path path localChanges).isSome
      (lookup Change.path path remoteChanges).isSome (entryAt path localCurrent)
      (entryAt path remoteCurrent)

/-- What the client plans from the reports of the two sides, before conflicts are resolved. -/
def plannedActions (strong : Bool) (contextL contextR : State.ScanContext) : Actions :=
  if strong && (contextL.migrationNeeded || contextR.migrationNeeded) then
    buildMigrationActions contextL.changes contextR.changes contextL.current contextR.current
  else buildActions contextL.changes contextR.changes strong

theorem migrationChange_spec {old new : Option DirEntryWithMeta} {c : Change}
    (made : migrationChange old new = some c) : c.oldEntry = old ∧ c.newEntry = new := by
  cases old <;> cases new <;> cases made <;> exact ⟨rfl, rfl⟩

/-! ## The plan at one path -/

section MigrationPlan

variable {lcs rcs : List Change} {currentL currentR : Entries} {l r : Option DirEntryWithMeta}
  {p : Path} {left right : Bool} {a : Action}

theorem sorted_migrationPaths : SortedBy id (migrationPaths lcs rcs currentL currentR) := by
  unfold migrationPaths
  apply sortedBy_mergeSort
  rw [List.map_id]
  exact List.nodup_dedup _

theorem mem_migrationPaths : p ∈ migrationPaths lcs rcs currentL currentR ↔
    (entryAt p currentL).isSome ∨ (entryAt p currentR).isSome ∨
      (lookup Change.path p lcs).isSome ∨ (lookup Change.path p rcs).isSome := by
  simp only [migrationPaths, List.mem_mergeSort, List.mem_dedup, List.mem_append, List.mem_map,
    lookup_isSome_iff, or_assoc]

/-- Both sides name their changes and entries by path, so an action has the path that it
was made for. -/
theorem migrationAction_path (entryL : ∀ e ∈ l, e.path = p) (entryR : ∀ e ∈ r, e.path = p)
    (made : migrationAction left right l r = some a) : a.path = p ∧ a.flip.path = p := by
  cases l with
  | none =>
    cases r with
    | none => cases left <;> cases right <;> cases made
    | some r =>
      have path := entryR r rfl
      cases left <;> cases right <;> cases made <;> exact ⟨path, path⟩
  | some l =>
    have pathL := entryL l rfl
    cases r with
    | none => cases left <;> cases right <;> cases made <;> exact ⟨pathL, pathL⟩
    | some r =>
      have pathR := entryR r rfl
      unfold migrationAction at made
      cases left <;> cases right <;> cases same : equivalent (some l) (some r) <;>
        rw [same] at made <;> cases made <;>
        first | exact ⟨pathL, pathR⟩ | exact ⟨pathL, pathL⟩ | exact ⟨pathR, pathR⟩

theorem migrationActions_keyed :
    ∀ path ∈ migrationPaths lcs rcs currentL currentR, ∀ a,
      migrationAction (lookup Change.path path lcs).isSome (lookup Change.path path rcs).isSome
        (entryAt path currentL) (entryAt path currentR) = some a → a.path = id path :=
  fun _ _ _ made => (migrationAction_path (fun _ found => key_of_lookup found)
    (fun _ found => key_of_lookup found) made).1

theorem sorted_buildMigrationActions :
    SortedBy Action.path (buildMigrationActions lcs rcs currentL currentR) :=
  sorted_migrationPaths.filterMap migrationActions_keyed

/-- The migration plan at one path, be it named by one of the lists or not. -/
theorem lookup_buildMigrationActions :
    lookup Action.path p (buildMigrationActions lcs rcs currentL currentR) =
      migrationAction (lookup Change.path p lcs).isSome (lookup Change.path p rcs).isSome
        (entryAt p currentL) (entryAt p currentR) := by
  unfold buildMigrationActions
  rw [sorted_migrationPaths.lookup_filterMap migrationActions_keyed]
  cases found : lookup id p (migrationPaths lcs rcs currentL currentR) with
  | some path =>
    cases key_of_lookup found
    rfl
  | none =>
    have absent : p ∉ migrationPaths lcs rcs currentL currentR :=
      fun mem => lookup_eq_none_iff.mp found p mem rfl
    simp only [mem_migrationPaths, not_or, Option.not_isSome_iff_eq_none] at absent
    obtain ⟨entryL, entryR, changeL, changeR⟩ := absent
    rw [entryL, entryR, changeL, changeR]
    rfl

end MigrationPlan

end Duet

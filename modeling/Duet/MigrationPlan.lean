import Duet.Convergence
import Duet.Orchestrator.Migration
import Duet.State.Scanned

/-!
# The migration plan is sound

A migration compares the current manifests of the two sides as they are.
`buildMigrationActions_sound` says that its plan, with every conflict resolved one way or
the other, brings both sides to the same state at every path, that no change of a side is
overwritten but through a conflict, and that the manifests of the scope agree afterwards.

`migrationAction_cases` inverts the plan at one path, and everything else is read off it.
-/

namespace Duet

open Lib

/-! ## Equivalent entries -/

section Equivalent

variable {l r : Option DirEntryWithMeta} {ino : UInt64}

theorem sameStrong_self {e : DirEntryWithMeta} (digest : e.isFile = true → e.digest.isSome) :
    sameStrong (.added e) (.added e) = true := by
  cases file : e.isFile with
  | false => simp [sameStrong, sameWithFileContents, file]
  | true =>
    obtain ⟨d, isDigest⟩ := Option.isSome_iff_exists.mp (digest file)
    simp [sameStrong, sameWithFileContents, isDigest]

/-- A fresh inode does not disturb equivalence. -/
theorem equivalent_setIno (digest : ∀ e ∈ l, e.isFile = true → e.digest.isSome) :
    equivalent l (l.map (·.setIno ino)) = true ∧ equivalent (l.map (·.setIno ino)) l = true := by
  cases l with
  | none => exact ⟨rfl, rfl⟩
  | some e =>
    have same := sameStrong_self (digest e rfl)
    exact ⟨same, same⟩

end Equivalent

/-! ## The plan at one path -/

/-- What a migration action is at a path with the current entries `l` and `r`. -/
inductive IsMigration (localChanged remoteChanged : Bool) (l r : Option DirEntryWithMeta) :
    Action → Prop
  | remote {c} (changed : localChanged = true) (unchanged : remoteChanged = false)
      (old : c.oldEntry = r) (new : c.newEntry = l) :
      IsMigration localChanged remoteChanged l r (.remote c)
  | local {c} (unchanged : localChanged = false) (changed : remoteChanged = true)
      (old : c.oldEntry = l) (new : c.newEntry = r) :
      IsMigration localChanged remoteChanged l r (.local c)
  | identical {lc rc} (left : lc.newEntry = l) (right : rc.newEntry = r)
      (same : equivalent l r = true) :
      IsMigration localChanged remoteChanged l r (.identical lc rc)
  | conflict {lc rc} (differ : equivalent l r = false)
      (toLocal : ∃ c, resolveToLocal lc rc = some c ∧ c.oldEntry = l ∧ c.newEntry = r ∧
        c.path = lc.path)
      (toRemote : ∃ c, resolveToRemote lc rc = some c ∧ c.oldEntry = r ∧ c.newEntry = l ∧
        c.path = lc.path) :
      IsMigration localChanged remoteChanged l r (.conflict lc rc)

section OnePath

variable {left right : Bool} {l r : Option DirEntryWithMeta} {a : Action} {p : Path}

/-- A migration conflict can be resolved both ways, by a change from the current entry of
the side that gives way to the one of the other side. -/
theorem migrationConflict_cases (entryL : ∀ e ∈ l, e.path = p) (entryR : ∀ e ∈ r, e.path = p)
    (differ : equivalent l r = false) (made : migrationConflict l r = some a) :
    IsMigration left right l r a := by
  cases l with
  | none =>
    cases r with
    | none => cases made
    | some r => cases made; exact .conflict differ ⟨_, rfl, rfl, rfl, rfl⟩ ⟨_, rfl, rfl, rfl, rfl⟩
  | some l =>
    cases r with
    | none => cases made; exact .conflict differ ⟨_, rfl, rfl, rfl, rfl⟩ ⟨_, rfl, rfl, rfl, rfl⟩
    | some r =>
      have samePath : r.path = l.path := (entryR r rfl).trans (entryL l rfl).symm
      cases made
      exact .conflict differ ⟨_, rfl, rfl, rfl, samePath⟩ ⟨_, rfl, rfl, rfl, rfl⟩

theorem migrationAction_cases (entryL : ∀ e ∈ l, e.path = p) (entryR : ∀ e ∈ r, e.path = p)
    (made : migrationAction left right l r = some a) : IsMigration left right l r a := by
  unfold migrationAction at made
  split at made
  · obtain ⟨c, isChange, rfl⟩ := Option.map_eq_some_iff.mp made
    obtain ⟨old, new⟩ := migrationChange_spec isChange
    exact .remote rfl rfl old new
  · obtain ⟨c, isChange, rfl⟩ := Option.map_eq_some_iff.mp made
    obtain ⟨old, new⟩ := migrationChange_spec isChange
    exact .local rfl rfl old new
  · next same =>
    split at made
    · cases made
      exact .identical rfl rfl same
    · cases made
  · next differ => exact migrationConflict_cases entryL entryR differ made
  · next differ => exact migrationConflict_cases entryL entryR differ made
  · cases made

/-- Where the plan has no action, both sides have the same already. -/
theorem equivalent_of_no_migration (none : migrationAction left right l r = none) :
    equivalent l r = true := by
  unfold migrationAction at none
  split at none
  · cases l <;> cases r <;> first | rfl | cases none
  · cases l <;> cases r <;> first | rfl | cases none
  · next same => exact same
  · next differ => cases l <;> cases r <;> first | rfl | cases none
  · next differ => cases l <;> cases r <;> first | rfl | cases none
  · next same => exact same

/-- Two different states that no side lists as changed are a conflict. -/
theorem migrationAction_of_unlisted (differ : equivalent l r = false) :
    ∃ a, migrationAction false false l r = some a ∧ a.isUnresolvedConflict = true := by
  cases l with
  | none =>
    cases r with
    | none => cases differ
    | some r => exact ⟨_, rfl, rfl⟩
  | some l =>
    cases r with
    | none => exact ⟨_, rfl, rfl⟩
    | some r =>
      unfold migrationAction
      rw [differ]
      exact ⟨_, rfl, rfl⟩

/-- A settled migration action: the change of one side to the current entry of the other,
or the same entry on both. -/
def Migrates (l r : Option DirEntryWithMeta) : Action → Prop
  | .local c | .resolvedLocal _ c => c.oldEntry = l ∧ c.newEntry = r
  | .remote c | .resolvedRemote _ c => c.oldEntry = r ∧ c.newEntry = l
  | .identical lc rc => lc.newEntry = l ∧ rc.newEntry = r ∧ equivalent l r = true
  | .conflict _ _ => False

theorem Migrates.records (h : Migrates l r a) : Records l a ∧ Records r a.flip := by
  cases a with
  | «local» c | resolvedLocal pair c => exact ⟨trivial, h.2⟩
  | remote c | resolvedRemote pair c => exact ⟨h.2, trivial⟩
  | identical lc rc => exact ⟨h.1, h.2.1⟩
  | conflict lc rc => cases h

theorem Migrates.settled (h : Migrates l r a) : a.isUnresolvedConflict = false := by
  cases a with
  | conflict lc rc => cases h
  | _ => rfl

/-- Both sides have the same state after a migration action was carried out. -/
theorem Migrates.carryOut_equivalent {inoL inoR : Path → UInt64} (h : Migrates l r a)
    (digestL : ∀ e ∈ l, e.isFile = true → e.digest.isSome)
    (digestR : ∀ e ∈ r, e.isFile = true → e.digest.isSome) :
    equivalent (carryOut inoL a l) (carryOut inoR a.flip r) = true := by
  cases a with
  | «local» c | resolvedLocal pair c =>
    obtain ⟨-, rfl⟩ := h
    exact (equivalent_setIno digestR).2
  | remote c | resolvedRemote pair c =>
    obtain ⟨-, rfl⟩ := h
    exact (equivalent_setIno digestL).1
  | identical lc rc => exact h.2.2
  | conflict lc rc => cases h

/-- Every migration action settles once a choice is made for each conflict. -/
theorem IsMigration.resolved (h : IsMigration left right l r a) (paths : a.flip.path = a.path)
    (choice : Path → Resolution) :
    let a' := resolvedAction (fun p => some (choice p)) a
    resolveChosen (fun p => some (choice p)) a = some a' ∧ a'.path = a.path ∧
      a'.flip.path = a'.path ∧ Migrates l r a' := by
  cases h with
  | remote changed unchanged old new => exact ⟨rfl, rfl, rfl, old, new⟩
  | «local» unchanged changed old new => exact ⟨rfl, rfl, rfl, old, new⟩
  | identical left right same => exact ⟨rfl, rfl, paths, left, right, same⟩
  | @conflict lc rc differ toLocal toRemote =>
    obtain ⟨cl, resolvesL, oldL, newL, pathL⟩ := toLocal
    obtain ⟨cr, resolvesR, oldR, newR, pathR⟩ := toRemote
    unfold resolvedAction resolveChosen
    cases chosen : choice (Action.conflict lc rc).path with
    | «local» =>
      simp only [chosen, resolveAction, resolvesL, Option.map_some, Option.getD_some]
      exact ⟨trivial, pathL, rfl, oldL, newL⟩
    | remote =>
      simp only [chosen, resolveAction, resolvesR, Option.map_some, Option.getD_some]
      exact ⟨trivial, pathR, rfl, oldR, newR⟩

end OnePath

/-! ## The whole plan -/

/-- The lists that a migration is planned from: sorted, with digests for the current files,
and with changes that say of a current manifest whether it has their paths. -/
structure MigrationInput (lcs rcs : List Change) (currentL currentR : Entries) : Prop where
  sortedChangesL : SortedBy Change.path lcs
  sortedChangesR : SortedBy Change.path rcs
  sortedL : SortedEntries currentL
  sortedR : SortedEntries currentR
  digestsL : CarriesDigests currentL
  digestsR : CarriesDigests currentR
  consistentL : ∀ c ∈ lcs, c.newEntry.isSome = (entryAt c.path currentL).isSome
  consistentR : ∀ c ∈ rcs, c.newEntry.isSome = (entryAt c.path currentR).isSome

/-- The migration plan after a choice was made for every conflict. -/
def migratedPlan (choice : Path → Resolution) (plan : Actions) : Actions :=
  plan.map (resolvedAction fun p => some (choice p))

section Plan

variable {lcs rcs : List Change} {currentL currentR : Entries} {choice : Path → Resolution}
  {a : Action} {p : Path}

theorem isMigration_of_mem (mem : a ∈ buildMigrationActions lcs rcs currentL currentR) :
    IsMigration (lookup Change.path a.path lcs).isSome (lookup Change.path a.path rcs).isSome
      (entryAt a.path currentL) (entryAt a.path currentR) a ∧ a.flip.path = a.path := by
  have found := sorted_buildMigrationActions.lookup_of_mem mem
  rw [lookup_buildMigrationActions] at found
  have entryL : ∀ e ∈ entryAt a.path currentL, e.path = a.path := fun e here => key_of_lookup here
  have entryR : ∀ e ∈ entryAt a.path currentR, e.path = a.path := fun e here => key_of_lookup here
  exact ⟨migrationAction_cases entryL entryR found, (migrationAction_path entryL entryR found).2⟩

theorem resolveConflicts_migration :
    resolveConflicts (fun p => some (choice p)) (buildMigrationActions lcs rcs currentL currentR) =
      some (migratedPlan choice (buildMigrationActions lcs rcs currentL currentR)) := by
  apply resolveConflicts_eq_map
  intro a mem
  obtain ⟨migration, paths⟩ := isMigration_of_mem mem
  exact (migration.resolved paths choice).1

theorem migrated_keyed : ∀ a ∈ buildMigrationActions lcs rcs currentL currentR,
    (resolvedAction (fun p => some (choice p)) a).path = a.path := by
  intro a mem
  obtain ⟨migration, paths⟩ := isMigration_of_mem mem
  exact (migration.resolved paths choice).2.1

theorem sorted_migratedPlan :
    SortedBy Action.path
      (migratedPlan choice (buildMigrationActions lcs rcs currentL currentR)) :=
  sorted_buildMigrationActions.map migrated_keyed

theorem lookup_migratedPlan :
    lookup Action.path p (migratedPlan choice (buildMigrationActions lcs rcs currentL currentR)) =
      (lookup Action.path p (buildMigrationActions lcs rcs currentL currentR)).map
        (resolvedAction fun p => some (choice p)) :=
  sorted_buildMigrationActions.lookup_map migrated_keyed

/-- Every action of the resolved plan migrates its path. -/
theorem migrates_of_mem
    (mem : a ∈ migratedPlan choice (buildMigrationActions lcs rcs currentL currentR)) :
    Migrates (entryAt a.path currentL) (entryAt a.path currentR) a ∧ a.flip.path = a.path := by
  obtain ⟨b, inPlan, rfl⟩ := List.mem_map.mp mem
  obtain ⟨migration, paths⟩ := isMigration_of_mem inPlan
  obtain ⟨-, path, flips, migrates⟩ := migration.resolved paths choice
  rw [path]
  exact ⟨migrates, flips.trans path⟩

theorem migrated_flip_keyed :
    ∀ a ∈ migratedPlan choice (buildMigrationActions lcs rcs currentL currentR),
      a.flip.path = a.path :=
  fun _ mem => (migrates_of_mem mem).2

theorem sorted_reverse_migratedPlan :
    SortedBy Action.path
      (reverse (migratedPlan choice (buildMigrationActions lcs rcs currentL currentR))) :=
  sorted_migratedPlan.map migrated_flip_keyed

theorem lookup_reverse_migratedPlan :
    lookup Action.path p
        (reverse (migratedPlan choice (buildMigrationActions lcs rcs currentL currentR))) =
      (lookup Action.path p
        (migratedPlan choice (buildMigrationActions lcs rcs currentL currentR))).map Action.flip :=
  sorted_migratedPlan.lookup_map migrated_flip_keyed

/-- With every conflict resolved the whole plan is carried out. -/
theorem active_migratedPlan :
    (filterUnresolvedConflictDependencies
      (migratedPlan choice (buildMigrationActions lcs rcs currentL currentR))).1 =
        migratedPlan choice (buildMigrationActions lcs rcs currentL currentR) :=
  active_of_resolved fun _ mem => (migrates_of_mem mem).1.settled

/-- Where the resolved plan has no action, the current entries are equivalent. -/
theorem equivalent_of_unplanned
    (absent : lookup Action.path p
      (migratedPlan choice (buildMigrationActions lcs rcs currentL currentR)) = none) :
    equivalent (entryAt p currentL) (entryAt p currentR) = true := by
  rw [lookup_migratedPlan, Option.map_eq_none_iff, lookup_buildMigrationActions] at absent
  exact equivalent_of_no_migration absent

/-- What the plan leaves at a path is equivalent on the two sides. -/
theorem MigrationInput.carryOut_equivalent (h : MigrationInput lcs rcs currentL currentR)
    (inoL inoR : Path → UInt64)
    (found : lookup Action.path p
      (migratedPlan choice (buildMigrationActions lcs rcs currentL currentR)) = some a) :
    equivalent (carryOut inoL a (entryAt p currentL)) (carryOut inoR a.flip (entryAt p currentR)) =
      true := by
  have migrates := (migrates_of_mem (mem_of_lookup found)).1
  rw [key_of_lookup found] at migrates
  exact migrates.carryOut_equivalent (fun e here => h.digestsL e (mem_of_lookup here))
    fun e here => h.digestsR e (mem_of_lookup here)

/-- The trees of the two sides after the plan was carried out. -/
theorem MigrationInput.appliedTree_equivalent (h : MigrationInput lcs rcs currentL currentR)
    (inoL inoR : Path → UInt64) :
    let P := migratedPlan choice (buildMigrationActions lcs rcs currentL currentR)
    equivalent (entryAt p (appliedTree inoL currentL P))
      (entryAt p (appliedTree inoR currentR (reverse P))) = true := by
  intro P
  rw [entryAt_appliedTree h.sortedL sorted_migratedPlan,
    entryAt_appliedTree h.sortedR sorted_reverse_migratedPlan, lookup_reverse_migratedPlan]
  cases found : lookup Action.path p P with
  | none => exact equivalent_of_unplanned found
  | some a => exact h.carryOut_equivalent inoL inoR found

/-- A path that neither side has is not planned. -/
theorem unplanned_of_absent (absentL : entryAt p currentL = none)
    (absentR : entryAt p currentR = none) :
    lookup Action.path p
      (migratedPlan choice (buildMigrationActions lcs rcs currentL currentR)) = none := by
  rw [lookup_migratedPlan, lookup_buildMigrationActions, absentL, absentR]
  cases (lookup Change.path p lcs).isSome <;> cases (lookup Change.path p rcs).isSome <;> rfl

/-- The manifest of one side after a migration: the tree within the scope, and the saved
entries outside of it. -/
theorem migratedManifest_spec {scope : ScanScope} {saved current : Entries} {P : Actions}
    (ino : Path → UInt64) (sortedSaved : SortedEntries saved) (sorted : SortedEntries current)
    (within : ∀ e ∈ current, scope.selected e.path = true) (sortedP : SortedBy Action.path P)
    (records : ∀ a ∈ P, Records (entryAt a.path current) a)
    (inScope : ∀ p, scope.selected p = false → lookup Action.path p P = none) :
    ∃ merged,
      mergeStagedManifest (replaceScope saved scope current) P (localResults ino P) = .ok merged ∧
      SortedEntries merged ∧ ∀ p, entryAt p merged =
        if scope.selected p then entryAt p (appliedTree ino current P) else entryAt p saved := by
  obtain ⟨sortedBase, baseAt⟩ := replaceScope_spec sortedSaved sorted within
  obtain ⟨merged, isMerged, sortedMerged, entries⟩ :=
    mergeStagedManifest_spec current ino sortedBase sortedP records
  refine ⟨merged, isMerged, sortedMerged, fun p => ?_⟩
  rw [entries, baseAt]
  cases selected : scope.selected p with
  | true =>
    rw [entryAt_appliedTree sorted sortedP]
    rfl
  | false =>
    rw [inScope p selected]
    rfl

end Plan

/-- The migration plan is sound. It is sorted by path, so that it has at most one action for
each; a change of a side is overwritten only through a conflict; a difference that no side
lists as changed is a conflict; and a conflict is resolved by a change from the current
entry of the side that gives way. However the conflicts are resolved, the two trees are
equivalent at every path afterwards, and the merged manifests of the scope describe them. -/
theorem buildMigrationActions_sound {lcs rcs : List Change} {currentL currentR : Entries}
    (h : MigrationInput lcs rcs currentL currentR) :
    let plan := buildMigrationActions lcs rcs currentL currentR
    SortedBy Action.path plan ∧
      (∀ a ∈ plan, (a.appliedChange.isSome → lookup Change.path a.path lcs = none) ∧
        (a.sentChange.isSome → lookup Change.path a.path rcs = none)) ∧
      (∀ p, lookup Change.path p lcs = none → lookup Change.path p rcs = none →
        equivalent (entryAt p currentL) (entryAt p currentR) = false →
          ∃ lc rc, Action.conflict lc rc ∈ plan ∧ lc.path = p ∧ rc.path = p) ∧
      (∀ lc rc, Action.conflict lc rc ∈ plan →
        (∃ c, resolveAction (.conflict lc rc) .local = some (.resolvedLocal (lc, rc) c) ∧
          c.path = lc.path ∧ c.oldEntry = entryAt lc.path currentL ∧
          c.newEntry = entryAt lc.path currentR) ∧
        ∃ c, resolveAction (.conflict lc rc) .remote = some (.resolvedRemote (lc, rc) c) ∧
          c.path = lc.path ∧ c.oldEntry = entryAt lc.path currentR ∧
          c.newEntry = entryAt lc.path currentL) ∧
      ∀ choice : Path → Resolution, ∃ P,
        resolveConflicts (fun p => some (choice p)) plan = some P ∧
        (filterUnresolvedConflictDependencies P).1 = P ∧
        ∀ inoL inoR : Path → UInt64,
          let treeL := appliedTree inoL currentL P
          let treeR := appliedTree inoR currentR (reverse P)
          (∀ p, equivalent (entryAt p treeL) (entryAt p treeR) = true) ∧
          ∀ (scope : ScanScope) (savedL savedR : Entries),
            SortedEntries savedL → SortedEntries savedR →
            (∀ e ∈ currentL ++ currentR, scope.selected e.path = true) →
            ∃ newL newR,
              mergeStagedManifest (replaceScope savedL scope currentL) P (localResults inoL P) =
                .ok newL ∧
              mergeStagedManifest (replaceScope savedR scope currentR) (reverse P)
                (localResults inoR (reverse P)) = .ok newR ∧
              SortedEntries newL ∧ SortedEntries newR ∧
              (∀ p, scope.selected p = true →
                entryAt p newL = entryAt p treeL ∧ entryAt p newR = entryAt p treeR ∧
                equivalent (entryAt p newL) (entryAt p newR) = true) ∧
              ∀ p, scope.selected p = false →
                entryAt p newL = entryAt p savedL ∧ entryAt p newR = entryAt p savedR := by
  intro plan
  refine ⟨sorted_buildMigrationActions, ?_, ?_, ?_, ?_⟩
  · intro a mem
    obtain ⟨migration, -⟩ := isMigration_of_mem mem
    cases migration with
    | remote changed unchanged old new =>
      exact ⟨fun applied => absurd applied Bool.false_ne_true, fun _ => by simpa using unchanged⟩
    | «local» unchanged changed old new =>
      exact ⟨fun _ => by simpa using unchanged, fun sent => absurd sent Bool.false_ne_true⟩
    | identical left right same | conflict differ toLocal toRemote =>
      exact ⟨fun applied => absurd applied Bool.false_ne_true,
        fun sent => absurd sent Bool.false_ne_true⟩
  · intro p unlistedL unlistedR differ
    obtain ⟨a, made, conflict⟩ := migrationAction_of_unlisted differ
    have found : lookup Action.path p plan = some a := by
      rw [lookup_buildMigrationActions, unlistedL, unlistedR]
      exact made
    obtain ⟨-, flips⟩ := isMigration_of_mem (mem_of_lookup found)
    cases a with
    | conflict lc rc =>
      have path := key_of_lookup found
      exact ⟨lc, rc, mem_of_lookup found, path, flips.trans path⟩
    | _ => cases conflict
  · intro lc rc mem
    obtain ⟨migration, -⟩ := isMigration_of_mem mem
    cases migration with
    | conflict differ toLocal toRemote =>
      obtain ⟨cl, resolvesL, oldL, newL, pathL⟩ := toLocal
      obtain ⟨cr, resolvesR, oldR, newR, pathR⟩ := toRemote
      exact ⟨⟨cl, by simp [resolveAction, resolvesL], pathL, oldL, newL⟩,
        ⟨cr, by simp [resolveAction, resolvesR], pathR, oldR, newR⟩⟩
  · intro choice
    refine ⟨_, resolveConflicts_migration, active_migratedPlan, ?_⟩
    intro inoL inoR treeL treeR
    have same : ∀ p, equivalent (entryAt p treeL) (entryAt p treeR) = true :=
      fun p => h.appliedTree_equivalent inoL inoR
    refine ⟨same, ?_⟩
    intro scope savedL savedR sortedSavedL sortedSavedR within
    have absent : ∀ {current : Entries}, (∀ e ∈ current, e ∈ currentL ++ currentR) →
        ∀ p, scope.selected p = false → entryAt p current = none := by
      intro current part p outside
      apply lookup_eq_none_iff.mpr
      rintro e mem rfl
      rw [within e (part e mem)] at outside
      cases outside
    have inScope : ∀ p, scope.selected p = false →
        lookup Action.path p (migratedPlan choice plan) = none := fun p outside =>
      unplanned_of_absent (absent (fun e => List.mem_append_left _) p outside)
        (absent (fun e => List.mem_append_right _) p outside)
    obtain ⟨newL, mergedL, sortedNewL, entryL⟩ :=
      migratedManifest_spec inoL sortedSavedL h.sortedL
        (fun e mem => within e (List.mem_append_left _ mem)) sorted_migratedPlan
        (fun a mem => (migrates_of_mem mem).1.records.1) inScope
    obtain ⟨newR, mergedR, sortedNewR, entryR⟩ :=
      migratedManifest_spec inoR sortedSavedR h.sortedR
        (fun e mem => within e (List.mem_append_right _ mem)) sorted_reverse_migratedPlan
        (by
          intro a mem
          obtain ⟨b, inPlan, rfl⟩ := List.mem_map.mp mem
          obtain ⟨migrates, flips⟩ := migrates_of_mem inPlan
          rw [flips]
          exact migrates.records.2)
        (by
          intro p outside
          rw [lookup_reverse_migratedPlan, inScope p outside]
          rfl)
    refine ⟨newL, newR, mergedL, mergedR, sortedNewL, sortedNewR, ?_, ?_⟩
    · intro p selected
      rw [entryL, entryR, if_pos selected, if_pos selected]
      exact ⟨rfl, rfl, same p⟩
    · intro p outside
      rw [entryL, entryR, outside]
      exact ⟨rfl, rfl⟩

/-- A file that differs without being listed, next to one that the local side added. -/
theorem buildMigrationActions_sound_differing :
    let file := fun (name content : UInt8) => DirEntryWithMeta.mk
      [.normal [name]] 1 0 7 0o100644 none false 0 (some ⟨Vector.replicate 32 content⟩)
    let lcs := [Change.added (file 98 1)]
    let currentL := [file 97 1, file 98 1]
    let currentR := [file 97 2]
    let plan := buildMigrationActions lcs [] currentL currentR
    MigrationInput lcs [] currentL currentR ∧
      (∃ lc rc, Action.conflict lc rc ∈ plan ∧ lc.path = [.normal [97]] ∧ rc.path = [.normal [97]]) ∧
      ∃ P, resolveConflicts (fun _ => some .remote) plan = some P ∧
        equivalent (entryAt [.normal [97]] (appliedTree (fun _ => 8) currentL P))
          (entryAt [.normal [97]] (appliedTree (fun _ => 9) currentR (reverse P))) = true := by
  intro file lcs currentL currentR plan
  have h : MigrationInput lcs [] currentL currentR := by
    refine ⟨by decide, .nil, by decide, by decide, ?_, ?_, by decide, by simp⟩ <;>
      simp [CarriesDigests, currentL, currentR, file]
  obtain ⟨-, -, unlisted, -, resolves⟩ := buildMigrationActions_sound h
  obtain ⟨P, resolved, -, sound⟩ := resolves fun _ => .remote
  exact ⟨h, unlisted [.normal [97]] (by decide) rfl (by decide), P, resolved,
    (sound (fun _ => 8) fun _ => 9).1 _⟩

end Duet

import Duet.Actions
import Duet.Lib.MergeUpdates

/-!
# Merging a committed plan into a manifest

After a commit the old manifest of a side is merged with the actions of the plan.
Where the side applied a change itself the new entry is the one it found on disk, in
the result slot of the action; elsewhere it is the entry of the change.
-/

namespace Duet

open Lib

/-- How a merge fails, with the data of the source's messages. -/
inductive MergeError where
  | slotCount (expected got : Nat)
  | unexpectedResult (index : Nat) (path : Path)
  | missingResult (index : Nat)
deriving DecidableEq

/-- Whether an action must come with a result of its local mutation. -/
def expectsLocalResult (action : Action) : Bool :=
  match action.appliedChange with
  | some (.added _) | some (.modified _ _) => true
  | _ => false

/-- What one action, its result slot and its index leave of the matched old entry. -/
def mergeAction (slot : (Action × Option DirEntryWithMeta) × Nat)
    (matchedOld : Option DirEntryWithMeta) : Except MergeError (Option DirEntryWithMeta) :=
  let ((action, localResult), index) := slot
  match expectsLocalResult action, localResult with
  | false, some entry => .error (.unexpectedResult index entry.path)
  | _, _ =>
    match action with
    | .local (.removed _) | .resolvedLocal _ (.removed _) => .ok none
    | .local (.added _) | .local (.modified _ _)
    | .resolvedLocal _ (.added _) | .resolvedLocal _ (.modified _ _) =>
      match localResult with
      | some entry => .ok (some entry)
      | none => .error (.missingResult index)
    | .remote change | .resolvedRemote _ change | .identical change _ => .ok change.newEntry
    | .conflict _ _ => .ok matchedOld

/-- The result slots of a commit: the new entry of each change that was applied here,
with the inode it got. -/
def localResults (ino : Path → UInt64) (actions : Actions) : List (Option DirEntryWithMeta) :=
  actions.map fun action =>
    (action.appliedChange.bind Change.newEntry).map (·.setIno (ino action.path))

/-- The merge walks over every action with its own result. -/
theorem zip_localResults {ino : Path → UInt64} {actions : Actions} :
    actions.zip (localResults ino actions) = actions.map fun a =>
      (a, (a.appliedChange.bind Change.newEntry).map (·.setIno (ino a.path))) := by
  have zipped := List.zip_map' (l := actions) (f := id)
    (g := fun a => (a.appliedChange.bind Change.newEntry).map (·.setIno (ino a.path)))
  simpa [localResults] using zipped

/-- A result has the path of its action. -/
theorem path_of_localResult {ino : Path → UInt64} {actions : Actions} :
    ∀ slot ∈ actions.zip (localResults ino actions), ∀ e ∈ slot.2, e.path = slot.1.path := by
  intro slot mem e isResult
  rw [zip_localResults] at mem
  obtain ⟨a, -, rfl⟩ := List.mem_map.mp mem
  obtain ⟨e', isNew, rfl⟩ := Option.map_eq_some_iff.mp isResult
  obtain ⟨c, applied, isNew⟩ := Option.bind_eq_some_iff.mp isNew
  have path := Change.path_of_newEntry isNew
  cases a <;> cases applied <;> exact path

def mergeStagedManifest (allOld : Entries) (actions : Actions)
    (localResults : List (Option DirEntryWithMeta)) : Except MergeError Entries :=
  if localResults.length ≠ actions.length then
    .error (.slotCount actions.length localResults.length)
  else
    mergeUpdatesM DirEntryWithMeta.path (fun slot => slot.1.1.path) mergeAction allOld
      (actions.zip localResults).zipIdx

/-! ## The merged manifest at one path -/

/-- The actions with their result slots and indices, as the merge walks over them. -/
def mergeSlots (actions : Actions) (localResults : List (Option DirEntryWithMeta)) :
    List ((Action × Option DirEntryWithMeta) × Nat) :=
  (actions.zip localResults).zipIdx

section Merged

variable {allOld merged : Entries} {actions : Actions}
  {localResults : List (Option DirEntryWithMeta)} {p : Path}

theorem mergeSlots_actions (lengths : localResults.length = actions.length) :
    (mergeSlots actions localResults).map (fun slot => slot.1.1) = actions := by
  calc (mergeSlots actions localResults).map (fun slot => slot.1.1)
      = ((mergeSlots actions localResults).map Prod.fst).map Prod.fst := (List.map_map ..).symm
    _ = (actions.zip localResults).map Prod.fst := by rw [mergeSlots, List.zipIdx_map_fst]
    _ = actions := List.map_fst_zip lengths.ge

theorem lookup_mergeSlots (lengths : localResults.length = actions.length) :
    (lookup (fun slot => slot.1.1.path) p (mergeSlots actions localResults)).map
      (fun slot => slot.1.1) = lookup Action.path p actions := by
  rw [lookup_comp, mergeSlots_actions lengths]

/-- Where every action can record what it leaves, the merge replaces the entries of the
actions by their records and keeps all others. -/
theorem mergeStagedManifest_of_records (sorted : SortedEntries allOld)
    (sortedA : SortedBy Action.path actions) (lengths : localResults.length = actions.length)
    {record : (Action × Option DirEntryWithMeta) × Nat → Option DirEntryWithMeta →
      Option DirEntryWithMeta}
    (records : ∀ slot ∈ mergeSlots actions localResults, ∀ old,
      mergeAction slot old = .ok (record slot old))
    (keeps : KeepsKey DirEntryWithMeta.path (fun slot => slot.1.1.path) record
      (mergeSlots actions localResults)) :
    ∃ merged, mergeStagedManifest allOld actions localResults = .ok merged ∧
      SortedEntries merged ∧ ∀ p, entryAt p merged =
        (lookup (fun slot => slot.1.1.path) p (mergeSlots actions localResults)).elim
          (entryAt p allOld) fun slot => record slot (entryAt p allOld) := by
  have sortedSlots : SortedBy (fun slot => slot.1.1.path) (mergeSlots actions localResults) :=
    sortedBy_comp.mpr ((mergeSlots_actions lengths).symm ▸ sortedA)
  refine ⟨_, ?_, sorted.mergeUpdates sortedSlots keeps,
    fun p => lookup_mergeUpdates sorted sortedSlots keeps⟩
  unfold mergeStagedManifest
  rw [if_neg (not_not.mpr lengths)]
  exact mergeUpdatesM_ok records

/-- Whether an action can be merged does not depend on the old entry. -/
theorem mergeAction_steady {slot : (Action × Option DirEntryWithMeta) × Nat}
    {old old' new : Option DirEntryWithMeta} (ok : mergeAction slot old = .ok new) :
    ∃ new', mergeAction slot old' = .ok new' := by
  obtain ⟨⟨a, result⟩, index⟩ := slot
  cases a with
  | conflict lc rc =>
    cases result with
    | none => exact ⟨old', rfl⟩
    | some e => cases ok
  | «local» c | resolvedLocal pair c => cases c <;> exact ⟨new, ok⟩
  | remote c | resolvedRemote pair c => exact ⟨new, ok⟩
  | identical lc rc => exact ⟨new, ok⟩

/-- A merged entry has the path of its action. -/
theorem mergeAction_path {slot : (Action × Option DirEntryWithMeta) × Nat}
    {old : Option DirEntryWithMeta} {e : DirEntryWithMeta}
    (resultPath : ∀ e ∈ slot.1.2, e.path = slot.1.1.path)
    (oldPath : ∀ e ∈ old, e.path = slot.1.1.path) (ok : mergeAction slot old = .ok (some e)) :
    e.path = slot.1.1.path := by
  obtain ⟨⟨a, result⟩, index⟩ := slot
  cases a with
  | conflict lc rc =>
    cases result with
    | none =>
      cases ok
      exact oldPath e rfl
    | some e' => cases ok
  | «local» c | resolvedLocal pair c =>
    cases c <;> cases result <;> cases ok <;> exact resultPath e rfl
  | remote c | resolvedRemote pair c =>
    cases result with
    | none => exact Change.path_of_newEntry (Except.ok.inj ok)
    | some e' => cases ok
  | identical lc rc =>
    cases result with
    | none => exact Change.path_of_newEntry (Except.ok.inj ok)
    | some e' => cases ok

/-- A merge that succeeds leaves every path that has no action as it was. -/
theorem mergeStagedManifest_frame (sorted : SortedEntries allOld)
    (sortedA : SortedBy Action.path actions)
    (resultPaths : ∀ slot ∈ actions.zip localResults, ∀ e ∈ slot.2, e.path = slot.1.path)
    (ok : mergeStagedManifest allOld actions localResults = .ok merged) :
    SortedEntries merged ∧
      ∀ p, lookup Action.path p actions = none → entryAt p merged = entryAt p allOld := by
  have lengths : localResults.length = actions.length := by
    by_contra differ
    rw [mergeStagedManifest, if_pos differ] at ok
    cases ok
  let record := fun slot (old : Option DirEntryWithMeta) => (mergeAction slot old).toOption.join
  have merges : mergeUpdatesM DirEntryWithMeta.path (fun slot => slot.1.1.path) mergeAction allOld
      (mergeSlots actions localResults) = .ok merged := by
    rwa [mergeStagedManifest, if_neg (not_not.mpr lengths)] at ok
  have records : ∀ slot ∈ mergeSlots actions localResults, ∀ old,
      mergeAction slot old = .ok (record slot old) := by
    intro slot mem old
    obtain ⟨a, b, here⟩ := update_ok_of_mergeUpdatesM_ok merges slot mem
    obtain ⟨new, isNew⟩ := @mergeAction_steady slot a old b here
    simp [record, isNew, Except.toOption]
  have keeps : KeepsKey DirEntryWithMeta.path (fun slot => slot.1.1.path) record
      (mergeSlots actions localResults) := by
    intro slot mem old e oldPath isEntry
    have ok : mergeAction slot old = .ok (some e) := by rw [records slot mem old, isEntry]
    exact mergeAction_path (resultPaths slot.1 (List.fst_mem_of_mem_zipIdx mem)) oldPath ok
  obtain ⟨merged', isMerged, sortedMerged, entries⟩ :=
    mergeStagedManifest_of_records sorted sortedA lengths records keeps
  cases ok.symm.trans isMerged
  refine ⟨sortedMerged, fun p absent => ?_⟩
  rw [← lookup_mergeSlots lengths, Option.map_eq_none_iff] at absent
  rw [entries, absent]
  rfl

end Merged

end Duet

import Duet.Sync.Manifest

/-!
# The manifest after a commit

The results of a commit are assigned to the slots of their actions one by one, which checks
the path of each. The merge succeeds exactly when the slots that are filled are those of the
additions and modifications that this side applied, and then holds at every path what its
action leaves there.
-/

namespace Duet

open Lib

/-! ## The result slots -/

/-- How an assignment fails, with the data of the source's messages. -/
inductive AssignError where
  | missingAction (index : Nat)
  | pathMismatch (index : Nat) (expected got : Path)
  | missingSlot (index : Nat)
  | duplicate (index : Nat) (path : Path)
deriving DecidableEq

def assignLocalResult (actions : Actions) (results : List (Option DirEntryWithMeta))
    (actionIndex : Nat) (entry : DirEntryWithMeta) :
    Except AssignError (List (Option DirEntryWithMeta)) :=
  match actions[actionIndex]? with
  | none => .error (.missingAction actionIndex)
  | some action =>
    if entry.path ≠ action.path then .error (.pathMismatch actionIndex action.path entry.path)
    else
      match results[actionIndex]? with
      | none => .error (.missingSlot actionIndex)
      | some (some _) => .error (.duplicate actionIndex entry.path)
      | some none => .ok (results.set actionIndex (some entry))

/-- The result slots that assignments can lead to. -/
inductive Assigned (actions : Actions) : List (Option DirEntryWithMeta) → Prop where
  | empty : Assigned actions (List.replicate actions.length none)
  | assign {results results' : List (Option DirEntryWithMeta)} {actionIndex : Nat}
      {entry : DirEntryWithMeta} (before : Assigned actions results)
      (assigned : assignLocalResult actions results actionIndex entry = .ok results') :
      Assigned actions results'

/-- Every result has the path of its action. -/
def CarriesPaths (actions : Actions) (results : List (Option DirEntryWithMeta)) : Prop :=
  ∀ slot ∈ actions.zip results, ∀ e ∈ slot.2, e.path = slot.1.path

/-- The filled slots are those of the actions that come with a local result. -/
def ExactSlots (actions : Actions) (results : List (Option DirEntryWithMeta)) : Prop :=
  results.length = actions.length ∧
    ∀ slot ∈ actions.zip results, slot.2.isSome = expectsLocalResult slot.1

section Slots

variable {actions : Actions} {results results' : List (Option DirEntryWithMeta)}

theorem assignLocalResult_eq_ok {actionIndex : Nat} {entry : DirEntryWithMeta}
    (assigned : assignLocalResult actions results actionIndex entry = .ok results') :
    ∃ action, actions[actionIndex]? = some action ∧ entry.path = action.path ∧
      results[actionIndex]? = some none ∧ results' = results.set actionIndex (some entry) := by
  unfold assignLocalResult at assigned
  split at assigned
  · cases assigned
  · rename_i action found
    split at assigned
    · cases assigned
    · rename_i path
      split at assigned
      · cases assigned
      · cases assigned
      · rename_i free
        cases assigned
        exact ⟨action, found, not_not.mp path, free, rfl⟩

/-- An assignment fills its own slot and leaves the others. -/
theorem Assigned.spec (h : Assigned actions results) :
    results.length = actions.length ∧ CarriesPaths actions results := by
  induction h with
  | empty =>
    refine ⟨List.length_replicate, fun slot mem e filled => ?_⟩
    have empty := (List.mem_replicate.mp (List.of_mem_zip mem).2).2
    rw [empty] at filled
    cases filled
  | @assign results results' actionIndex entry before assigned ih =>
    obtain ⟨action, found, path, free, rfl⟩ := assignLocalResult_eq_ok assigned
    obtain ⟨length, carries⟩ := ih
    refine ⟨by rw [List.length_set, length], fun slot mem e filled => ?_⟩
    obtain ⟨i, inside, at_⟩ := List.mem_iff_getElem.mp mem
    rw [List.getElem_zip] at at_
    have inActions : i < actions.length := by
      rw [List.length_zip] at inside
      omega
    have inResults : i < results.length := length ▸ inActions
    by_cases here : actionIndex = i
    · subst here
      have isAction : actions[actionIndex] = action := by
        rw [List.getElem?_eq_getElem inActions] at found
        exact Option.some.inj found
      rw [← at_, List.getElem_set_self] at filled
      cases filled
      rw [← at_, isAction]
      exact path
    · rw [List.getElem_set_ne here] at at_
      refine carries slot ?_ e filled
      refine List.mem_iff_getElem.mpr ⟨i, by rw [List.length_zip]; omega, ?_⟩
      rw [List.getElem_zip, at_]

end Slots

/-! ## What an action leaves -/

/-- The entry that an action with its result leaves in the manifest. -/
def manifestEntry (action : Action) (result old : Option DirEntryWithMeta) :
    Option DirEntryWithMeta :=
  match action with
  | .local (.removed _) | .resolvedLocal _ (.removed _) => none
  | .local (.added _) | .local (.modified _ _) => result
  | .resolvedLocal _ (.added _) | .resolvedLocal _ (.modified _ _) => result
  | .remote change | .resolvedRemote _ change | .identical change _ => change.newEntry
  | .conflict _ _ => old

/-- A slot merges exactly when it is filled as its action expects. -/
theorem mergeAction_eq_ok {slot : (Action × Option DirEntryWithMeta) × Nat}
    {old new : Option DirEntryWithMeta} :
    mergeAction slot old = .ok new ↔ slot.1.2.isSome = expectsLocalResult slot.1.1 ∧
      manifestEntry slot.1.1 slot.1.2 old = new := by
  obtain ⟨⟨a, result⟩, index⟩ := slot
  cases a with
  | conflict lc rc =>
    cases result <;> simp [mergeAction, expectsLocalResult, Action.appliedChange, manifestEntry]
  | «local» c | resolvedLocal pair c =>
    cases c <;> cases result <;>
      simp [mergeAction, expectsLocalResult, Action.appliedChange, manifestEntry]
  | remote c | resolvedRemote pair c =>
    cases result <;> simp [mergeAction, expectsLocalResult, Action.appliedChange, manifestEntry]
  | identical lc rc =>
    cases result <;> simp [mergeAction, expectsLocalResult, Action.appliedChange, manifestEntry]

section Merge

variable {allOld : Entries} {actions : Actions} {results : List (Option DirEntryWithMeta)}

/-- A merge that succeeds had exactly the slots that its actions expect. -/
theorem exactSlots_of_merged {merged : Entries}
    (ok : mergeStagedManifest allOld actions results = .ok merged) : ExactSlots actions results := by
  unfold mergeStagedManifest at ok
  split at ok
  · cases ok
  · rename_i lengths
    refine ⟨not_not.mp lengths, fun slot mem => ?_⟩
    obtain ⟨i, inside, at_⟩ := List.mem_iff_getElem.mp mem
    have walked : (slot, i) ∈ (actions.zip results).zipIdx :=
      List.mk_mem_zipIdx_iff_getElem?.mpr (by rw [List.getElem?_eq_getElem inside, at_])
    obtain ⟨old, new, here⟩ := update_ok_of_mergeUpdatesM_ok ok _ walked
    exact (mergeAction_eq_ok.mp here).1

/-- The merge of a manifest with the results of a plan: with exactly the expected slots,
which carry the paths of their actions, it holds at every path what the action there leaves,
and at all others what it held before; with any other slots it fails. Slots that were filled
by assignments carry the paths of their actions. -/
theorem manifest_merge (sorted : SortedEntries allOld) (sortedA : SortedBy Action.path actions) :
    (ExactSlots actions results → CarriesPaths actions results →
      ∃ merged, mergeStagedManifest allOld actions results = .ok merged ∧ SortedEntries merged ∧
        (∀ slot ∈ actions.zip results, entryAt slot.1.path merged =
          manifestEntry slot.1 slot.2 (entryAt slot.1.path allOld)) ∧
        ∀ p, (∀ a ∈ actions, a.path ≠ p) → entryAt p merged = entryAt p allOld) ∧
      (¬ ExactSlots actions results →
        ∃ e, mergeStagedManifest allOld actions results = .error e) ∧
      (Assigned actions results → CarriesPaths actions results) := by
  refine ⟨fun exact carries => ?_, fun other => ?_, fun assigned => assigned.spec.2⟩
  · obtain ⟨lengths, filled⟩ := exact
    have inZip : ∀ slot ∈ mergeSlots actions results, slot.1 ∈ actions.zip results :=
      fun slot mem => List.fst_mem_of_mem_zipIdx mem
    have keeps : KeepsKey DirEntryWithMeta.path (fun slot => slot.1.1.path)
        (fun slot old => manifestEntry slot.1.1 slot.1.2 old) (mergeSlots actions results) := by
      intro slot mem old e oldPath isEntry
      exact mergeAction_path (fun e result => carries slot.1 (inZip slot mem) e result) oldPath
        (mergeAction_eq_ok.mpr ⟨filled slot.1 (inZip slot mem), isEntry⟩)
    obtain ⟨merged, isMerged, sortedMerged, entries⟩ :=
      mergeStagedManifest_of_records sorted sortedA lengths
        (fun slot mem old => mergeAction_eq_ok.mpr ⟨filled slot.1 (inZip slot mem), rfl⟩) keeps
    refine ⟨merged, isMerged, sortedMerged, fun slot mem => ?_, fun p absent => ?_⟩
    · obtain ⟨i, inside, at_⟩ := List.mem_iff_getElem.mp mem
      have walked : (slot, i) ∈ mergeSlots actions results :=
        List.mk_mem_zipIdx_iff_getElem?.mpr (by rw [List.getElem?_eq_getElem inside, at_])
      have sortedSlots : SortedBy (fun slot => slot.1.1.path) (mergeSlots actions results) :=
        sortedBy_comp.mpr ((mergeSlots_actions lengths).symm ▸ sortedA)
      rw [entries, sortedSlots.lookup_of_mem walked]
      rfl
    · have nothing : lookup Action.path p actions = none :=
        lookup_eq_none_iff.mpr fun a mem => absent a mem
      rw [← lookup_mergeSlots lengths, Option.map_eq_none_iff] at nothing
      rw [entries, nothing]
      rfl
  · cases result : mergeStagedManifest allOld actions results with
    | error e => exact ⟨e, rfl⟩
    | ok merged => exact absurd (exactSlots_of_merged result) other

end Merge

/-- A plan with a removal, a modification and an addition that this side applied, a removal
and an addition that it had already, and a conflict. The entries that were found on disk
replace the planned ones, and the last file, which has no action, stays. -/
theorem manifest_merge_mixed :
    let file : UInt8 → DirEntryWithMeta :=
      fun name => ⟨[.normal [name]], 1, 0, 2, 0o100644, none, false, 0, none⟩
    let edited := { file 98 with size := 5 }
    let foundEdited := { edited with ino := 7 }
    let grown := { file 101 with size := 3 }
    let foundAdded := { file 102 with ino := 9 }
    let actions : Actions :=
      [.local (.removed (file 97)), .local (.modified (file 98) edited),
        .remote (.removed (file 99)), .remote (.added (file 100)),
        .conflict (.removed (file 101)) (.modified (file 101) grown),
        .local (.added (file 102))]
    ∃ merged,
      mergeStagedManifest [file 97, file 98, file 99, file 101, file 103] actions
        [none, some foundEdited, none, none, none, some foundAdded] = .ok merged ∧
      SortedEntries merged ∧
      entryAt [.normal [97]] merged = none ∧
      entryAt [.normal [98]] merged = some foundEdited ∧
      entryAt [.normal [99]] merged = none ∧
      entryAt [.normal [100]] merged = some (file 100) ∧
      entryAt [.normal [101]] merged = some (file 101) ∧
      entryAt [.normal [102]] merged = some foundAdded ∧
      entryAt [.normal [103]] merged = some (file 103) := by
  intro file edited foundEdited grown foundAdded actions
  have sorted : SortedEntries [file 97, file 98, file 99, file 101, file 103] := by decide
  have sortedA : SortedBy Action.path actions := by decide
  have exact : ExactSlots actions [none, some foundEdited, none, none, none, some foundAdded] :=
    ⟨rfl, by decide⟩
  have carries :
      CarriesPaths actions [none, some foundEdited, none, none, none, some foundAdded] := by
    unfold CarriesPaths
    decide
  obtain ⟨merged, isMerged, sortedMerged, entries, others⟩ :=
    (manifest_merge sorted sortedA).1 exact carries
  refine ⟨merged, isMerged, sortedMerged, ?_, ?_, ?_, ?_, ?_, ?_, ?_⟩
  · exact entries (.local (.removed (file 97)), none) (by simp [actions])
  · exact entries (.local (.modified (file 98) edited), some foundEdited) (by simp [actions])
  · exact entries (.remote (.removed (file 99)), none) (by simp [actions])
  · exact entries (.remote (.added (file 100)), none) (by simp [actions])
  · exact entries (.conflict (.removed (file 101)) (.modified (file 101) grown), none)
      (by simp [actions])
  · exact entries (.local (.added (file 102)), some foundAdded) (by simp [actions])
  · exact others [.normal [103]] (by decide)

end Duet

import Duet.Sync.CallRules
import Duet.Sync.Recovery

/-!
# The cleanup of a stage

What a cleanup may take from a disk, when it succeeds, and what one that was stopped leaves to
the next one.
-/

namespace Duet.Recovery

open Lib Marker

/-- A name as `path_component_cstring` accepts it. -/
def IsComponent (component : Bytes) : Prop :=
  component ≠ [] ∧ component ≠ ascii "." ∧ component ≠ ascii ".." ∧ (47 : UInt8) ∉ component ∧
    (0 : UInt8) ∉ component

theorem pathComponentCString_eq_ok {component name : Bytes} {description : String} :
    pathComponentCString component description = .ok name ↔
      IsComponent component ∧ name = component := by
  unfold pathComponentCString IsComponent
  split
  · next bad =>
    simp only [reduceCtorEq, false_iff, not_and]
    intro good
    rcases bad with rfl | rfl | rfl | slash
    · exact absurd rfl good.1
    · exact absurd rfl good.2.1
    · exact absurd rfl good.2.2.1
    · exact absurd slash good.2.2.2.1
  · next good =>
    simp only [not_or] at good
    split
    · next zero =>
      simp only [reduceCtorEq, false_iff, not_and]
      exact fun all => absurd zero all.2.2.2.2
    · next noZero =>
      rw [Except.ok.injEq]
      exact ⟨fun same => ⟨⟨good.1, good.2.1, good.2.2.1, good.2.2.2, noZero⟩, same.symm⟩,
        fun holds => holds.2.symm⟩

/-- The identity that a marker records for a name in the stage. -/
def recordedIdentity (entries : List (Bytes × FileIdentity)) (name : Name) : Option FileIdentity :=
  (entries.find? (·.1 = name)).map (·.2)

/-! ## Entries of a stage -/

section Stage

variable (system : System) (entries : List (Bytes × FileIdentity))

/-- A regular file of this user under the name and with the identity that the marker records. -/
structure OwnStaged (disk : Disk) (name : Name) (child : FileIdentity) : Prop where
  recorded : recordedIdentity entries name = some child
  regular : ∃ file, disk.inode child = some (.regular file system.euid)

/-- Such a file that can also be removed from a directory with some mode. -/
structure Removable (disk : Disk) (mode : UInt32) (name : Name) (child : FileIdentity) : Prop where
  component : IsComponent name
  own : OwnStaged system entries disk name child
  permitted : permits mode 0o300 = true

/-- The names that the loop takes from the stage. -/
def GoneStaged (stage : FileIdentity) (disk : Disk) (dir : FileIdentity) (name : Name) : Prop :=
  dir = stage ∧ ∃ child, disk.child stage name = some child ∧ OwnStaged system entries disk name child

/-- The loop over the names in the stage, with some of them left. -/
structure Sweeping (stage : FileIdentity) (staged : Entries) (mode : UInt32) (s : Machine)
    (rest : List Name) (t : Machine) : Prop where
  calls : s.calls ≤ t.calls
  others : ∀ identity, identity ≠ stage → t.disk.inode identity = s.disk.inode identity
  left : ∃ left, t.disk.inode stage = some (.directory left mode) ∧
    ∀ name, left.lookup name = if name ∈ rest then staged.lookup name else none
  swept : ∀ name child, staged.lookup name = some child → name ∉ rest →
    Removable system entries s.disk mode name child

end Stage

section Sweep

variable {system : System} {entries : List (Bytes × FileIdentity)} {stage : FileIdentity}
  {staged : Entries} {mode : UInt32} {s t : Machine} {rest : List Name}

theorem Sweeping.shrinks (sweeping : Sweeping system entries stage staged mode s rest t)
    (found : s.disk.inode stage = some (.directory staged mode)) :
    Shrinks (GoneStaged system entries stage s.disk) s.disk t.disk where
  files identity noDirectory := by
    refine sweeping.others identity fun same => ?_
    rw [same] at noDirectory
    exact noDirectory staged mode found
  directories dir entries' mode' found' := by
    by_cases same : dir = stage
    · subst same
      rw [found] at found'
      cases found'
      obtain ⟨left, now, names⟩ := sweeping.left
      refine ⟨left, mode, now, .inl rfl, fun name => ?_⟩
      rw [names]
      split
      · exact .inl rfl
      · next swept =>
        cases named : staged.lookup name with
        | none => exact .inl rfl
        | some child =>
          have removable := sweeping.swept name child named swept
          exact .inr ⟨rfl, rfl, child, (Disk.child_eq found).trans named, removable.own⟩
    · exact ⟨entries', mode', (sweeping.others dir same).trans found', .inl rfl, fun _ => .inl rfl⟩

/-- How the loop stops at an error. -/
def SweepStops (system : System) (entries : List (Bytes × FileIdentity)) (stage : FileIdentity)
    (staged : Entries) (mode : UInt32) (s t : Machine) : Prop :=
  Shrinks (GoneStaged system entries stage s.disk) s.disk t.disk ∧ s.calls ≤ t.calls ∧
    ((∀ name child, staged.lookup name = some child →
      Removable system entries s.disk mode name child) → Disturbed system s.calls t.calls)

/-- A file of the stage is as it was until its name is taken. -/
theorem Sweeping.file (sweeping : Sweeping system entries stage staged mode s rest t)
    (found : s.disk.inode stage = some (.directory staged mode)) {child : FileIdentity}
    {file : MarkerFile} {owner : UInt32} :
    t.disk.inode child = some (.regular file owner) ↔
      s.disk.inode child = some (.regular file owner) := by
  by_cases same : child = stage
  · obtain ⟨left, now, -⟩ := sweeping.left
    rw [same, now, found]
    simp
  · rw [sweeping.others child same]

/-- What is left when the loop has taken one more name. -/
theorem Sweeping.erase {name : Name} {left : Entries} {child : FileIdentity} {calls : Nat}
    (sweeping : Sweeping system entries stage staged mode s (name :: rest) t)
    (now : t.disk.inode stage = some (.directory left mode)) (fresh : name ∉ rest)
    (named : staged.lookup name = some child)
    (removable : Removable system entries s.disk mode name child) (later : t.calls ≤ calls) :
    Sweeping system entries stage staged mode s rest
      ⟨t.disk.set stage (.directory (left.erase name) mode), calls⟩ where
  calls := Nat.le_trans sweeping.calls later
  others identity differs := by
    change (t.disk.set stage _).inode identity = _
    rw [Disk.inode_set_of_ne differs, sweeping.others identity differs]
  left := by
    refine ⟨left.erase name, by simp, fun other => ?_⟩
    obtain ⟨left', now', names⟩ := sweeping.left
    rw [now] at now'
    cases now'
    by_cases same : other = name
    · rw [same, AList.lookup_erase, if_neg fresh]
    · rw [AList.lookup_erase_ne same, names]
      simp only [List.mem_cons, same, false_or]
  swept other child' named' gone := by
    by_cases same : other = name
    · subst same
      rw [named] at named'
      cases named'
      exact removable
    · refine sweeping.swept other child' named' fun mem => gone ?_
      exact (List.mem_cons.mp mem).resolve_left same

/-- One round of the loop. -/
theorem ends_removeStagedEntry {name : Name} (found : s.disk.inode stage = some (.directory staged mode))
    (known : name ∈ staged.keys) (fresh : name ∉ rest)
    (sweeping : Sweeping system entries stage staged mode s (name :: rest) t) :
    (removeStagedEntry system stage entries name).Ends
      (fun _ u => Sweeping system entries stage staged mode s rest u)
      (fun _ u => SweepStops system entries stage staged mode s u) t := by
  obtain ⟨child, named⟩ := Option.isSome_iff_exists.mp (AList.lookup_isSome.mpr known)
  obtain ⟨left, now, names⟩ := sweeping.left
  have here : left.lookup name = some child := by
    rw [names, if_pos List.mem_cons_self, named]
  have stops : ∀ u : Machine, u.disk = t.disk → t.calls ≤ u.calls →
      (Removable system entries s.disk mode name child → Disturbed system t.calls u.calls) →
      SweepStops system entries stage staged mode s u := by
    intro u disk calls why
    refine ⟨disk ▸ sweeping.shrinks found, Nat.le_trans sweeping.calls calls, fun all => ?_⟩
    exact (why (all name child named)).mono sweeping.calls (Nat.le_refl _)
  have stat : Removable system entries s.disk mode name child →
      ∃ file, t.disk.statAt stage name = .ok (some (child, .regular file system.euid)) := by
    intro removable
    obtain ⟨file, regular⟩ := removable.own.regular
    have searched := permits_trans removable.permitted (by decide : permits 0o300 0o100 = true)
    exact ⟨file, Disk.statAt_eq_some.mpr ⟨left, mode, now, searched, here,
      (sweeping.file found).mpr regular⟩⟩
  unfold removeStagedEntry
  split
  · next unrecorded =>
    refine stops t rfl (Nat.le_refl _) fun removable => ?_
    have recorded := removable.own.recorded
    rw [recordedIdentity, unrecorded] at recorded
    cases recorded
  next entry expected recorded =>
  have recorded : recordedIdentity entries name = some expected := by
    rw [recordedIdentity, recorded]
    rfl
  apply (looks_check _).ends_bind
  swap
  · intro stop u disk₁ calls₁ why
    refine stops u disk₁ calls₁ fun removable => why ⟨name, ?_⟩
    exact pathComponentCString_eq_ok.mpr ⟨removable.component, rfl⟩
  intro component u disk₁ calls₁ checked
  obtain ⟨isComponent, same⟩ := pathComponentCString_eq_ok.mp checked
  subst component
  apply (looks_query _).ends_bind
  swap
  · intro stop v disk₂ calls₂ why
    refine stops v (disk₂.trans disk₁) (Nat.le_trans calls₁ calls₂) fun removable => ?_
    obtain ⟨file, looked⟩ := stat removable
    exact (why ⟨_, by rw [disk₁, looked]⟩).mono calls₁ (Nat.le_refl _)
  intro looked v disk₂ calls₂ answer
  have disk₂ := disk₂.trans disk₁
  have calls₂ := Nat.le_trans calls₁ calls₂
  rw [disk₁] at answer
  have refuses : (∀ file, looked ≠ some (expected, .regular file system.euid)) →
      SweepStops system entries stage staged mode s v := by
    intro differs
    refine stops v disk₂ calls₂ fun removable => ?_
    obtain ⟨file, looked'⟩ := stat removable
    rw [answer, Except.ok.injEq] at looked'
    have same := removable.own.recorded
    rw [recorded, Option.some.injEq] at same
    exact absurd looked' (same ▸ differs file)
  cases looked with
  | none => exact refuses (by simp)
  | some found' =>
    obtain ⟨actual, inode⟩ := found'
    cases inode with
    | directory below mode' => exact refuses (by simp)
    | other => exact refuses (by simp)
    | regular file owner =>
      dsimp only
      split
      · next substituted =>
        refine refuses fun file' same => ?_
        cases same
        simp at substituted
      · next own =>
        rw [not_or, not_not, not_not] at own
        obtain ⟨rfl, rfl⟩ := own
        obtain ⟨left', mode', now', -, named', regular⟩ := Disk.statAt_eq_some.mp answer
        rw [now] at now'
        cases now'
        rw [here] at named'
        cases named'
        rw [sweeping.file found] at regular
        have own : OwnStaged system entries s.disk name child := ⟨recorded, file, regular⟩
        apply ends_update
        · intro later removed
          rw [disk₂] at removed
          obtain ⟨left', mode', child', now', permitted, -, -, rfl⟩ :=
            Disk.unlinkAt_eq_ok.mp removed
          rw [now] at now'
          cases now'
          exact sweeping.erase now fresh named ⟨isComponent, own, permitted⟩
            (Nat.le_succ_of_le calls₂)
        · intro text failed
          refine stops ⟨v.disk, v.calls + 1⟩ disk₂ (Nat.le_succ_of_le calls₂) fun removable => ?_
          rw [disk₂, Disk.unlinkAt_eq_ok.mpr ⟨left, mode, child, now, removable.permitted, here,
            by simp [(sweeping.file found).mpr regular], rfl⟩] at failed
          cases failed
        · intro stop disturbed
          exact stops ⟨v.disk, v.calls + 1⟩ disk₂ (Nat.le_succ_of_le calls₂) fun _ =>
            disturbed.mono calls₂ (Nat.le_refl _)

/-- The loop over all names in the stage. -/
theorem ends_sweep (found : s.disk.inode stage = some (.directory staged mode)) :
    (staged.keys.forM (removeStagedEntry system stage entries)).Ends
      (fun _ t => Sweeping system entries stage staged mode s [] t)
      (fun _ t => SweepStops system entries stage staged mode s t) s := by
  apply Effect.ends_forM (I := fun rest t => Sweeping system entries stage staged mode s rest t)
  · refine ⟨Nat.le_refl _, fun _ _ => rfl, ⟨staged, found, fun name => ?_⟩, ?_⟩
    · split
      · rfl
      · next missing => exact AList.lookup_eq_none.mpr missing
    · intro name child named missing
      exact absurd (AList.lookup_isSome.mp (by rw [named]; rfl)) missing
  · intro name rest t inside sweeping
    have distinct := (AList.keys_nodup staged).sublist inside.sublist
    exact ends_removeStagedEntry found (inside.subset List.mem_cons_self)
      (List.nodup_cons.mp distinct).1 sweeping

end Sweep

theorem looks_directoryEntryNames {system : System} (directory : FileIdentity) :
    Looks system (directoryEntryNames system directory) fun disk names =>
      (∃ entries mode, disk.inode directory = some (.directory entries mode) ∧
        names = entries.keys) ∧ ∀ name ∈ names, name.toByteArray.validateUTF8 = true := by
  intro s
  apply (looks_query _).ends_bind
  · intro names t disk calls found
    obtain ⟨⟨entries, mode⟩, opened, rfl⟩ := map_eq_ok.mp found
    have here := (Disk.directory_eq_ok.mp opened).1
    dsimp only
    by_cases valid : (entries.keys.all fun name => name.toByteArray.validateUTF8) = true
    · rw [if_pos valid]
      exact ⟨disk, calls, ⟨entries, mode, here, rfl⟩, List.all_eq_true.mp valid⟩
    · rw [if_neg valid]
      refine ⟨disk, calls, fun some => absurd ?_ valid⟩
      obtain ⟨names, ⟨entries', mode', here', rfl⟩, all⟩ := some
      rw [here] at here'
      cases here'
      exact List.all_eq_true.mpr all
  · intro stop t disk calls why
    refine ⟨disk, calls, fun some => why ?_⟩
    obtain ⟨names, ⟨entries, mode, here, rfl⟩, valid⟩ := some
    exact ⟨entries.keys, map_eq_ok.mpr ⟨(entries, mode),
      Disk.directory_eq_ok.mpr ⟨here, by simp [permits]⟩, rfl⟩⟩

/-! ## The recorded stage -/

section Recorded

variable (system : System) (entries : List (Bytes × FileIdentity)) (parentPath : Bytes)
  (parent : FileIdentity) (stageName : Bytes) (stage : FileIdentity)

/-- What a cleanup may take: the files of this user that the marker records in the recorded
stage, and the stage itself. -/
def Gone (disk : Disk) (dir : FileIdentity) (name : Name) : Prop :=
  disk.child parent stageName = some stage ∧
    (∃ staged mode, disk.inode stage = some (.directory staged mode)) ∧
    (GoneStaged system entries stage disk dir name ∨ dir = parent ∧ name = stageName)

/-- A disk after a cleanup, or after a part of one. -/
structure Swept (disk later : Disk) : Prop where
  shrinks : Shrinks (Gone system entries parent stageName stage disk) disk later
  /-- The stage goes last. -/
  last : disk.child parent stageName ≠ none → later.child parent stageName = none →
    (later.entries stage).keys = []

/-- The recorded stage is where it was recorded, and all that is in it can be removed. -/
def CleanableStage (disk : Disk) : Prop :=
  ∃ names mode staged stageMode, disk.inode parent = some (.directory names mode) ∧
    permits mode 0o300 = true ∧ names.lookup stageName = some stage ∧
    disk.inode stage = some (.directory staged stageMode) ∧ permits stageMode 0o400 = true ∧
    (∀ name ∈ staged.keys, name.toByteArray.validateUTF8 = true) ∧
    ∀ name child, staged.lookup name = some child →
      Removable system entries disk stageMode name child

/-- The parent of the stage is where it was recorded, and the stage is gone or can be removed. -/
structure Cleanable (disk : Disk) : Prop where
  isAt : system.IsAt disk parentPath parent
  component : IsComponent stageName
  stage : disk.statAt parent stageName = .ok none ∨
    CleanableStage system entries parent stageName stage disk

/-- The stage has a name that the marker does not record. -/
def Unexpected (disk : Disk) : Prop :=
  disk.child parent stageName = some stage ∧
    ∃ name ∈ (disk.entries stage).keys, recordedIdentity entries name = none

/-- What a cleanup that succeeds leaves. -/
def CleanedUp (disk later : Disk) : Prop :=
  Swept system entries parent stageName stage disk later ∧ later.child parent stageName = none ∧
    ¬ Unexpected entries parent stageName stage disk

/-- What a cleanup that stops leaves. -/
def PartlyCleaned (disk later : Disk) : Prop :=
  Swept system entries parent stageName stage disk later ∧
    (Unexpected entries parent stageName stage disk → later = disk)

end Recorded

section Cleanup

variable {system : System} {entries : List (Bytes × FileIdentity)} {parentPath : Bytes}
  {parent : FileIdentity} {stageName : Bytes} {stage : FileIdentity} {disk later last : Disk}

theorem Swept.refl (disk : Disk) : Swept system entries parent stageName stage disk disk where
  shrinks := .refl disk
  last present absent := absurd absent present

theorem PartlyCleaned.refl (disk : Disk) :
    PartlyCleaned system entries parent stageName stage disk disk :=
  ⟨.refl disk, fun _ => rfl⟩

/-- The stage keeps its name while its files go. -/
theorem Swept.of_goneStaged {staged : Entries} {mode : UInt32}
    (shrinks : Shrinks (GoneStaged system entries stage disk) disk later)
    (found : disk.inode stage = some (.directory staged mode))
    (named : disk.child parent stageName = some stage) :
    Swept system entries parent stageName stage disk later where
  shrinks := shrinks.mono fun _ _ gone => ⟨named, ⟨staged, mode, found⟩, .inl gone⟩
  last _ absent := by
    rcases shrinks.child parent stageName with same | lost
    · rw [same, named] at absent
      cases absent
    · obtain ⟨-, rfl, child, named', own⟩ := lost
      obtain ⟨file, regular⟩ := own.regular
      rw [named] at named'
      cases named'
      rw [found] at regular
      cases regular

/-- A sync of a directory takes nothing more. -/
theorem Swept.trans_nothing (swept : Swept system entries parent stageName stage disk later)
    (shrinks : Shrinks Nothing later last) :
    Swept system entries parent stageName stage disk last where
  shrinks := swept.shrinks.trans (shrinks.mono fun _ _ => False.elim)
  last present absent := by
    rcases shrinks.child parent stageName with same | lost
    · exact shrinks.keys_eq_nil (swept.last present (same ▸ absent))
    · exact lost.2.elim

/-- The directory that the stage is in has it, with all that can be removed. -/
theorem CleanableStage.statAt (able : CleanableStage system entries parent stageName stage disk) :
    ∃ staged mode, disk.statAt parent stageName = .ok (some (stage, .directory staged mode)) ∧
      permits mode 0o400 = true ∧ (∀ name ∈ staged.keys, name.toByteArray.validateUTF8 = true) ∧
      ∀ name child, staged.lookup name = some child →
        Removable system entries disk mode name child := by
  obtain ⟨names, mode, staged, stageMode, found, permitted, named, below, readable, valid, all⟩ :=
    able
  refine ⟨staged, stageMode, Disk.statAt_eq_some.mpr ⟨names, mode, found, ?_, named, below⟩,
    readable, valid, all⟩
  exact permits_trans permitted (by decide)

theorem Cleanable.of_some (able : Cleanable system entries parentPath parent stageName stage disk)
    {found : FileIdentity × Inode} (stat : disk.statAt parent stageName = .ok (some found)) :
    CleanableStage system entries parent stageName stage disk := by
  rcases able.stage with absent | staged
  · rw [stat] at absent
    cases absent
  · exact staged

/-- A sync of the parent is all that is left to do when the stage is gone. -/
theorem does_sync_absent {s : Machine} {description : String} (isAt : system.IsAt s.disk parentPath parent)
    (component : IsComponent stageName) (absent : s.disk.statAt parent stageName = .ok none) :
    Does system (Cleanable system entries parentPath parent stageName stage)
      (CleanedUp system entries parent stageName stage)
      (PartlyCleaned system entries parent stageName stage)
      (syncRetainedDirectory system parentPath parent (some parent) description) s := by
  obtain ⟨names, mode, found, -, missing⟩ := Disk.statAt_eq_none.mp absent
  have gone : s.disk.child parent stageName = none := (Disk.child_eq found).trans missing
  have unnamed : ¬ Unexpected entries parent stageName stage s.disk := by
    intro unexpected
    rw [unexpected.1] at gone
    cases gone
  refine (syncs_syncRetainedDirectory s).mono ?_ ?_ ?_
  · exact fun able => ⟨able.isAt, fun _ same => Option.some.inj same⟩
  · intro disk _ same
    subst same
    exact ⟨⟨.refl _, gone, unnamed⟩, isAt, component, .inl absent⟩
  · intro disk shrinks
    exact ⟨⟨shrinks.mono fun _ _ => False.elim, fun present => absurd gone present⟩,
      fun unexpected => absurd unexpected unnamed⟩

/-- The end of a cleanup, after its loop. -/
theorem ends_removeStage {s t : Machine} {description : String} {names staged : Entries}
    {mode stageMode : UInt32} (isAt : system.IsAt s.disk parentPath parent)
    (component : IsComponent stageName) (found : s.disk.inode parent = some (.directory names mode))
    (named : names.lookup stageName = some stage)
    (searched : permits mode 0o100 = true)
    (below₀ : s.disk.inode stage = some (.directory staged stageMode))
    (readable : permits stageMode 0o400 = true)
    (valid : ∀ name ∈ staged.keys, name.toByteArray.validateUTF8 = true)
    (sweeping : Sweeping system entries stage staged stageMode s [] t) :
    ((do
      syncAll system
      call system fun disk => (disk.removeDirAt parent stageName).map fun removed =>
        ((), removed.getD disk)
      syncRetainedDirectory system parentPath parent (some parent) description) : Calls Unit).Ends
      (fun _ u => CleanedUp system entries parent stageName stage s.disk u.disk ∧
        s.calls ≤ u.calls ∧ Cleanable system entries parentPath parent stageName stage s.disk)
      (fun _ u => PartlyCleaned system entries parent stageName stage s.disk u.disk ∧
        s.calls ≤ u.calls ∧ (Cleanable system entries parentPath parent stageName stage s.disk →
          Disturbed system s.calls u.calls)) t := by
  have removable := fun name child here => sweeping.swept name child here List.not_mem_nil
  have child := (Disk.child_eq found).trans named
  have swept : Swept system entries parent stageName stage s.disk t.disk :=
    .of_goneStaged (sweeping.shrinks below₀) below₀ child
  have unnamed : ¬ Unexpected entries parent stageName stage s.disk := by
    intro unexpected
    obtain ⟨-, name, mem, unrecorded⟩ := unexpected
    rw [Disk.entries_eq below₀] at mem
    obtain ⟨child', named'⟩ := Option.isSome_iff_exists.mp (AList.lookup_isSome.mpr mem)
    rw [(removable name child' named').own.recorded] at unrecorded
    cases unrecorded
  have apart : parent ≠ stage := by
    intro same
    subst same
    rw [found] at below₀
    cases below₀
    obtain ⟨file, regular⟩ := (removable stageName parent named).own.regular
    rw [found] at regular
    cases regular
  have found' := (sweeping.others parent apart).trans found
  obtain ⟨left, below', empty⟩ := sweeping.left
  have emptied : (t.disk.entries stage).keys = [] := by
    refine Disk.keys_eq_nil.mpr fun name => ?_
    rw [Disk.child_eq below', empty name, if_neg List.not_mem_nil]
  have stops : ∀ u : Machine, u.disk = t.disk → t.calls ≤ u.calls →
      (Cleanable system entries parentPath parent stageName stage s.disk →
        Disturbed system t.calls u.calls) →
      PartlyCleaned system entries parent stageName stage s.disk u.disk ∧ s.calls ≤ u.calls ∧
        (Cleanable system entries parentPath parent stageName stage s.disk →
          Disturbed system s.calls u.calls) := by
    intro u disk calls why
    refine ⟨⟨disk ▸ swept, fun unexpected => absurd unexpected unnamed⟩,
      Nat.le_trans sweeping.calls calls, fun able => ?_⟩
    exact (why able).mono sweeping.calls (Nat.le_refl _)
  apply looks_syncAll.ends_bind
  swap
  · exact fun stop u disk calls why => stops u disk calls fun _ => why ⟨(), trivial⟩
  intro _ u disk calls _
  rw [Effect.ends_bind]
  apply ends_call
  · intro _ later removed
    obtain ⟨removed', done, same⟩ := map_eq_ok.mp removed
    cases same
    rw [disk] at done
    cases removed' with
    | none =>
      obtain ⟨names', mode', here, -, missing⟩ := Disk.removeDirAt_eq_none.mp done
      rw [found'] at here
      cases here
      rw [named] at missing
      cases missing
    | some later =>
      obtain ⟨names', mode', child', below, belowMode, here, permitted, -, -, -, same⟩ :=
        Disk.removeDirAt_eq_some.mp done
      rw [found'] at here
      cases here
      have able : Cleanable system entries parentPath parent stageName stage s.disk :=
        ⟨isAt, component, .inr ⟨names, mode, staged, stageMode, found, permitted, named, below₀,
          readable, valid, removable⟩⟩
      have removedStage : Shrinks (Gone system entries parent stageName stage s.disk) t.disk later :=
        same ▸ .erase found' ⟨child, ⟨staged, stageMode, below₀⟩, .inr ⟨rfl, rfl⟩⟩
      have gone : later.child parent stageName = none := by
        rw [same, Disk.child_eq (Disk.inode_set_self _ _ _), AList.lookup_erase]
      have sweptAll : Swept system entries parent stageName stage s.disk later :=
        ⟨swept.shrinks.trans removedStage, fun _ _ => removedStage.keys_eq_nil emptied⟩
      have calls : s.calls ≤ u.calls + 1 :=
        Nat.le_succ_of_le (Nat.le_trans sweeping.calls calls)
      refine Effect.Ends.mono (syncs_syncRetainedDirectory _) ?_ ?_
      · intro _ v holds
        rw [holds.1]
        exact ⟨⟨sweptAll, gone, unnamed⟩, Nat.le_trans calls holds.2.1, able⟩
      · intro _ v holds
        obtain ⟨shrinks, more, why⟩ := holds
        refine ⟨⟨sweptAll.trans_nothing shrinks, fun unexpected => absurd unexpected unnamed⟩,
          Nat.le_trans calls more, fun _ => (why ?_).mono calls (Nat.le_refl _)⟩
        exact ⟨⟨isAt.1, _, _, (congrArg (·.inode parent) same).trans (Disk.inode_set_self _ _ _)⟩,
          fun _ same => Option.some.inj same⟩
  · intro text failed
    refine stops ⟨u.disk, u.calls + 1⟩ disk (Nat.le_succ_of_le calls) fun able => ?_
    obtain ⟨names', mode', _, _, here, permitted, -⟩ :=
      able.of_some (Disk.statAt_eq_some.mpr ⟨names, mode, found, searched, named, below₀⟩)
    rw [found] at here
    cases here
    rw [disk, Disk.removeDirAt_eq_some.mpr ⟨names, mode, stage, left, stageMode, found', permitted,
      named, below', by rwa [← Disk.entries_eq below'], rfl⟩] at failed
    cases failed
  · exact fun stop disturbed => stops ⟨u.disk, u.calls + 1⟩ disk (Nat.le_succ_of_le calls) fun _ =>
      disturbed.mono calls (Nat.le_refl _)

theorem does_cleanupPresentStage {s : Machine} {staged : Entries} {stageMode : UInt32}
    (isAt : system.IsAt s.disk parentPath parent) (component : IsComponent stageName)
    (stat : s.disk.statAt parent stageName = .ok (some (stage, .directory staged stageMode))) :
    Does system (Cleanable system entries parentPath parent stageName stage)
      (CleanedUp system entries parent stageName stage)
      (PartlyCleaned system entries parent stageName stage)
      (cleanupPresentStage system parentPath parent parent stageName stage entries) s := by
  unfold cleanupPresentStage
  refine (looks_query _).does_bind (.refl _) ?_ ?_
  swap
  · intro able
    obtain ⟨staged', mode, stat', readable, -⟩ := (able.of_some stat).statAt
    exact ⟨stage, Disk.openDirectoryAt_eq_ok.mpr ⟨_, stat', staged', mode, rfl, readable⟩⟩
  intro opened t disk openedAt
  obtain ⟨inode, stat', staged', mode', rfl, readable⟩ := Disk.openDirectoryAt_eq_ok.mp openedAt
  rw [stat] at stat'
  cases stat'
  rw [← disk] at isAt stat
  clear! s
  refine (looks_verifyDirectoryHandleIdentity _ _ _).does_bind (.refl _) ?_ ?_
  swap
  · intro _
    obtain ⟨_, _, _, _, _, found⟩ := Disk.statAt_eq_some.mp stat
    exact ⟨(), rfl, by simp [found]⟩
  intro _ s disk _
  rw [← disk] at isAt stat
  clear! t
  obtain ⟨names, mode, found, searched, named, below⟩ := Disk.statAt_eq_some.mp stat
  refine (looks_directoryEntryNames _).does_bind (.refl _) ?_ ?_
  swap
  · intro able
    obtain ⟨staged', mode, stat', -, valid, -⟩ := (able.of_some stat).statAt
    rw [stat] at stat'
    cases stat'
    exact ⟨staged.keys, ⟨staged, stageMode, below, rfl⟩, valid⟩
  intro listed t disk listedAt
  obtain ⟨⟨staged', mode', below', rfl⟩, valid⟩ := listedAt
  rw [below] at below'
  cases below'
  rw [← disk] at isAt stat found below
  clear! s
  by_cases unexpected : (staged.keys.any fun name => (entries.find? (·.1 = name)).isNone) = true
  · rw [if_pos unexpected]
    refine does_fail (.refl _) fun able => ?_
    obtain ⟨staged', mode, stat', -, -, all⟩ := (able.of_some stat).statAt
    rw [stat] at stat'
    cases stat'
    obtain ⟨name, mem, unrecorded⟩ := List.any_eq_true.mp unexpected
    obtain ⟨child, named'⟩ := Option.isSome_iff_exists.mp (AList.lookup_isSome.mpr mem)
    have recorded := (all name child named').own.recorded
    rw [recordedIdentity, Option.isNone_iff_eq_none.mp unrecorded] at recorded
    cases recorded
  · rw [if_neg unexpected]
    unfold Does
    rw [Effect.ends_bind]
    refine (ends_sweep below).mono ?_ ?_
    · exact fun _ u sweeping => ends_removeStage isAt component found named searched below
        readable valid sweeping
    · intro _ u stops
      obtain ⟨shrinks, calls, why⟩ := stops
      refine ⟨⟨.of_goneStaged shrinks below ((Disk.child_eq found).trans named), ?_⟩, calls, ?_⟩
      · intro some
        obtain ⟨-, name, mem, unrecorded⟩ := some
        rw [Disk.entries_eq below] at mem
        refine absurd (List.any_eq_true.mpr ⟨name, mem, ?_⟩) unexpected
        rw [recordedIdentity, Option.map_eq_none_iff] at unrecorded
        rw [unrecorded]
        rfl
      · intro able
        obtain ⟨staged', mode, stat', -, -, all⟩ := (able.of_some stat).statAt
        rw [stat] at stat'
        cases stat'
        exact why all

theorem does_cleanupRecordedStage (s : Machine) :
    Does system (Cleanable system entries parentPath parent stageName stage)
      (CleanedUp system entries parent stageName stage)
      (PartlyCleaned system entries parent stageName stage)
      (cleanupRecordedStage system parentPath parent stageName stage entries) s := by
  unfold cleanupRecordedStage
  refine (looks_openDirectoryForAccess _).does_bind (.refl _) ?_ fun able => ⟨parent, able.isAt⟩
  intro opened t disk isAt
  refine (looks_verifyDirectoryHandleIdentity _ _ _).does_bind (.refl _) ?_ ?_
  swap
  · intro able
    rw [disk] at able
    exact ⟨(), Option.some.inj (isAt.1.symm.trans able.isAt.1), disk ▸ isAt.inode_ne_none⟩
  intro _ u _ same
  obtain ⟨rfl, -⟩ := same
  clear! t s
  refine (looks_verifyPathIdentity _ _ _).does_bind (.refl _) ?_ fun able => ⟨(), able.isAt⟩
  intro _ s disk isAt
  rw [← disk] at isAt
  clear! u
  refine (looks_check _).does_bind (.refl _) ?_ ?_
  swap
  · exact fun able => ⟨stageName, pathComponentCString_eq_ok.mpr ⟨able.component, rfl⟩⟩
  intro component t disk checked
  obtain ⟨isComponent, same⟩ := pathComponentCString_eq_ok.mp checked
  subst component
  rw [← disk] at isAt
  clear! s
  refine (looks_query _).does_bind (.refl _) ?_ ?_
  swap
  · intro able
    rcases able.stage with absent | staged
    · exact ⟨_, absent⟩
    · obtain ⟨_, _, stat, -⟩ := staged.statAt
      exact ⟨_, stat⟩
  intro looked s disk looks
  rw [← disk] at isAt looks
  clear! t
  rcases looked with _ | ⟨actual, inode⟩
  · exact does_sync_absent isAt isComponent looks
  dsimp only
  by_cases isStage : inode.isDir = true ∧ actual = stage
  swap
  · rw [if_pos isStage]
    refine does_fail (.refl _) fun able => isStage ?_
    obtain ⟨staged, mode, stat, -⟩ := (able.of_some looks).statAt
    rw [looks] at stat
    cases stat
    exact ⟨rfl, rfl⟩
  rw [if_neg (not_not.mpr isStage)]
  obtain ⟨isDirectory, rfl⟩ := isStage
  obtain ⟨staged, stageMode, rfl⟩ := isDir_iff.mp isDirectory
  exact does_cleanupPresentStage isAt isComponent looks

/-! ## After a cleanup that stopped -/

/-- What could be removed from a stage can be removed when some of it is gone. -/
theorem Removable.of_shrinks {gone : FileIdentity → Name → Prop} {mode mode' : UInt32} {name : Name}
    {child : FileIdentity} (removable : Removable system entries disk mode name child)
    (shrinks : Shrinks gone disk later) (widened : Widened mode mode') :
    Removable system entries later mode' name child where
  component := removable.component
  own := by
    obtain ⟨file, regular⟩ := removable.own.regular
    exact ⟨removable.own.recorded, file, shrinks.file_of_file regular⟩
  permitted := widened.permits removable.permitted

theorem CleanableStage.of_shrinks {gone : FileIdentity → Name → Prop}
    (able : CleanableStage system entries parent stageName stage disk)
    (shrinks : Shrinks gone disk later) :
    later.statAt parent stageName = .ok none ∨
      CleanableStage system entries parent stageName stage later := by
  obtain ⟨names, mode, staged, stageMode, found, permitted, named, below, readable, valid, all⟩ :=
    able
  obtain ⟨names', mode', found', widened, left⟩ := shrinks.directories parent names mode found
  obtain ⟨staged', stageMode', below', widenedStage, leftBelow⟩ :=
    shrinks.directories stage staged stageMode below
  have permitted' := widened.permits permitted
  have still : ∀ name child, staged'.lookup name = some child → staged.lookup name = some child := by
    intro name child here
    rcases leftBelow name with same | lost
    · rw [← same, here]
    · rw [lost.1] at here
      cases here
  rcases left stageName with same | lost
  · right
    refine ⟨names', mode', staged', stageMode', found', permitted', same.trans named, below',
      widenedStage.permits readable, ?_, ?_⟩
    · intro name mem
      obtain ⟨child, here⟩ := Option.isSome_iff_exists.mp (AList.lookup_isSome.mpr mem)
      exact valid name (AList.lookup_isSome.mp (by rw [still name child here]; rfl))
    · exact fun name child here => (all name child (still name child here)).of_shrinks shrinks
        widenedStage
  · left
    exact Disk.statAt_eq_none.mpr ⟨names', mode', found', permits_trans permitted' (by decide),
      lost.1⟩

/-- A cleanup that stopped leaves a disk that can be cleaned when it found one. -/
theorem Cleanable.of_shrinks {gone : FileIdentity → Name → Prop}
    (able : Cleanable system entries parentPath parent stageName stage disk)
    (shrinks : Shrinks gone disk later) :
    Cleanable system entries parentPath parent stageName stage later where
  isAt := by
    obtain ⟨leads, names, mode, found⟩ := able.isAt
    obtain ⟨names', mode', found', -⟩ := shrinks.directories parent names mode found
    exact ⟨leads, names', mode', found'⟩
  component := able.component
  stage := by
    rcases able.stage with absent | staged
    · left
      obtain ⟨names, mode, found, permitted, missing⟩ := Disk.statAt_eq_none.mp absent
      obtain ⟨names', mode', found', widened, left⟩ := shrinks.directories parent names mode found
      refine Disk.statAt_eq_none.mpr ⟨names', mode', found', widened.permits permitted, ?_⟩
      rcases left stageName with same | lost
      · rw [same, missing]
      · exact lost.1
    · exact staged.of_shrinks shrinks

end Cleanup

/-! ## The stage of a marker -/

section Marker

variable (system : System) (marker : V2ApplyAttemptMarker)

/-- A marker records where the stage is. -/
def RecordsStageAt (parentPath : Bytes) (parent : FileIdentity) (stageName : Bytes)
    (stage : FileIdentity) : Prop :=
  marker.stageParent = some (parentPath, parent) ∧ marker.stage = some (stageName, stage)

/-- What a cleanup for a marker may take from a disk. -/
def MarkerGone (disk : Disk) (dir : FileIdentity) (name : Name) : Prop :=
  ∃ parentPath parent stageName stage, RecordsStageAt marker parentPath parent stageName stage ∧
    Gone system marker.entries parent stageName stage disk dir name

/-- A disk from which a cleanup for a marker succeeds when no call is disturbed. -/
def MarkerCleanable (disk : Disk) : Prop :=
  (∃ parentPath parent stageName stage, RecordsStageAt marker parentPath parent stageName stage ∧
    Cleanable system marker.entries parentPath parent stageName stage disk) ∨
  ((∀ parentPath parent stageName stage,
    ¬ RecordsStageAt marker parentPath parent stageName stage) ∧ marker.entries = [])

/-- The stage that a marker records has a name that the marker does not. -/
def MarkerUnexpected (disk : Disk) : Prop :=
  ∃ parentPath parent stageName stage, RecordsStageAt marker parentPath parent stageName stage ∧
    Unexpected marker.entries parent stageName stage disk

/-- A disk after a cleanup for a marker, or after a part of one. -/
structure MarkerSwept (disk later : Disk) : Prop where
  shrinks : Shrinks (MarkerGone system marker disk) disk later
  last : ∀ parentPath parent stageName stage,
    RecordsStageAt marker parentPath parent stageName stage →
    disk.child parent stageName ≠ none → later.child parent stageName = none →
    (later.entries stage).keys = []

/-- What a cleanup for a marker leaves when it succeeds. -/
structure MarkerCleanedUp (disk later : Disk) : Prop where
  swept : MarkerSwept system marker disk later
  gone : ∀ parentPath parent stageName stage,
    RecordsStageAt marker parentPath parent stageName stage → later.child parent stageName = none
  expected : ¬ MarkerUnexpected marker disk

/-- What a cleanup for a marker leaves when it stops. -/
structure MarkerPartlyCleaned (disk later : Disk) : Prop where
  swept : MarkerSwept system marker disk later
  refused : MarkerUnexpected marker disk → later = disk

variable {system marker} {parentPath : Bytes} {parent : FileIdentity} {stageName : Bytes}
  {stage : FileIdentity} {disk later : Disk}

theorem RecordsStageAt.inj {parentPath' : Bytes} {parent' : FileIdentity} {stageName' : Bytes}
    {stage' : FileIdentity} (records : RecordsStageAt marker parentPath parent stageName stage)
    (records' : RecordsStageAt marker parentPath' parent' stageName' stage') :
    parentPath = parentPath' ∧ parent = parent' ∧ stageName = stageName' ∧ stage = stage' := by
  obtain ⟨inParent, inStage⟩ := records
  obtain ⟨inParent', inStage'⟩ := records'
  rw [inParent, Option.some.injEq, Prod.mk.injEq] at inParent'
  rw [inStage, Option.some.injEq, Prod.mk.injEq] at inStage'
  exact ⟨inParent'.1, inParent'.2, inStage'.1, inStage'.2⟩

theorem MarkerSwept.refl (disk : Disk) : MarkerSwept system marker disk disk where
  shrinks := .refl disk
  last _ _ _ _ _ present absent := absurd absent present

theorem MarkerPartlyCleaned.refl (disk : Disk) : MarkerPartlyCleaned system marker disk disk where
  swept := .refl disk
  refused _ := rfl

theorem MarkerSwept.of_swept (records : RecordsStageAt marker parentPath parent stageName stage)
    (swept : Swept system marker.entries parent stageName stage disk later) :
    MarkerSwept system marker disk later where
  shrinks := swept.shrinks.mono fun _ _ gone => ⟨parentPath, parent, stageName, stage, records, gone⟩
  last _ _ _ _ records' := by
    obtain ⟨-, rfl, rfl, rfl⟩ := records.inj records'
    exact swept.last

theorem MarkerUnexpected.of_records
    (records : RecordsStageAt marker parentPath parent stageName stage)
    (unexpected : MarkerUnexpected marker disk) :
    Unexpected marker.entries parent stageName stage disk := by
  obtain ⟨_, _, _, _, records', unexpected⟩ := unexpected
  obtain ⟨-, rfl, rfl, rfl⟩ := records.inj records'
  exact unexpected

theorem MarkerCleanable.of_shrinks {gone : FileIdentity → Name → Prop}
    (able : MarkerCleanable system marker disk) (shrinks : Shrinks gone disk later) :
    MarkerCleanable system marker later := by
  rcases able with recorded | unrecorded
  · obtain ⟨parentPath, parent, stageName, stage, records, able⟩ := recorded
    exact .inl ⟨parentPath, parent, stageName, stage, records, able.of_shrinks shrinks⟩
  · exact .inr unrecorded

theorem does_cleanupStagedPrecommitStage {blake2b : Bytes → Digest} {contents : Bytes}
    (parsed : parseStagedApplyAttempt blake2b contents = .ok marker)
    (precommit : marker.phase = .preparing ∨ marker.phase = .prepared) (s : Machine) :
    Does system (MarkerCleanable system marker) (MarkerCleanedUp system marker)
      (MarkerPartlyCleaned system marker) (cleanupStagedPrecommitStage system blake2b contents)
      s := by
  unfold cleanupStagedPrecommitStage
  refine (looks_check _).does_bind (.refl _) ?_ fun _ => ⟨marker, parsed⟩
  intro marker' t _ parsed'
  rw [parsed] at parsed'
  cases parsed'
  rw [if_neg (by rcases precommit with phase | phase <;> simp [phase])]
  have unrecorded : (∀ parentPath parent stageName stage,
      ¬ RecordsStageAt marker parentPath parent stageName stage) →
      Does system (MarkerCleanable system marker) (MarkerCleanedUp system marker)
        (MarkerPartlyCleaned system marker)
        (if marker.entries = [] then pure ()
          else Calls.fail "V2 apply marker has staged entries without a recorded stage") t := by
    intro none
    split
    · next empty =>
      refine ⟨⟨.refl _, ?_, ?_⟩, Nat.le_refl _, .inr ⟨none, empty⟩⟩
      · exact fun _ _ _ _ records => absurd records (none _ _ _ _)
      · exact fun unexpected => by
          obtain ⟨_, _, _, _, records, -⟩ := unexpected
          exact none _ _ _ _ records
    · next entries =>
      refine does_fail (.refl _) fun able => ?_
      rcases able with recorded | unrecorded
      · obtain ⟨_, _, _, _, records, -⟩ := recorded
        exact none _ _ _ _ records
      · exact entries unrecorded.2
  split
  · next parentPath parent stageName stage inParent inStage =>
    have records : RecordsStageAt marker parentPath parent stageName stage := ⟨inParent, inStage⟩
    refine (does_cleanupRecordedStage t).mono ?_ ?_ ?_
    · intro able
      rcases able with recorded | unrecorded
      · obtain ⟨_, _, _, _, records', able⟩ := recorded
        obtain ⟨rfl, rfl, rfl, rfl⟩ := records.inj records'
        exact able
      · exact absurd records (unrecorded.1 _ _ _ _)
    · intro disk able cleaned
      obtain ⟨swept, gone, expected⟩ := cleaned
      refine ⟨⟨.of_swept records swept, ?_, ?_⟩, .inl ⟨_, _, _, _, records, able⟩⟩
      · intro _ _ _ _ records'
        obtain ⟨-, rfl, rfl, rfl⟩ := records.inj records'
        exact gone
      · exact fun unexpected => expected (unexpected.of_records records)
    · intro disk partly
      exact ⟨.of_swept records partly.1, fun unexpected => partly.2 (unexpected.of_records records)⟩
  · next missing =>
    apply unrecorded
    intro parentPath parent stageName stage records
    exact missing parentPath parent stageName stage records.1 records.2

end Marker

end Duet.Recovery

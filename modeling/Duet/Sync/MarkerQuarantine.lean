import Duet.Sync.StageCleanup

/-!
# A marker in quarantine

Where the file of a recovery marker is while `abort` and `clear` work on it, and that it is
put back by every error before it is unlinked.
-/

namespace Duet.Recovery

open Lib Marker

/-! ## Parts that leave the disk alone -/

section Untouched

variable {system : System} {α β : Type}

/-- A part of a program that leaves the disk alone, whatever it answers. -/
def Untouched (part : Calls α) : Prop :=
  ∀ s, part.Ends (fun _ t => t.disk = s.disk) (fun _ t => t.disk = s.disk) s

theorem Looks.untouched {part : Calls α} {finds : Disk → α → Prop}
    (looks : Looks system part finds) : Untouched part :=
  fun s => (looks s).mono (fun _ _ holds => holds.1) fun _ _ holds => holds.1

theorem untouched_pure (a : α) : Untouched (pure a : Calls α) := fun _ => rfl

theorem untouched_fail (text : String) : Untouched (Calls.fail text : Calls α) := fun _ => rfl

theorem untouched_query (look : Disk → Except String α) : Untouched (query system look) :=
  (looks_query look).untouched

theorem Untouched.bind {part : Calls α} {next : α → Calls β} (first : Untouched part)
    (second : ∀ a, Untouched (next a)) : Untouched (part >>= next) := by
  intro s
  rw [Effect.ends_bind]
  refine (first s).mono (fun a t disk => ?_) fun _ _ disk => disk
  exact (second a t).mono (fun _ _ disk' => disk'.trans disk) fun _ _ disk' => disk'.trans disk

theorem Untouched.ite {condition : Prop} [Decidable condition] {part other : Calls α}
    (first : Untouched part) (second : Untouched other) :
    Untouched (if condition then part else other) := by
  split
  · exact first
  · exact second

end Untouched

/-! ## Where the marker is -/

/-- A name of the file of a marker. -/
def HasMarker (disk : Disk) (dir : FileIdentity) (name : Name) (identity : FileIdentity)
    (file : MarkerFile) (owner : UInt32) : Prop :=
  disk.child dir name = some identity ∧ disk.inode identity = some (.regular file owner)

/-- A marker that is in quarantine, with its own name free. -/
structure Held (system : System) (marker : QuarantinedApplyMarker) (file : MarkerFile)
    (owner : UInt32) (disk : Disk) : Prop where
  leads : system.leadsTo marker.parentPath = some marker.parent
  dir : ∃ names mode, disk.inode marker.parent = some (.directory names mode) ∧
    permits mode 0o300 = true ∧ names.lookup marker.quarantine = some marker.identity ∧
    names.lookup marker.source = none
  regular : disk.inode marker.identity = some (.regular file owner)
  length : file.contents.length = marker.length

section Quarantine

variable {system : System} {marker : QuarantinedApplyMarker} {file : MarkerFile} {owner : UInt32}
  {disk later : Disk} {dir identity : FileIdentity} {name : Name}

theorem HasMarker.of_shrinks {gone : FileIdentity → Name → Prop}
    (has : HasMarker disk dir name identity file owner) (shrinks : Shrinks gone disk later)
    (stays : ¬ gone dir name) : HasMarker later dir name identity file owner := by
  refine ⟨?_, shrinks.file_of_file has.2⟩
  rcases shrinks.child dir name with same | lost
  · rw [same, has.1]
  · exact absurd lost.2 stays

theorem Held.congr (held : Held system marker file owner disk) (same : later = disk) :
    Held system marker file owner later := same ▸ held

theorem Held.hasMarker (held : Held system marker file owner disk) :
    HasMarker disk marker.parent marker.quarantine marker.identity file owner := by
  obtain ⟨names, mode, found, -, named, -⟩ := held.dir
  exact ⟨(Disk.child_eq found).trans named, held.regular⟩

theorem Held.isAt (held : Held system marker file owner disk) :
    system.IsAt disk marker.parentPath marker.parent := by
  obtain ⟨names, mode, found, -⟩ := held.dir
  exact ⟨held.leads, names, mode, found⟩

/-- A marker stays in quarantine while other names go. -/
theorem Held.of_shrinks {gone : FileIdentity → Name → Prop}
    (held : Held system marker file owner disk) (shrinks : Shrinks gone disk later)
    (stays : ¬ gone marker.parent marker.quarantine) : Held system marker file owner later where
  leads := held.leads
  dir := by
    obtain ⟨names, mode, found, permitted, named, free⟩ := held.dir
    obtain ⟨names', mode', found', widened, left⟩ := shrinks.directories _ names mode found
    refine ⟨names', mode', found', widened.permits permitted, ?_, ?_⟩
    · rcases left marker.quarantine with same | lost
      · rw [same, named]
      · exact absurd lost.2 stays
    · rcases left marker.source with same | lost
      · rw [same, free]
      · exact lost.1
  regular := shrinks.file_of_file held.regular
  length := held.length

/-- A rename within a directory moves the marker. -/
theorem hasMarker_rename {names : Entries} {mode : UInt32} {source destination : Name}
    (found : disk.inode dir = some (.directory names mode))
    (regular : disk.inode identity = some (.regular file owner)) :
    HasMarker (disk.set dir (.directory ((names.erase source).insert destination identity) mode))
      dir destination identity file owner := by
  refine ⟨?_, ?_⟩
  · rw [Disk.child_eq (Disk.inode_set_self _ _ _), AList.lookup_insert]
  · rw [Disk.inode_set_of_ne, regular]
    intro same
    rw [same, found] at regular
    cases regular

theorem Held.exists_rename (held : Held system marker file owner disk) :
    ∃ later, disk.renameAt marker.parent marker.quarantine marker.source = .ok later := by
  obtain ⟨names, mode, found, permitted, named, free⟩ := held.dir
  exact ⟨_, Disk.renameAt_eq_ok.mpr ⟨names, mode, _, found, permitted, named, by simp [free], rfl⟩⟩

/-! ## The restore of a marker -/

theorem looks_verifyComponent (parent : FileIdentity) (name : Name) (identity : FileIdentity)
    (length : Nat) (text : String) :
    Looks system (verifyComponent system parent name identity length text) fun disk _ =>
      ∃ file owner, disk.statAt parent name = .ok (some (identity, .regular file owner)) ∧
        file.contents.length = length := by
  refine (looks_query _).then_require ?_ ?_ ?_
  · intro disk found here holds
    obtain ⟨file, owner, there, same⟩ := holds
    rw [here] at there
    cases there
    simp [same]
  · intro disk found here fails
    rcases found with _ | ⟨actual, inode⟩
    · exact ⟨_, rfl⟩
    · cases inode with
      | directory below mode => exact ⟨_, rfl⟩
      | other => exact ⟨_, rfl⟩
      | regular file owner =>
        refine ⟨text, if_pos ?_⟩
        by_contra same
        rw [not_or, not_not, not_not] at same
        exact fails ⟨file, owner, by rw [here, same.1], same.2⟩
  · intro disk holds
    obtain ⟨file, owner, here, -⟩ := holds
    exact ⟨_, here⟩

theorem looks_checkSourceFree (text : String) :
    Looks system (marker.checkSourceFree system text) fun disk _ =>
      disk.statAt marker.parent marker.source = .ok none := by
  refine (looks_query _).then_require ?_ ?_ ?_
  · intro disk found here holds
    rw [here] at holds
    cases holds
    rfl
  · intro disk found here fails
    cases found with
    | none => exact absurd here fails
    | some _ => exact ⟨text, rfl⟩
  · exact fun disk holds => ⟨none, holds⟩

theorem Held.stat_quarantine (held : Held system marker file owner disk) :
    disk.statAt marker.parent marker.quarantine =
      .ok (some (marker.identity, .regular file owner)) := by
  obtain ⟨names, mode, found, permitted, named, -⟩ := held.dir
  exact Disk.statAt_eq_some.mpr ⟨names, mode, found, permits_trans permitted (by decide), named,
    held.regular⟩

theorem Held.stat_source (held : Held system marker file owner disk) :
    disk.statAt marker.parent marker.source = .ok none := by
  obtain ⟨names, mode, found, permitted, -, free⟩ := held.dir
  exact Disk.statAt_eq_none.mpr ⟨names, mode, found, permits_trans permitted (by decide), free⟩

/-- The marker has its own name, in a directory that its path leads to. -/
structure Back (system : System) (marker : QuarantinedApplyMarker) (file : MarkerFile)
    (owner : UInt32) (disk : Disk) : Prop where
  isAt : system.IsAt disk marker.parentPath marker.parent
  stat : disk.statAt marker.parent marker.source =
    .ok (some (marker.identity, .regular file owner))

theorem Back.hasMarker (back : Back system marker file owner disk) :
    HasMarker disk marker.parent marker.source marker.identity file owner := by
  obtain ⟨names, mode, found, -, named, regular⟩ := Disk.statAt_eq_some.mp back.stat
  exact ⟨(Disk.child_eq found).trans named, regular⟩

theorem Held.back (held : Held system marker file owner disk)
    (renamed : disk.renameAt marker.parent marker.quarantine marker.source = .ok later) :
    Back system marker file owner later := by
  obtain ⟨names, mode, child, found, permitted, named, -, rfl⟩ := Disk.renameAt_eq_ok.mp renamed
  obtain ⟨names', mode', found', -, named', -⟩ := held.dir
  rw [found] at found'
  cases found'
  rw [named] at named'
  cases named'
  refine ⟨held.isAt.set, Disk.statAt_eq_some.mpr ⟨_, _, Disk.inode_set_self _ _ _,
    permits_trans permitted (by decide), AList.lookup_insert _, ?_⟩⟩
  exact (hasMarker_rename found held.regular).2

/-- Where the marker is when a restore of it ends: the error of a restore is that of a call. -/
def Restores (system : System) (marker : QuarantinedApplyMarker) (file : MarkerFile)
    (owner : UInt32) (part : Calls Unit) (s : Machine) : Prop :=
  part.Ends (fun _ t => HasMarker t.disk marker.parent marker.source marker.identity file owner)
    (fun _ t => (∃ name, HasMarker t.disk marker.parent name marker.identity file owner) ∧
      Disturbed system s.calls t.calls) s

theorem restores_syncParent {s : Machine} (back : Back system marker file owner s.disk) :
    Restores system marker file owner (marker.syncParent system) s := by
  refine Effect.Ends.mono (syncs_syncRetainedDirectory s) ?_ ?_
  · intro _ t holds
    rw [holds.1]
    exact back.hasMarker
  · intro _ t holds
    obtain ⟨shrinks, -, why⟩ := holds
    refine ⟨⟨_, back.hasMarker.of_shrinks shrinks id⟩, why ⟨back.isAt, ?_⟩⟩
    intro identity expected
    cases expected

/-- A look at a marker in quarantine that only fails when it is disturbed. -/
theorem Looks.restores_bind {α : Type} {part : Calls α} {finds : Disk → α → Prop}
    (looks : Looks system part finds) {next : α → Calls Unit} {s : Machine} {name : Name}
    (has : HasMarker s.disk marker.parent name marker.identity file owner)
    (later : ∀ a t, t.disk = s.disk → finds s.disk a → Restores system marker file owner (next a) t)
    (needs : ∃ a, finds s.disk a) : Restores system marker file owner (part >>= next) s := by
  apply looks.ends_bind
  · intro a t disk calls found
    refine (later a t disk found).mono (fun _ _ => id) ?_
    exact fun stop u holds => ⟨holds.1, holds.2.mono calls (Nat.le_refl _)⟩
  · intro stop t disk calls why
    exact ⟨⟨name, disk ▸ has⟩, why needs⟩

/-- The rename of a restore, and what comes after it. -/
theorem Held.restores_rename {s : Machine} (held : Held system marker file owner s.disk)
    {next : Unit → Calls Unit}
    (later : ∀ t, Back system marker file owner t.disk → Restores system marker file owner (next ()) t) :
    Restores system marker file owner
      (update system (fun disk => disk.renameAt marker.parent marker.quarantine marker.source) >>=
        next) s := by
  unfold Restores
  rw [Effect.ends_bind]
  apply ends_update
  · intro disk renamed
    refine (later ⟨disk, s.calls + 1⟩ (held.back renamed)).mono (fun _ _ => id) ?_
    exact fun stop u holds => ⟨holds.1, holds.2.mono (Nat.le_succ _) (Nat.le_refl _)⟩
  · intro text failed
    obtain ⟨disk, renamed⟩ := held.exists_rename
    rw [renamed] at failed
    cases failed
  · exact fun stop disturbed => ⟨⟨_, held.hasMarker⟩, disturbed⟩

theorem restores_restore {s : Machine} (held : Held system marker file owner s.disk) :
    Restores system marker file owner (marker.restore system) s := by
  unfold QuarantinedApplyMarker.restore
  refine (looks_verifyComponent _ _ _ _ _).restores_bind held.hasMarker ?_
    ⟨(), file, owner, held.stat_quarantine, held.length⟩
  intro _ t disk _
  rw [← disk] at held
  refine (looks_checkSourceFree _).restores_bind held.hasMarker ?_ ⟨(), held.stat_source⟩
  intro _ u disk' _
  rw [← disk'] at held
  refine held.restores_rename fun v back => ?_
  refine (looks_verifyComponent _ _ _ _ _).restores_bind back.hasMarker ?_
    ⟨(), file, owner, back.stat, held.length⟩
  intro _ w disk'' _
  exact restores_syncParent (disk'' ▸ back)

theorem restores_restoreComponent {s : Machine} (held : Held system marker file owner s.disk) :
    Restores system marker file owner (marker.restoreComponent system) s := by
  unfold QuarantinedApplyMarker.restoreComponent
  refine (looks_checkSourceFree _).restores_bind held.hasMarker ?_ ⟨(), held.stat_source⟩
  intro _ t disk _
  rw [← disk] at held
  refine (looks_query _).restores_bind held.hasMarker ?_ ⟨_, held.stat_quarantine⟩
  intro found u disk' here
  rw [held.stat_quarantine, Except.ok.injEq] at here
  subst here
  rw [← disk'] at held
  dsimp only
  refine held.restores_rename fun v back => ?_
  refine (looks_query _).restores_bind back.hasMarker ?_ ⟨_, back.stat⟩
  intro found w disk'' here
  rw [back.stat, Except.ok.injEq] at here
  subst here
  dsimp only
  rw [if_neg (by simp [QuarantinedApplyMarker.sameComponent])]
  exact restores_syncParent (disk'' ▸ back)

/-! ## Errors -/

/-- The marker with a name, and the file that this name had, in quarantine. -/
structure Quarantined (system : System) (dir : FileIdentity) (name : Name) (identity : FileIdentity)
    (file : MarkerFile) (owner : UInt32) (marker : QuarantinedApplyMarker) (disk : Disk) :
    Prop where
  parent : marker.parent = dir
  source : marker.source = name
  identity : marker.identity = identity
  held : Held system marker file owner disk

/-- A restore of the quarantined marker was one of the calls that failed: the error says so, and
the file of the marker still has one of its names. -/
def RestoreRefused (system : System) (dir : FileIdentity) (name : Name) (identity : FileIdentity)
    (file : MarkerFile) (owner : UInt32) (text : String) (t : Machine) : Prop :=
  ∃ marker u error refusal, Quarantined system dir name identity file owner marker u.disk ∧
    (marker.restore system u = (.error (.error refusal), t) ∨
      marker.restoreComponent system u = (.error (.error refusal), t)) ∧
    text = additionally error refusal ∧ Disturbed system u.calls t.calls ∧
    ∃ name, HasMarker t.disk dir name identity file owner

/-- The quarantined marker was unlinked, and the sync of its directory failed after that. -/
def FailedAfterUnlink (system : System) (dir : FileIdentity) (name : Name)
    (identity : FileIdentity) (file : MarkerFile) (owner : UInt32) (text : String) (t : Machine) :
    Prop :=
  ∃ marker u v, Quarantined system dir name identity file owner marker u.disk ∧
    marker.unlink system u = (.ok (), v) ∧ marker.syncParent system v = (.error (.error text), t)

/-- Where the marker is after an error of a call that was to remove it. -/
def KeptAt (system : System) (dir : FileIdentity) (name : Name) (identity : FileIdentity)
    (file : MarkerFile) (owner : UInt32) (stop : Stop) (t : Machine) : Prop :=
  ∀ text, stop = .error text → HasMarker t.disk dir name identity file owner ∨
    RestoreRefused system dir name identity file owner text t ∨
      FailedAfterUnlink system dir name identity file owner text t

/-- Where a marker that is in quarantine is after an error. -/
abbrev Kept (system : System) (marker : QuarantinedApplyMarker) (file : MarkerFile)
    (owner : UInt32) : Stop → Machine → Prop :=
  KeptAt system marker.parent marker.source marker.identity file owner

theorem ends_combineQuarantineError {α : Type} {s : Machine} {error : String} {restore : Calls Unit}
    {Q : α → Machine → Prop} (held : Held system marker file owner s.disk)
    (restores : Restores system marker file owner restore s)
    (which : restore = marker.restore system ∨ restore = marker.restoreComponent system) :
    (combineQuarantineError error restore : Calls α).Ends Q (Kept system marker file owner) s := by
  unfold combineQuarantineError
  apply ends_attempt_bind
  refine (Effect.Ends.with_run restores).mono ?_ ?_
  · intro _ t holds text same
    cases same
    exact .inl holds.2
  · intro stop t holds
    obtain ⟨run, has, disturbed⟩ := holds
    cases stop with
    | killed => exact fun _ same => nomatch same
    | error refusal =>
      intro text same
      cases same
      right
      left
      refine ⟨marker, s, error, refusal, ⟨rfl, rfl, rfl, held⟩, ?_, rfl, disturbed, has⟩
      rcases which with rfl | rfl
      · exact .inl run
      · exact .inr run

theorem ends_restoreAfterRecoveryError {α : Type} {s : Machine} {error : String}
    {Q : α → Machine → Prop} (held : Held system marker file owner s.disk) :
    (restoreAfterRecoveryError system marker error : Calls α).Ends Q (Kept system marker file owner)
      s :=
  ends_combineQuarantineError held (restores_restore held) (.inl rfl)

/-- A part whose error leads to a restore. -/
theorem ends_attempt_restore {α β : Type} {part : Calls α} {next : Except String α → Calls β}
    {Q : β → Machine → Prop} {R : α → Machine → Prop} {s : Machine}
    (part_ends : part.Ends R (fun _ t => Held system marker file owner t.disk) s)
    (later : ∀ a t, R a t → (next (.ok a)).Ends Q (Kept system marker file owner) t)
    (restores : ∀ error, next (.error error) = restoreAfterRecoveryError system marker error) :
    (Calls.attempt part >>= next).Ends Q (Kept system marker file owner) s := by
  apply ends_attempt_bind
  refine part_ends.mono later ?_
  intro stop t held
  cases stop with
  | killed => exact fun _ same => nomatch same
  | error text =>
    change (next (.error text)).Ends Q _ t
    rw [restores]
    exact ends_restoreAfterRecoveryError held

/-! ## The quarantine -/

theorem looks_fileMetadata : Looks system (marker.fileMetadata system) fun disk file =>
    ∃ owner, disk.inode marker.identity = some (.regular file owner) := by
  refine (looks_query _).weaken fun disk file => ?_
  split
  · next file' owner found => simp [found, eq_comm]
  · next other =>
    simp only [reduceCtorEq, false_iff, not_exists]
    exact fun owner found => other file owner found

theorem untouched_verify : Untouched (marker.verify system) := by
  unfold QuarantinedApplyMarker.verify
  refine looks_fileMetadata.untouched.bind fun metadata => (untouched_query _).bind fun found => ?_
  rcases found with _ | ⟨actual, inode⟩
  · exact untouched_fail _
  · cases inode with
    | directory below mode => exact untouched_fail _
    | other => exact untouched_fail _
    | regular file owner =>
      refine (untouched_fail _).ite ((untouched_query _).bind fun other => ?_)
      cases other with
      | none => exact untouched_pure _
      | some _ => exact untouched_fail _

theorem readToString_eq_ok {bytes text : Bytes} (read : readToString bytes = .ok text) :
    text = bytes := by
  unfold readToString at read
  split at read
  · cases read
    rfl
  · cases read

/-- What is read from the file of a marker. -/
theorem ends_readContents {s : Machine} (held : Held system marker file owner s.disk) :
    (marker.readContents system).Ends (fun contents t => t.disk = s.disk ∧ contents = file.contents)
      (fun _ t => t.disk = s.disk) s := by
  unfold QuarantinedApplyMarker.readContents
  rw [Effect.ends_bind]
  refine (untouched_verify s).mono ?_ fun _ _ disk => disk
  intro _ t disk
  rw [Effect.ends_bind]
  have read : (marker.readDescriptor system).Ends
      (fun contents u => u.disk = t.disk ∧ contents = file.contents)
      (fun _ u => u.disk = t.disk) t := by
    unfold QuarantinedApplyMarker.readDescriptor
    split
    · rfl
    next bounded =>
    apply looks_fileMetadata.ends_bind
    swap
    · exact fun _ _ disk _ _ => disk
    intro found u disk' _ here
    obtain ⟨owner', here⟩ := here
    rw [disk, held.regular] at here
    cases here
    apply (looks_check _ : Looks system (Calls.check _) _).ends_bind
    swap
    · exact fun _ _ disk'' _ _ => disk''.trans disk'
    intro contents v disk'' _ read
    have contents := readToString_eq_ok read
    have short : file.contents.length ≤ maxStagedMarkerBytes + 1 := by
      rw [held.length]
      omega
    rw [List.take_of_length_le short] at contents
    split
    · exact disk''.trans disk'
    · exact ⟨disk''.trans disk', contents⟩
  refine read.mono ?_ fun _ _ disk' => disk'.trans disk
  intro contents u holds
  obtain ⟨disk', same⟩ := holds
  rw [Effect.ends_bind]
  refine (untouched_verify u).mono ?_ fun _ _ disk'' => disk''.trans (disk'.trans disk)
  exact fun _ v disk'' => ⟨disk''.trans (disk'.trans disk), same⟩

/-- The file that a name of a marker is opened as. -/
theorem openFileAt_eq {found : FileIdentity × MarkerFile}
    (has : HasMarker disk dir name identity file owner)
    (opened : disk.openFileAt dir name = .ok found) : found = (identity, file) := by
  unfold Disk.openFileAt at opened
  obtain ⟨stat, here, opened⟩ := bind_eq_ok.mp opened
  split at opened
  · next identity' file' owner' =>
    obtain ⟨names, mode, inode, -, named, regular⟩ := Disk.statAt_eq_some.mp here
    have same := (Disk.child_eq inode).symm.trans has.1
    rw [named, Option.some.injEq] at same
    rw [same, has.2] at regular
    cases regular
    split at opened
    · cases opened
      rw [same]
    · cases opened
  · cases opened

theorem ends_uniqueMarkerQuarantineName (parent : FileIdentity) (attempts : Nat) (s : Machine) :
    (uniqueMarkerQuarantineName system parent attempts).Ends
      (fun name t => t.disk = s.disk ∧ s.disk.statAt parent name = .ok none)
      (fun _ t => t.disk = s.disk) s := by
  induction attempts generalizing s with
  | zero => rfl
  | succ attempts ih =>
    unfold uniqueMarkerQuarantineName
    rw [Effect.ends_bind, Effect.ends_read]
    apply (looks_query _).ends_bind
    swap
    · exact fun _ _ disk _ _ => disk
    intro found t disk _ here
    cases found with
    | none => exact ⟨disk, here⟩
    | some _ =>
      refine (ih t).mono ?_ fun _ _ disk' => disk'.trans disk
      exact fun name u holds => ⟨holds.1.trans disk, disk ▸ holds.2⟩

/-- A marker that was renamed to a name that was free. -/
theorem held_of_rename {place : MarkerPlace} {parent : FileIdentity} {quarantine : Name}
    (leads : system.leadsTo place.parent = some parent)
    (has : HasMarker disk parent place.name identity file owner)
    (free : disk.statAt parent quarantine = .ok none)
    (renamed : disk.renameAt parent place.name quarantine = .ok later) :
    Held system ⟨place.parent, parent, place.name, quarantine, identity, file.contents.length,
      file.mode⟩ file owner later where
  leads := leads
  dir := by
    obtain ⟨names, mode, child, found, permitted, named, -, rfl⟩ := Disk.renameAt_eq_ok.mp renamed
    obtain ⟨names', mode', found', -, missing⟩ := Disk.statAt_eq_none.mp free
    rw [found] at found'
    cases found'
    have same := (Disk.child_eq found).symm.trans has.1
    rw [named, Option.some.injEq] at same
    subst same
    have differs : place.name ≠ quarantine := by
      intro same
      rw [same, missing] at named
      cases named
    refine ⟨_, _, Disk.inode_set_self _ _ _, permitted, AList.lookup_insert _, ?_⟩
    rw [AList.lookup_insert_ne differs, AList.lookup_erase]
  regular := by
    obtain ⟨names, mode, child, found, -, named, -, rfl⟩ := Disk.renameAt_eq_ok.mp renamed
    have same := (Disk.child_eq found).symm.trans has.1
    rw [named, Option.some.injEq] at same
    subst same
    exact (hasMarker_rename found has.2).2
  length := rfl

theorem ends_quarantineApplyMarker {s : Machine} {place : MarkerPlace} {parent : FileIdentity}
    (leads : system.leadsTo place.parent = some parent)
    (has : HasMarker s.disk parent place.name identity file owner) :
    (quarantineApplyMarker system place).Ends
      (fun marker t => Held system marker file owner t.disk ∧ marker.parent = parent ∧
        marker.source = place.name ∧ marker.identity = identity ∧ marker.mode = file.mode)
      (KeptAt system parent place.name identity file owner) s := by
  have stays : ∀ stop t, t.disk = s.disk →
      KeptAt system parent place.name identity file owner stop t :=
    fun stop t disk text _ => .inl (disk ▸ has)
  unfold quarantineApplyMarker
  apply (looks_openDirectoryForAccess _).ends_bind
  swap
  · exact fun stop t disk _ _ => stays stop t disk
  intro opened t disk₁ _ isAt
  have same := isAt.1
  rw [leads, Option.some.injEq] at same
  subst same
  apply (looks_verifyPathIdentity _ _ _).ends_bind
  swap
  · exact fun stop t disk _ _ => stays stop t (disk.trans disk₁)
  intro _ u disk₂ _ _
  have disk₂ := disk₂.trans disk₁
  apply (looks_check _ : Looks system (Calls.check _) _).ends_bind
  swap
  · exact fun stop t disk _ _ => stays stop t (disk.trans disk₂)
  intro component v disk₃ _ checked
  have disk₃ := disk₃.trans disk₂
  obtain ⟨-, same⟩ := pathComponentCString_eq_ok.mp checked
  subst component
  apply (looks_query _).ends_bind
  swap
  · exact fun stop t disk _ _ => stays stop t (disk.trans disk₃)
  intro found w disk₄ _ openedAt
  have disk₄ := disk₄.trans disk₃
  rw [disk₃] at openedAt
  obtain rfl : found = (identity, file) := openFileAt_eq has openedAt
  dsimp only
  split
  · exact stays _ _ disk₄
  apply (looks_verifyComponent _ _ _ _ _).ends_bind
  swap
  · exact fun stop t disk _ _ => stays stop t (disk.trans disk₄)
  intro _ x disk₅ _ _
  have disk₅ := disk₅.trans disk₄
  rw [Effect.ends_bind]
  refine (ends_uniqueMarkerQuarantineName _ _ x).mono ?_ fun stop t disk =>
    stays stop t (disk.trans disk₅)
  intro quarantine y holds
  obtain ⟨disk₆, free⟩ := holds
  have disk₆ := disk₆.trans disk₅
  rw [disk₅] at free
  rw [Effect.ends_bind]
  apply ends_update
  · intro later renamed
    rw [disk₆] at renamed
    have held := held_of_rename leads has free renamed
    apply ends_attempt_bind
    refine (untouched_verify _).mono ?_ ?_
    · exact fun _ z disk => ⟨held.congr disk, rfl, rfl, rfl, rfl⟩
    · intro stop z disk
      cases stop with
      | killed => exact fun _ same => nomatch same
      | error text =>
        exact ends_combineQuarantineError (held.congr disk)
          (restores_restoreComponent (held.congr disk)) (.inr rfl)
  · exact fun text _ => stays _ _ disk₆
  · exact fun stop _ => stays stop _ disk₆

theorem ends_unlinkQuarantinedMarker {s : Machine} (held : Held system marker file owner s.disk) :
    (unlinkQuarantinedMarker system marker).Ends (fun _ _ => True)
      (Kept system marker file owner) s := by
  have unlinks : (marker.unlink system).Ends
      (fun _ t => marker.unlink system s = (.ok (), t))
      (fun _ t => Held system marker file owner t.disk) s := by
    have ends : (marker.unlink system).Ends (fun _ _ => True)
        (fun _ t => Held system marker file owner t.disk) s := by
      unfold QuarantinedApplyMarker.unlink
      rw [Effect.ends_bind]
      refine (untouched_verify s).mono ?_ fun _ _ disk => held.congr disk
      intro _ t disk
      apply ends_update
      · exact fun _ _ => trivial
      · exact fun _ _ => held.congr disk
      · exact fun _ _ => held.congr disk
    exact ends.with_run.mono (fun _ _ run => run.1) fun _ _ run => run.2
  unfold unlinkQuarantinedMarker
  refine ends_attempt_restore unlinks ?_ fun _ => rfl
  intro _ t run
  have ends : (marker.syncParent system).Ends (fun _ _ => True) (fun _ _ => True) t := by
    refine Effect.Ends.mono (syncs_syncRetainedDirectory t) ?_ ?_
    · exact fun _ _ _ => trivial
    · exact fun _ _ _ => trivial
  refine ends.with_run.mono (fun _ _ _ => trivial) ?_
  intro stop v failed text same
  subst same
  exact .inr (.inr ⟨marker, s, t, ⟨rfl, rfl, rfl, held⟩, run, failed.1⟩)

/-! ## Abort and clear -/

/-- A marker that does not record its own file as one that was staged. -/
def RecordsOthers (blake2b : Bytes → Digest) (contents : Bytes) (identity : FileIdentity) : Prop :=
  ∀ marker, parseStagedApplyAttempt blake2b contents = .ok marker →
    ∀ entry ∈ marker.entries, entry.2 ≠ identity

theorem recordedIdentity_mem {entries : List (Bytes × FileIdentity)}
    (recorded : recordedIdentity entries name = some identity) :
    ∃ entry ∈ entries, entry.2 = identity := by
  unfold recordedIdentity at recorded
  obtain ⟨entry, found, same⟩ := Option.map_eq_some_iff.mp recorded
  exact ⟨entry, List.mem_of_find?_eq_some found, same⟩

/-- A cleanup does not take the file of the marker. -/
theorem Held.stays {parsed : V2ApplyAttemptMarker} (held : Held system marker file owner disk)
    (others : ∀ entry ∈ parsed.entries, entry.2 ≠ marker.identity) :
    ¬ MarkerGone system parsed disk marker.parent marker.quarantine := by
  intro gone
  obtain ⟨parentPath, parent, stageName, stage, -, named, directory, which⟩ := gone
  have here := held.hasMarker
  rcases which with staged | last
  · obtain ⟨same, child, named', own⟩ := staged
    rw [← same, here.1, Option.some.injEq] at named'
    rw [← named'] at own
    obtain ⟨entry, mem, same⟩ := recordedIdentity_mem own.recorded
    exact others entry mem same
  · rw [← last.1, ← last.2, here.1, Option.some.injEq] at named
    rw [← named, here.2] at directory
    obtain ⟨_, _, absurd⟩ := directory
    cases absurd

section Remove

variable {blake2b : Bytes → Digest} {s : Machine}

theorem ends_cleanupAndUnlink {parsed : V2ApplyAttemptMarker} {changed : String}
    (held : Held system marker file owner s.disk)
    (read : parseStagedApplyAttempt blake2b file.contents = .ok parsed)
    (precommit : parsed.phase = .preparing ∨ parsed.phase = .prepared)
    (others : RecordsOthers blake2b file.contents marker.identity) :
    (cleanupAndUnlink system blake2b marker file.contents changed).Ends (fun _ _ => True)
      (Kept system marker file owner) s := by
  have stays := held.stays (others parsed read)
  have cleans : (cleanupStagedPrecommitStage system blake2b file.contents).Ends
      (fun _ t => Held system marker file owner t.disk)
      (fun _ t => Held system marker file owner t.disk) s := by
    refine Effect.Ends.mono (does_cleanupStagedPrecommitStage read precommit s) ?_ ?_
    · exact fun _ t holds => held.of_shrinks holds.1.swept.shrinks stays
    · exact fun _ t holds => held.of_shrinks holds.1.swept.shrinks stays
  unfold cleanupAndUnlink
  refine ends_attempt_restore cleans ?_ fun _ => rfl
  intro _ t held
  have reads : (marker.readContents system).Ends
      (fun _ u => Held system marker file owner u.disk)
      (fun _ u => Held system marker file owner u.disk) t :=
    (ends_readContents held).mono (fun _ _ holds => held.congr holds.1)
      fun _ _ disk => held.congr disk
  refine ends_attempt_restore reads ?_ fun _ => rfl
  intro current u held
  dsimp only
  split
  · exact ends_unlinkQuarantinedMarker held
  · exact ends_restoreAfterRecoveryError held

/-- A program that quarantines a marker, reads it, and goes on from its contents. -/
theorem ends_quarantined {place : MarkerPlace} {parent : FileIdentity}
    {next : QuarantinedApplyMarker → Except String Bytes → Calls Unit}
    (leads : system.leadsTo place.parent = some parent)
    (has : HasMarker s.disk parent place.name identity file owner)
    (goes_on : ∀ marker t, marker.identity = identity → Held system marker file owner t.disk →
      (next marker (.ok file.contents)).Ends (fun _ _ => True) (Kept system marker file owner) t)
    (restores : ∀ marker error,
      next marker (.error error) = restoreAfterRecoveryError system marker error) :
    (quarantineApplyMarker system place >>= fun marker =>
      Calls.attempt (marker.readContents system) >>= next marker).Ends (fun _ _ => True)
      (KeptAt system parent place.name identity file owner) s := by
  rw [Effect.ends_bind]
  refine (ends_quarantineApplyMarker leads has).mono ?_ fun _ _ => id
  intro marker t holds
  obtain ⟨held, rfl, source, rfl, -⟩ := holds
  rw [← source]
  have reads : (marker.readContents system).Ends
      (fun contents u => contents = file.contents ∧ Held system marker file owner u.disk)
      (fun _ u => Held system marker file owner u.disk) t :=
    (ends_readContents held).mono (fun _ _ holds => ⟨holds.2, held.congr holds.1⟩)
      fun _ _ disk => held.congr disk
  refine ends_attempt_restore reads ?_ (restores marker)
  intro contents u holds
  rw [holds.1]
  exact goes_on marker u rfl holds.2

theorem ends_abortStagedApplyAttempt {place : MarkerPlace} {parent : FileIdentity}
    {attemptId : Bytes} (leads : system.leadsTo place.parent = some parent)
    (has : HasMarker s.disk parent place.name identity file owner)
    (others : RecordsOthers blake2b file.contents identity) :
    (abortStagedApplyAttempt system blake2b place attemptId).Ends (fun _ _ => True)
      (KeptAt system parent place.name identity file owner) s := by
  unfold abortStagedApplyAttempt
  refine ends_quarantined leads has ?_ fun _ _ => rfl
  intro marker t same held
  dsimp only
  split
  · exact ends_restoreAfterRecoveryError held
  next parsed read =>
  split
  · exact ends_restoreAfterRecoveryError held
  split
  · exact ends_restoreAfterRecoveryError held
  split
  · exact ends_restoreAfterRecoveryError held
  next precommit =>
  refine ends_cleanupAndUnlink held read ?_ (same ▸ others)
  by_contra neither
  rw [not_or] at neither
  exact precommit neither

theorem ends_clearApplyAttempt {place : MarkerPlace} {parent : FileIdentity}
    (leads : system.leadsTo place.parent = some parent)
    (has : HasMarker s.disk parent place.name identity file owner)
    (others : RecordsOthers blake2b file.contents identity) :
    (clearApplyAttempt system blake2b place).Ends (fun _ _ => True)
      (KeptAt system parent place.name identity file owner) s := by
  unfold clearApplyAttempt
  refine ends_quarantined leads has ?_ fun _ _ => rfl
  intro marker t same held
  dsimp only
  split
  · split
    · exact ends_restoreAfterRecoveryError held
    next parsed read =>
    split
    · exact ends_restoreAfterRecoveryError held
    split
    · next precommit => exact ends_cleanupAndUnlink held read precommit (same ▸ others)
    · exact ends_unlinkQuarantinedMarker held
  · split
    · exact ends_unlinkQuarantinedMarker held
    · exact ends_restoreAfterRecoveryError held

end Remove

end Quarantine

end Duet.Recovery

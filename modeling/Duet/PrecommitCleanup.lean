import Duet.Sync.MarkerQuarantine
import Mathlib.Logic.Relation

/-!
# The cleanup before a commit

What a cleanup of the stage of a marker may do to a disk in all its runs, that runs of it which
were interrupted or refused do not keep a later one from succeeding, and where the marker is
when `abort` or `clear` reports an error.
-/

namespace Duet.Recovery

open Lib Marker
open Relation (ReflTransGen)

/-- The same system with other answers. -/
def System.answering (system : System) (answer : Nat → Answer) : System :=
  { system with answer := answer }

/-- A system on which every call is made. -/
def System.undisturbed (system : System) : System := system.answering fun _ => .done

theorem not_disturbed {system : System} {first last : Nat} :
    ¬ Disturbed system.undisturbed first last := by
  intro disturbed
  obtain ⟨i, -, -, answer⟩ := disturbed
  exact answer rfl

section Runs

variable (blake2b : Bytes → Digest) (contents : Bytes) (system : System)

/-- A run of the cleanup on a disk answers when no call is disturbed. -/
def Succeeds (disk : Disk) : Prop :=
  ∃ calls t, cleanupStagedPrecommitStage system.undisturbed blake2b contents ⟨disk, calls⟩ =
    (.ok (), t)

/-- A run of the cleanup that was interrupted or failed, with some answers of the system. -/
def StoppedRun (disk later : Disk) : Prop :=
  ∃ answer calls stop t,
    cleanupStagedPrecommitStage (system.answering answer) blake2b contents ⟨disk, calls⟩ =
      (.error stop, t) ∧ t.disk = later

end Runs

section Results

variable {blake2b : Bytes → Digest} {contents : Bytes} {system : System} {disk : Disk} {calls : Nat}

theorem succeeds_of_toOption
    (ok : (cleanupStagedPrecommitStage system.undisturbed blake2b contents
      ⟨disk, calls⟩).1.toOption = some ()) : Succeeds blake2b contents system disk := by
  unfold Succeeds
  generalize run : cleanupStagedPrecommitStage system.undisturbed blake2b contents ⟨disk, calls⟩ =
    result at ok
  rcases result with ⟨stop | _, t⟩
  · cases ok
  · exact ⟨calls, t, run⟩

theorem stoppedRun_of_toOption {answer : Nat → Answer}
    (failed : (cleanupStagedPrecommitStage (system.answering answer) blake2b contents
      ⟨disk, calls⟩).1.toOption = none) :
    StoppedRun blake2b contents system disk
      (cleanupStagedPrecommitStage (system.answering answer) blake2b contents
        ⟨disk, calls⟩).2.disk := by
  unfold StoppedRun
  generalize run : cleanupStagedPrecommitStage (system.answering answer) blake2b contents
    ⟨disk, calls⟩ = result at failed
  rcases result with ⟨stop | _, t⟩
  · exact ⟨answer, calls, stop, t, run, rfl⟩
  · cases failed

end Results

section Retry

variable {blake2b : Bytes → Digest} {contents : Bytes} {marker : V2ApplyAttemptMarker}
  {system : System} {disk later : Disk}

/-- What can be cleaned does not depend on the answers. -/
theorem MarkerCleanable.answering {answer : Nat → Answer}
    (able : MarkerCleanable (system.answering answer) marker disk) (answer' : Nat → Answer) :
    MarkerCleanable (system.answering answer') marker disk := by
  rcases able with recorded | unrecorded
  · obtain ⟨parentPath, parent, stageName, stage, records, able⟩ := recorded
    refine .inl ⟨parentPath, parent, stageName, stage, records, able.isAt, able.component, ?_⟩
    rcases able.stage with absent | staged
    · exact .inl absent
    · obtain ⟨names, mode, below, stageMode, found, permitted, named, inode, readable, valid, all⟩ :=
        staged
      refine .inr ⟨names, mode, below, stageMode, found, permitted, named, inode, readable, valid, ?_⟩
      intro name child here
      obtain ⟨component, own, permitted⟩ := all name child here
      exact ⟨component, ⟨own.recorded, own.regular⟩, permitted⟩
  · exact .inr unrecorded

theorem markerCleanable_of_succeeds
    (parsed : parseStagedApplyAttempt blake2b contents = .ok marker)
    (precommit : marker.phase = .preparing ∨ marker.phase = .prepared)
    (succeeds : Succeeds blake2b contents system disk) : MarkerCleanable system marker disk := by
  obtain ⟨calls, t, run⟩ := succeeds
  have able := (Effect.Ends.of_ok (does_cleanupStagedPrecommitStage parsed precommit _) run).2.2
  exact able.answering system.answer

/-- The step: a run that stops leaves a disk from which another one can succeed. -/
theorem MarkerCleanable.of_stoppedRun
    (parsed : parseStagedApplyAttempt blake2b contents = .ok marker)
    (precommit : marker.phase = .preparing ∨ marker.phase = .prepared)
    (able : MarkerCleanable system marker disk)
    (stopped : StoppedRun blake2b contents system disk later) :
    MarkerCleanable system marker later := by
  obtain ⟨answer, calls, stop, t, run, rfl⟩ := stopped
  have ends := Effect.Ends.of_error (does_cleanupStagedPrecommitStage parsed precommit _) run
  exact able.of_shrinks ends.1.swept.shrinks

theorem MarkerCleanable.of_stoppedRuns
    (parsed : parseStagedApplyAttempt blake2b contents = .ok marker)
    (precommit : marker.phase = .preparing ∨ marker.phase = .prepared)
    (able : MarkerCleanable system marker disk)
    (stopped : ReflTransGen (StoppedRun blake2b contents system) disk later) :
    MarkerCleanable system marker later := by
  induction stopped with
  | refl => exact able
  | tail _ last ih => exact ih.of_stoppedRun parsed precommit last

/-- A cleanup that no call disturbs ends well where it can. -/
theorem MarkerCleanable.cleans (parsed : parseStagedApplyAttempt blake2b contents = .ok marker)
    (precommit : marker.phase = .preparing ∨ marker.phase = .prepared)
    (able : MarkerCleanable system marker disk) (calls : Nat) :
    ∃ t, cleanupStagedPrecommitStage system.undisturbed blake2b contents ⟨disk, calls⟩ =
      (.ok (), t) ∧ ∀ parentPath parent stageName stage,
        RecordsStageAt marker parentPath parent stageName stage →
        t.disk.child parent stageName = none := by
  have does := @does_cleanupStagedPrecommitStage system.undisturbed marker blake2b contents parsed
    precommit ⟨disk, calls⟩
  cases run : cleanupStagedPrecommitStage system.undisturbed blake2b contents ⟨disk, calls⟩ with
  | mk result t =>
    cases result with
    | ok _ => exact ⟨t, rfl, (Effect.Ends.of_ok does run).1.gone⟩
    | error stop =>
      have able := @MarkerCleanable.answering _ system _ system.answer able fun _ => .done
      exact absurd ((Effect.Ends.of_error does run).2.2 able) not_disturbed

end Retry

/-- The cleanup for a marker of an attempt that was not committed. Every run of it takes no more
than recorded files of this user from the recorded stage and then the stage, and nothing when the
stage has a name that is not recorded; then it does not succeed. Where a run that is not
disturbed would succeed, such a run succeeds after any number of runs that were interrupted or
failed, and the stage is gone. An error of `abort` or `clear` leaves the marker under its name with
its contents, or it says that the restore failed, after a call of the restore was refused, or it
comes after the unlink of the marker. -/
theorem precommitCleanup_retrySafe {blake2b : Bytes → Digest} {contents : Bytes}
    {marker : V2ApplyAttemptMarker}
    (parsed : parseStagedApplyAttempt blake2b contents = .ok marker)
    (precommit : marker.phase = .preparing ∨ marker.phase = .prepared) (system : System) :
    (∀ s result t, cleanupStagedPrecommitStage system blake2b contents s = (result, t) →
      MarkerSwept system marker s.disk t.disk ∧
      (MarkerUnexpected marker s.disk → (∃ stop, result = .error stop) ∧ t.disk = s.disk)) ∧
    (∀ disk later calls, Succeeds blake2b contents system disk →
      ReflTransGen (StoppedRun blake2b contents system) disk later →
      ∃ t, cleanupStagedPrecommitStage system.undisturbed blake2b contents ⟨later, calls⟩ =
          (.ok (), t) ∧
        ∀ parentPath parent stageName stage,
          RecordsStageAt marker parentPath parent stageName stage →
          t.disk.child parent stageName = none) ∧
    ∀ place parent identity file owner attemptId s stop t,
      system.leadsTo place.parent = some parent →
      HasMarker s.disk parent place.name identity file owner →
      RecordsOthers blake2b file.contents identity →
      (abortStagedApplyAttempt system blake2b place attemptId s = (.error stop, t) ∨
        clearApplyAttempt system blake2b place s = (.error stop, t)) →
      KeptAt system parent place.name identity file owner stop t := by
  refine ⟨?_, ?_, ?_⟩
  · intro s result t run
    have does := @does_cleanupStagedPrecommitStage system marker blake2b contents parsed precommit s
    cases result with
    | ok _ =>
      have ends := (Effect.Ends.of_ok does run).1
      exact ⟨ends.swept, fun unexpected => absurd unexpected ends.expected⟩
    | error stop =>
      have ends := (Effect.Ends.of_error does run).1
      exact ⟨ends.swept, fun unexpected => ⟨⟨stop, rfl⟩, ends.refused unexpected⟩⟩
  · intro disk later calls succeeds stopped
    have able := (markerCleanable_of_succeeds parsed precommit succeeds).of_stoppedRuns parsed
      precommit stopped
    exact able.cleans parsed precommit calls
  · intro place parent identity file owner attemptId s stop t leads has others failed
    rcases failed with aborted | cleared
    · exact Effect.Ends.of_error (ends_abortStagedApplyAttempt leads has others) aborted
    · exact Effect.Ends.of_error (ends_clearApplyAttempt leads has others) cleared

/-! ## A stage with one file -/

/-- A marker that records one file in a stage. -/
def oneFileContents : Bytes :=
  ascii ("duet-apply-attempt-v2\nattempt-id: a\nphase: preparing\nstage-parent: /b 1 2\n" ++
    "stage: s 1 3\nstage-entry: o 1 4\n")

def oneFileMarker : V2ApplyAttemptMarker where
  version := .v2
  attemptId := ascii "a"
  phase := .preparing
  stageParent := some (ascii "/b", ⟨1, 2⟩)
  stage := some (ascii "s", ⟨1, 3⟩)
  entries := [(ascii "o", ⟨1, 4⟩)]
  appliedSlots := 0
  appliedDigest := Vector.replicate 32 0
  slotOffsets := [0, 0, 0, 0, 0]

theorem oneFile_parses : parseStagedApplyAttempt (fun _ => Vector.replicate 32 0) oneFileContents =
    .ok oneFileMarker := by
  have same : (parseStagedApplyAttempt (fun _ => Vector.replicate 32 0) oneFileContents).toOption =
      some oneFileMarker := by decide +kernel
  cases parsed : parseStagedApplyAttempt (fun _ => Vector.replicate 32 0) oneFileContents with
  | error text =>
    rw [parsed] at same
    cases same
  | ok marker =>
    rw [parsed] at same
    exact congrArg Except.ok (Option.some.inj same)

/-- A user with one tree. -/
def oneUser : System where
  answer _ := .done
  leadsTo path := if path = ascii "/b" then some ⟨1, 2⟩ else none
  euid := 7
  nonce _ := 0
  syncsAccess := true

/-- A stage with a file of some identity under the name that the marker records. -/
def stageWith (identity : FileIdentity) : Disk where
  inode other :=
    if other = ⟨1, 2⟩ then
      some (.directory ((∅ : Entries).insert (ascii "s") ⟨1, 3⟩) 0o700)
    else if other = ⟨1, 3⟩ then
      some (.directory ((∅ : Entries).insert (ascii "o") identity) 0o700)
    else if other = identity then some (.regular ⟨[], 0o600⟩ 7)
    else none

/-- The cleanup of the stage with one file, with some answers of the system. -/
def cleanOne (answer : Nat → Answer) (disk : Disk) : Except Stop Unit × Machine :=
  cleanupStagedPrecommitStage (oneUser.answering answer) (fun _ => Vector.replicate 32 0)
    oneFileContents ⟨disk, 0⟩

/-- Where a file of the stage was replaced, the cleanup refuses, and it refuses again when it is
run once more on the disk that it left. -/
theorem precommitCleanup_substituted :
    parseStagedApplyAttempt (fun _ => Vector.replicate 32 0) oneFileContents = .ok oneFileMarker ∧
    oneFileMarker.phase = .preparing ∧
    (cleanOne (fun _ => .done) (stageWith ⟨1, 5⟩)).1 ≠ .ok () ∧
    (cleanOne (fun _ => .done) (cleanOne (fun _ => .done) (stageWith ⟨1, 5⟩)).2.disk).1 ≠ .ok () := by
  have first : (cleanOne (fun _ => .done) (stageWith ⟨1, 5⟩)).1.toOption = none := by decide +kernel
  have second : (cleanOne (fun _ => .done)
      (cleanOne (fun _ => .done) (stageWith ⟨1, 5⟩)).2.disk).1.toOption = none := by decide +kernel
  refine ⟨oneFile_parses, rfl, ?_, ?_⟩
  · intro succeeded
    rw [succeeded] at first
    cases first
  · intro succeeded
    rw [succeeded] at second
    cases second

/-- Answers of a system that kills the process at some call. -/
def killedAt (last call : Nat) : Answer := if call < last then .done else .killed

/-- A cleanup that was killed when the file was gone and the stage was not, and the next one. -/
theorem precommitCleanup_retrySafe_killed :
    (cleanOne (killedAt 11) (stageWith ⟨1, 4⟩)).2.disk.child ⟨1, 3⟩ (ascii "o") = none ∧
    (cleanOne (killedAt 11) (stageWith ⟨1, 4⟩)).2.disk.child ⟨1, 2⟩ (ascii "s") ≠ none ∧
    ∃ t, cleanOne (fun _ => .done) (cleanOne (killedAt 11) (stageWith ⟨1, 4⟩)).2.disk = (.ok (), t) ∧
      t.disk.child ⟨1, 2⟩ (ascii "s") = none := by
  have undisturbed : (cleanOne (fun _ => .done) (stageWith ⟨1, 4⟩)).1.toOption = some () := by
    decide +kernel
  have killed : (cleanOne (killedAt 11) (stageWith ⟨1, 4⟩)).1.toOption = none := by decide +kernel
  refine ⟨by decide +kernel, by decide +kernel, ?_⟩
  obtain ⟨-, retries, -⟩ := precommitCleanup_retrySafe oneFile_parses (.inl rfl) oneUser
  have succeeds : Succeeds (fun _ => Vector.replicate 32 0) oneFileContents oneUser
      (stageWith ⟨1, 4⟩) := succeeds_of_toOption undisturbed
  have stopped : StoppedRun (fun _ => Vector.replicate 32 0) oneFileContents oneUser
      (stageWith ⟨1, 4⟩) (cleanOne (killedAt 11) (stageWith ⟨1, 4⟩)).2.disk := by
    unfold cleanOne at killed ⊢
    exact stoppedRun_of_toOption killed
  obtain ⟨t, run, gone⟩ := retries _ _ 0 succeeds (.single stopped)
  exact ⟨t, run, gone (ascii "/b") ⟨1, 2⟩ (ascii "s") ⟨1, 3⟩ ⟨rfl, rfl⟩⟩

end Duet.Recovery

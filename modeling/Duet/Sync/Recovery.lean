import Duet.Sync.SystemCalls

/-!
# Recovery of a staged attempt

The cleanup of the stage of an attempt that was not committed, and the calls that remove the
recovery marker of such an attempt: the marker is renamed aside before it is read, and
renamed back when anything fails before it is unlinked.
-/

namespace Duet.Recovery

open Lib Marker
open ApplyAttemptPhase (preparing prepared)

/-- The recovery marker of a state file, as `apply_attempt_path` gives it: its directory and
its name there. -/
structure MarkerPlace where
  parent : Bytes
  name : Bytes
deriving DecidableEq, Repr

/-! ## The cleanup of a stage -/

section Cleanup

variable (system : System)

/-- `directory_entry_names`, of which no `readdir` fails halfway -/
def directoryEntryNames (directory : FileIdentity) : Calls (List Name) := do
  let names ← query system fun disk => (disk.directory directory 0).map fun (entries, _) => entries.keys
  if names.all fun name => name.toByteArray.validateUTF8 then pure names
  else Calls.fail "staging directory contains a non-UTF-8 entry"

/-- One round of the loop over the names in the stage. -/
def removeStagedEntry (stage : FileIdentity) (entries : List (Bytes × FileIdentity)) (name : Name) :
    Calls Unit := do
  match entries.find? (·.1 = name) with
  | none => Calls.fail "staging directory contains unexpected entries"
  | some (_, expected) => do
    let component ← Calls.check (pathComponentCString name "recorded staged entry")
    match ← query system fun disk => disk.statAt stage component with
    | none => Calls.fail "No such file or directory"
    | some (actual, inode) =>
      match inode with
      | .regular _ owner =>
        if owner ≠ system.euid ∨ actual ≠ expected then
          Calls.fail "refusing to remove substituted staged entry"
        else
          update system fun disk => disk.unlinkAt stage component
      | _ => Calls.fail "refusing to remove substituted staged entry"

/-- What `cleanup_staged_precommit_stage` does with a stage that is there. -/
def cleanupPresentStage (parentPath : Bytes) (parent parentIdentity : FileIdentity)
    (stageName : Name) (stageIdentity : FileIdentity) (entries : List (Bytes × FileIdentity)) :
    Calls Unit := do
  let stage ← query system fun disk => disk.openDirectoryAt parent stageName
  verifyDirectoryHandleIdentity system stage stageIdentity "staging directory"
  let names ← directoryEntryNames system stage
  if names.any fun name => (entries.find? (·.1 = name)).isNone then
    Calls.fail "refusing to clean staged apply attempt: staging directory contains unexpected entries"
  else do
    names.forM (removeStagedEntry system stage entries)
    syncAll system
    call system fun disk => (disk.removeDirAt parent stageName).map fun removed =>
      ((), removed.getD disk)
    syncRetainedDirectory system parentPath parent (some parentIdentity) "staging parent directory"

/-- What `cleanup_staged_precommit_stage` does for a recorded stage. -/
def cleanupRecordedStage (parentPath : Bytes) (parentIdentity : FileIdentity) (stageName : Bytes)
    (stageIdentity : FileIdentity) (entries : List (Bytes × FileIdentity)) : Calls Unit := do
  let parent ← openDirectoryForAccess system parentPath
  verifyDirectoryHandleIdentity system parent parentIdentity "staging parent directory"
  verifyPathIdentity system parentPath parent "staging parent directory"
  let stageName ← Calls.check (pathComponentCString stageName "recorded stage name")
  match ← query system fun disk => disk.statAt parent stageName with
  | none =>
    syncRetainedDirectory system parentPath parent (some parentIdentity) "staging parent directory"
  | some (actual, inode) =>
    if ¬ (inode.isDir ∧ actual = stageIdentity) then
      Calls.fail "refusing to remove substituted staging directory"
    else
      cleanupPresentStage system parentPath parent parentIdentity stageName stageIdentity entries

variable (blake2b : Bytes → Digest)

def cleanupStagedPrecommitStage (contents : Bytes) : Calls Unit := do
  let marker ← Calls.check (parseStagedApplyAttempt blake2b contents)
  if marker.phase ≠ preparing ∧ marker.phase ≠ prepared then
    Calls.fail "refusing precommit cleanup for staged apply attempt"
  else
    match marker.stageParent, marker.stage with
    | some (parentPath, parentIdentity), some (stageName, stageIdentity) =>
      cleanupRecordedStage system parentPath parentIdentity stageName stageIdentity marker.entries
    | _, _ =>
      if marker.entries = [] then pure ()
      else Calls.fail "V2 apply marker has staged entries without a recorded stage"

end Cleanup

/-! ## The quarantine of a marker -/

structure QuarantinedApplyMarker where
  parentPath : Bytes
  parent : FileIdentity
  source : Name
  quarantine : Name
  identity : FileIdentity
  length : Nat
  mode : UInt32

section Quarantine

variable (system : System)

/-- Whether a name is one of a file with an identity and a length. -/
def verifyComponent (parent : FileIdentity) (name : Name) (identity : FileIdentity)
    (length : Nat) (text : String) : Calls Unit := do
  match ← query system fun disk => disk.statAt parent name with
  | none => Calls.fail "No such file or directory"
  | some (actual, inode) =>
    match inode with
    | .regular file _ =>
      if actual ≠ identity ∨ file.contents.length ≠ length then Calls.fail text
      else pure ()
    | _ => Calls.fail text

def verifyMarkerAtIdentity (parent : FileIdentity) (name : Name) (identity : FileIdentity)
    (length : Nat) : Calls Unit :=
  verifyComponent system parent name identity length
    "apply recovery marker component changed identity"

/-- `.duet-q-NONCE` -/
def quarantineName (nonce : Nat) : Name := ascii ".duet-q-" ++ hex 16 nonce

/-- A name that the directory does not have, in so many attempts. -/
def uniqueMarkerQuarantineName (parent : FileIdentity) : Nat → Calls Name
  | 0 => Calls.fail "unable to choose a unique apply marker quarantine name"
  | attempts + 1 => do
    let machine ← Effect.read
    let name := quarantineName (system.nonce machine.calls)
    match ← query system fun disk => disk.statAt parent name with
    | none => pure name
    | some _ => uniqueMarkerQuarantineName parent attempts

namespace QuarantinedApplyMarker

variable (self : QuarantinedApplyMarker)

def syncParent : Calls Unit :=
  syncRetainedDirectory system self.parentPath self.parent none "apply marker parent directory"

/-- `fstat` of the file that is kept open -/
def fileMetadata : Calls MarkerFile :=
  query system fun disk =>
    match disk.inode self.identity with
    | some (.regular file _) => .ok file
    | _ => .error "Bad file descriptor"

def verify : Calls Unit := do
  let metadata ← self.fileMetadata system
  match ← query system fun disk => disk.statAt self.parent self.quarantine with
  | none => Calls.fail "No such file or directory"
  | some (actual, inode) =>
    match inode with
    | .regular file _ =>
      if metadata.contents.length ≠ self.length ∨ metadata.mode ≠ self.mode ∨
          actual ≠ self.identity ∨ file.contents.length ≠ self.length ∨ file.mode ≠ self.mode then
        Calls.fail "quarantined apply recovery marker changed identity, length, or mode"
      else
        match ← query system fun disk => disk.statAt self.parent self.source with
        | none => pure ()
        | some _ => Calls.fail "apply recovery marker path was replaced while quarantined"
    | _ => Calls.fail "quarantined apply recovery marker changed identity, length, or mode"

/-- `read_staged_marker_descriptor` on the file that is kept open -/
def readDescriptor : Calls Bytes := do
  if self.length > maxStagedMarkerBytes then
    Calls.fail "staged apply marker exceeds the size limit"
  else do
    let file ← self.fileMetadata system
    let contents ← Calls.check (readToString (file.contents.take (maxStagedMarkerBytes + 1)))
    if contents.length ≠ self.length then
      Calls.fail "staged apply marker changed length while reading"
    else pure contents

def readContents : Calls Bytes := do
  self.verify system
  let contents ← self.readDescriptor system
  self.verify system
  pure contents

/-- The name of the marker is free, as `NotFound` says. -/
def checkSourceFree (text : String) : Calls Unit := do
  match ← query system fun disk => disk.statAt self.parent self.source with
  | none => pure ()
  | some _ => Calls.fail text

def verifyQuarantineComponent : Calls Unit :=
  verifyComponent system self.parent self.quarantine self.identity self.length
    "quarantined apply recovery marker no longer has the expected identity"

def restore : Calls Unit := do
  self.verifyQuarantineComponent system
  self.checkSourceFree system "cannot restore apply recovery marker because its path was replaced"
  update system fun disk => disk.renameAt self.parent self.quarantine self.source
  verifyMarkerAtIdentity system self.parent self.source self.identity self.length
  self.syncParent system

/-- What `restore_component` compares of an inode: its kind and the length of a file. -/
def sameComponent : Inode → Inode → Bool
  | .regular file _, .regular other _ => file.contents.length = other.contents.length
  | .directory _ _, .directory _ _ => true
  | .other, .other => true
  | _, _ => false

def restoreComponent : Calls Unit := do
  self.checkSourceFree system "cannot restore quarantined component because the marker path exists"
  match ← query system fun disk => disk.statAt self.parent self.quarantine with
  | none => Calls.fail "No such file or directory"
  | some (quarantined, inode) => do
    update system fun disk => disk.renameAt self.parent self.quarantine self.source
    match ← query system fun disk => disk.statAt self.parent self.source with
    | none => Calls.fail "No such file or directory"
    | some (restored, inode') =>
      if restored ≠ quarantined ∨ ¬ sameComponent inode inode' then
        Calls.fail "restored quarantine component changed identity or length"
      else
        self.syncParent system

def unlink : Calls Unit := do
  self.verify system
  update system fun disk => disk.unlinkAt self.parent self.quarantine

end QuarantinedApplyMarker

/-- How the error of a failed restore is added to the one that led to it. -/
def additionally (error restore : String) : String :=
  error ++ "; additionally failed to restore quarantined marker: " ++ restore

def combineQuarantineError {α : Type} (error : String) (restore : Calls Unit) : Calls α := do
  match ← Calls.attempt restore with
  | .ok _ => Calls.fail error
  | .error restore => Calls.fail (additionally error restore)

def restoreAfterRecoveryError {α : Type} (marker : QuarantinedApplyMarker) (error : String) :
    Calls α :=
  combineQuarantineError error (marker.restore system)

def quarantineApplyMarker (place : MarkerPlace) : Calls QuarantinedApplyMarker := do
  let parent ← openDirectoryForAccess system place.parent
  verifyPathIdentity system place.parent parent "apply marker parent directory"
  let source ← Calls.check (pathComponentCString place.name "apply recovery marker name")
  let (identity, file) ← query system fun disk => disk.openFileAt parent source
  if file.contents.length > maxStagedMarkerBytes then
    Calls.fail "apply recovery marker is invalid or oversized"
  else do
    verifyMarkerAtIdentity system parent source identity file.contents.length
    let quarantine ← uniqueMarkerQuarantineName system parent 64
    update system fun disk => disk.renameAt parent source quarantine
    let marker : QuarantinedApplyMarker := ⟨place.parent, parent, source, quarantine, identity,
      file.contents.length, file.mode⟩
    match ← Calls.attempt (marker.verify system) with
    | .error error => combineQuarantineError error (marker.restoreComponent system)
    | .ok _ => pure marker

def unlinkQuarantinedMarker (marker : QuarantinedApplyMarker) : Calls Unit := do
  match ← Calls.attempt (marker.unlink system) with
  | .error error => restoreAfterRecoveryError system marker error
  | .ok _ => marker.syncParent system

end Quarantine

/-! ## Abort and clear -/

section Remove

variable (system : System) (blake2b : Bytes → Digest)

/-- The cleanup of the stage of a quarantined marker, and the unlink of the marker when it
still has the contents that were read. -/
def cleanupAndUnlink (quarantined : QuarantinedApplyMarker) (contents : Bytes) (changed : String) :
    Calls Unit := do
  match ← Calls.attempt (cleanupStagedPrecommitStage system blake2b contents) with
  | .error error => restoreAfterRecoveryError system quarantined error
  | .ok _ => do
    match ← Calls.attempt (quarantined.readContents system) with
    | .error error => restoreAfterRecoveryError system quarantined error
    | .ok current =>
      if current = contents then unlinkQuarantinedMarker system quarantined
      else restoreAfterRecoveryError system quarantined changed

def abortStagedApplyAttempt (place : MarkerPlace) (attemptId : Bytes) : Calls Unit := do
  let quarantined ← quarantineApplyMarker system place
  match ← Calls.attempt (quarantined.readContents system) with
  | .error error => restoreAfterRecoveryError system quarantined error
  | .ok contents =>
    match parseStagedApplyAttempt blake2b contents with
    | .error error => restoreAfterRecoveryError system quarantined error
    | .ok marker =>
      if marker.version = .v3 ∧ quarantined.mode &&& 0o7777 ≠ 0o600 then
        restoreAfterRecoveryError system quarantined "V3 apply recovery marker mode is not 0600"
      else if marker.attemptId ≠ attemptId then
        restoreAfterRecoveryError system quarantined "staged apply attempt ID mismatch"
      else if marker.phase ≠ preparing ∧ marker.phase ≠ prepared then
        restoreAfterRecoveryError system quarantined "refusing to abort staged apply attempt"
      else
        cleanupAndUnlink system blake2b quarantined contents
          "staged apply marker changed while abort cleanup was in progress"

def clearApplyAttempt (place : MarkerPlace) : Calls Unit := do
  let quarantined ← quarantineApplyMarker system place
  match ← Calls.attempt (quarantined.readContents system) with
  | .error error => restoreAfterRecoveryError system quarantined error
  | .ok contents =>
    if stagedMarkerV2Magic <+: contents ∨ stagedMarkerV3Magic <+: contents then
      match parseStagedApplyAttempt blake2b contents with
      | .error error => restoreAfterRecoveryError system quarantined error
      | .ok marker =>
        if marker.version = .v3 ∧ quarantined.mode &&& 0o7777 ≠ 0o600 then
          restoreAfterRecoveryError system quarantined "V3 apply recovery marker mode is not 0600"
        else if marker.phase = preparing ∨ marker.phase = prepared then
          cleanupAndUnlink system blake2b quarantined contents
            "staged apply marker changed while clear cleanup was in progress"
        else
          unlinkQuarantinedMarker system quarantined
    else if ascii "duet-apply-attempt-v1\n" <+: contents then
      unlinkQuarantinedMarker system quarantined
    else
      restoreAfterRecoveryError system quarantined "refusing to remove malformed apply recovery marker"

end Remove

end Duet.Recovery

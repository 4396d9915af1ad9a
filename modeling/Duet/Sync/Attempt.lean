import Duet.Sync.Host

/-!
# Apply attempts

The calls that begin, move, abort and finish an apply attempt, and the staged apply from
its preparation to its commit, as programs over the operations of one host.
-/

namespace Duet

open Lib Marker

abbrev HostM := ExceptT Report (Program hostEffects)

/-- The call of one operation of the host. -/
def host (op : HostOp) : HostM op.Value := ExceptT.mk (Program.perform (E := hostEffects) op)

/-- The result of a call whose error the caller handles itself. -/
def HostM.result {α : Type} (call : HostM α) : HostM (Except Report α) := ExceptT.lift call.run

/-! ## Markers -/

def describeApplyAttempt (statePath : StatePath) : HostM (Option HostFile) := do
  if ← host (.tryExists (applyAttemptPath statePath)) then
    let marker ← host (.readMarker (applyAttemptPath statePath))
    return some marker
  else
    return none

def checkApplyAttemptClear (statePath : StatePath) : HostM Unit := do
  match ← describeApplyAttempt statePath with
  | some _ => throw "an earlier apply attempt has not been recovered"
  | none => return ()

def startApplyAttempt (side : String) (statePath : StatePath) (base : Path) (actions : Actions)
    (attemptId : Option String) : HostM Unit :=
  host (.createMarker (applyAttemptPath statePath)
    (.applyMarker ⟨side, base, statePath, actions, attemptId⟩ false []))

def isSingleLine (text : String) : Bool :=
  !text.toList.contains '\n' && !text.toList.contains '\r'

/-- Whether no name of a path contains a line break. -/
def Path.isSingleLine (path : Path) : Bool :=
  path.all fun
    | .normal name => !name.contains 10 && !name.contains 13
    | _ => true

def startStagedApplyAttempt (side : String) (statePath : StatePath) (base : Path)
    (actions : Actions) (attemptId : String) : HostM Unit := do
  if attemptId.isEmpty || !isSingleLine attemptId then
    throw "staged apply attempt ID must be non-empty and single-line"
  else if !base.isSingleLine then
    throw "staged apply base path must be single-line"
  else if !(statePath.dir.isSingleLine && isSingleLine statePath.fileName) then
    throw "staged apply state path must be single-line"
  else if !actions.all (fun action => action.path.isSingleLine) then
    throw "staged apply action paths must be single-line"
  else
    let header : AttemptHeader := ⟨side, base, statePath, actions, some attemptId⟩
    host (.check (.stagedMarkerContents header))
    host (.createMarker (applyAttemptPath statePath) (.stagedMarker header attemptId .preparing []))

def transitionStagedApplyAttempt (statePath : StatePath) (attemptId : String)
    (expected : List ApplyAttemptPhase) (next : ApplyAttemptPhase) : HostM Unit := do
  match ← host (.readMarker (applyAttemptPath statePath)) with
  | .stagedMarker _ markerId phase _ =>
    if markerId ≠ attemptId then
      throw "staged apply attempt ID mismatch"
    else if phase ∉ expected then
      throw "cannot transition staged apply attempt"
    else
      host (.setPhase (applyAttemptPath statePath) attemptId expected next)
  | _ => throw "staged apply marker is malformed"

def markStagedApplyAttemptStateSave (statePath : StatePath) (attemptId : String) : HostM Unit :=
  transitionStagedApplyAttempt statePath attemptId [.committed] .stateSave

def markApplyAttemptStateSave (side : String) (statePath : StatePath) (base : Path)
    (actions : Actions) (attemptId : Option String) : HostM Unit := do
  match ← host (.readMarker (applyAttemptPath statePath)) with
  | .stagedMarker _ _ _ _ | .tornMarker _ =>
    match attemptId with
    | some id => markStagedApplyAttemptStateSave statePath id
    | none => throw "V2 apply marker requires an attempt ID"
  | .applyMarker _ _ records =>
    host (.replaceMarker (applyAttemptPath statePath)
      (.applyMarker ⟨side, base, statePath, actions, attemptId⟩ true records))
  | _ =>
    host (.replaceMarker (applyAttemptPath statePath)
      (.applyMarker ⟨side, base, statePath, actions, attemptId⟩ true []))

/-! ## Removing a marker

A marker is moved to a name of its own before it is read and removed, and moved back when
anything goes wrong. -/

def restoreAfterRecoveryError {α : Type} (marker : StatePath) (file : HostFile)
    (error : Report) : HostM α := do
  match ← (host (.restore marker file)).result with
  | .ok _ => throw error
  | .error restore =>
    throw (error ++ "; additionally failed to restore quarantined marker: " ++ restore)

def unlinkQuarantinedMarker (marker : StatePath) (file : HostFile) : HostM Unit := do
  match ← (host (.unlinkQuarantined marker file)).result with
  | .error error => restoreAfterRecoveryError marker file error
  | .ok _ => host (.syncParent marker)

def finishApplyAttempt (statePath : StatePath) : HostM Unit :=
  host (.removeFile (applyAttemptPath statePath))

def finishApplyAttemptIdentity (statePath : StatePath) : HostM Unit := do
  let file ← host (.quarantine (applyAttemptPath statePath))
  unlinkQuarantinedMarker (applyAttemptPath statePath) file

def finishStagedApplyAttempt (statePath : StatePath) (attemptId : String) : HostM Unit := do
  transitionStagedApplyAttempt statePath attemptId [.stateSave] .finished
  finishApplyAttemptIdentity statePath

/-- The cleanup of a precommit stage, which must leave the marker as it was read. -/
def cleanupAndUnlink (marker : StatePath) (file contents : HostFile) : HostM Unit := do
  match ← (host (.check .stagingCleanup)).result with
  | .error error => restoreAfterRecoveryError marker file error
  | .ok _ =>
    match ← (host (.readQuarantined marker file)).result with
    | .error error => restoreAfterRecoveryError marker file error
    | .ok current =>
      if current = contents then
        unlinkQuarantinedMarker marker file
      else
        restoreAfterRecoveryError marker file "staged apply marker changed during cleanup"

def abortStagedApplyAttempt (statePath : StatePath) (attemptId : String) : HostM Unit := do
  let marker := applyAttemptPath statePath
  let file ← host (.quarantine marker)
  match ← (host (.readQuarantined marker file)).result with
  | .error error => restoreAfterRecoveryError marker file error
  | .ok contents =>
    match contents with
    | .stagedMarker _ markerId phase _ =>
      if markerId ≠ attemptId then
        restoreAfterRecoveryError marker file "staged apply attempt ID mismatch"
      else if phase = .preparing ∨ phase = .prepared then
        cleanupAndUnlink marker file contents
      else
        restoreAfterRecoveryError marker file "refusing to abort staged apply attempt"
    | _ => restoreAfterRecoveryError marker file "staged apply marker is malformed"

def clearApplyAttempt (statePath : StatePath) : HostM Unit := do
  let marker := applyAttemptPath statePath
  let file ← host (.quarantine marker)
  match ← (host (.readQuarantined marker file)).result with
  | .error error => restoreAfterRecoveryError marker file error
  | .ok contents =>
    match contents with
    | .stagedMarker _ _ phase _ =>
      if phase = .preparing ∨ phase = .prepared then
        cleanupAndUnlink marker file contents
      else
        unlinkQuarantinedMarker marker file
    | .applyMarker _ _ _ => unlinkQuarantinedMarker marker file
    | _ =>
      restoreAfterRecoveryError marker file "refusing to remove malformed apply recovery marker"

/-! ## Snapshots -/

def saveEntriesAs (statePath : StatePath) (entries : Entries) (format : SnapshotFormat) :
    HostM Unit := do
  host (.check (.validateEntries entries))
  host (.saveEntries statePath entries format)

/-! ## The staged apply -/

structure DetailApplier where
  base : Path
  actions : Actions
  allOld : Entries
  attemptState : Option StatePath
  attemptId : Option String
  failed : Bool

namespace DetailApplier

/-- The marker that the records of the attempt go to. -/
def marker (self : DetailApplier) : Option StatePath := self.attemptState.map applyAttemptPath

/-- One frame, and the applier after it: an error poisons it for good. -/
def applyFrame (self : DetailApplier) : Program hostEffects (Except Report Unit × DetailApplier) :=
  if self.failed then
    pure (.error "detail apply stream already failed", self)
  else do
    match ← Program.perform (E := hostEffects) (.stageOutput self.marker) with
    | .ok _ => pure (.ok (), self)
    | .error error => pure (.error error, { self with failed := true })

end DetailApplier

structure PreparedApply where
  inner : DetailApplier

def DetailApplier.finishPreparation (self : DetailApplier) : HostM PreparedApply := do
  if self.failed then
    throw "detail apply stream already failed"
  else
    host (.stageOutput self.marker)
    host (.check .finishPreparation)
    match self.attemptState, self.attemptId with
    | some statePath, some attemptId =>
      transitionStagedApplyAttempt statePath attemptId [.preparing] .prepared
      return ⟨self⟩
    | _, _ => return ⟨self⟩

namespace PreparedApply

def validateCommit (_ : PreparedApply) : HostM Unit := host .validateCommit

/-- The transition of the attempt's own marker; an attempt without an id has none. -/
def transition (self : PreparedApply) (expected next : ApplyAttemptPhase) : HostM Unit :=
  match self.inner.attemptState, self.inner.attemptId with
  | some statePath, some attemptId =>
    transitionStagedApplyAttempt statePath attemptId [expected] next
  | _, _ => pure ()

/-- One mutation of the target for each of the actions, in their order. -/
def mutateTargets (self : PreparedApply) : Actions → HostM Unit
  | [] => pure ()
  | _ :: rest => do
    host (.mutate self.inner.marker)
    self.mutateTargets rest

def commitProfiled (self : PreparedApply) : HostM Entries := do
  self.validateCommit
  self.transition .prepared .committing
  self.mutateTargets self.inner.actions
  self.mutateTargets self.inner.actions.reverse
  let results ← host (.localResults self.inner.actions.length)
  match mergeStagedManifest self.inner.allOld self.inner.actions results with
  | .error _ => throw "the manifest could not be merged"
  | .ok entries =>
    host (.settle entries)
    host (.check .stagingCleanup)
    self.transition .committing .committed
    return entries

def abort (self : PreparedApply) : HostM Unit :=
  match self.inner.attemptState, self.inner.attemptId with
  | some statePath, some attemptId => abortStagedApplyAttempt statePath attemptId
  | some statePath, none => finishApplyAttempt statePath
  | none, _ => pure ()

end PreparedApply

def DetailApplier.finish (self : DetailApplier) : HostM Entries := do
  let prepared ← self.finishPreparation
  prepared.commitProfiled

def applyDetailedChanges (actions : Actions) (marker : Option StatePath) : HostM Entries := do
  host (.check (.validateActions actions))
  host (.mutate marker)
  host .appliedEntries

end Duet

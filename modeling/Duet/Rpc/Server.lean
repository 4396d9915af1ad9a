import Duet.Sync.Attempt

/-!
# The RPC server

The session that the server keeps for its client, and its calls. A call runs on the host
of the server and may change the session also when it reports an error.
-/

namespace Duet

open Lib Marker

inductive ApplyStream where
  | legacy (applier : DetailApplier)
  | staged (applier : DetailApplier)

namespace ApplyStream

def applier : ApplyStream → DetailApplier
  | .legacy applier => applier
  | .staged applier => applier

def setApplier : ApplyStream → DetailApplier → ApplyStream
  | .legacy _, applier => .legacy applier
  | .staged _, applier => .staged applier

def isStaged : ApplyStream → Bool
  | .legacy _ => false
  | .staged _ => true

end ApplyStream

inductive StagedApplyState where
  | preparing (attemptId : String) (statePath : StatePath) (streamId : Option Nat)
  | prepared (attemptId : String) (statePath : StatePath) (prepared : PreparedApply)
  | committing (attemptId : String) (statePath : StatePath)
  | committed (attemptId : String) (statePath : StatePath) (stateSaveStarted stateSaved : Bool)
  | aborted (attemptId : String) (statePath : StatePath)

structure DuetServerImpl where
  base : Path
  remoteId : String
  changesReady : Bool
  actionsReady : Bool
  remoteStateDir : Path
  allOld : Entries
  actions : Actions
  applyAttemptId : Option String
  applyStreams : List (Nat × ApplyStream)
  stagedApply : Option StagedApplyState
  nextStreamId : Nat
  currentScan : Entries
  scope : ScanScope

/-- A new server, with the directory that its profile keeps remote states in. -/
def DuetServerImpl.new (remoteStateDir : Path) : DuetServerImpl where
  base := []
  remoteId := ""
  changesReady := false
  actionsReady := false
  remoteStateDir := remoteStateDir
  allOld := []
  actions := []
  applyAttemptId := none
  applyStreams := []
  stagedApply := none
  nextStreamId := 1
  currentScan := []
  scope := ⟨[], []⟩

/-- A call of the server: its result and the session after it. -/
def Handler (α : Type) : Type :=
  DuetServerImpl → Program hostEffects (Except Report α × DuetServerImpl)

namespace Handler

variable {α β : Type}

def run (h : Handler α) (self : DuetServerImpl) :
    Program hostEffects (Except Report α × DuetServerImpl) :=
  h self

protected def bind (h : Handler α) (f : α → Handler β) : Handler β := fun self => do
  match ← h.run self with
  | (.ok value, self') => (f value).run self'
  | (.error error, self') => pure (.error error, self')

instance : Monad Handler where
  pure value := fun self => pure (.ok value, self)
  bind := Handler.bind

def fail (error : Report) : Handler α := fun self => pure (.error error, self)

/-- The session as it is now. -/
def session : Handler DuetServerImpl := fun self => pure (.ok self, self)

def update (f : DuetServerImpl → DuetServerImpl) : Handler Unit := fun self => pure (.ok (), f self)

/-- A call on the host, whose error ends the handler. -/
def call (m : HostM α) : Handler α := fun self => do
  let result ← m.run
  pure (result, self)

/-- A call on the host whose error the handler treats itself. -/
def attempt (m : HostM α) : Handler (Except Report α) := fun self => do
  let result ← m.run
  pure (.ok result, self)

/-! ## Weakest preconditions of handlers -/

section Wp

universe u

variable {σ : Type u} {C : Contract hostEffects σ} {s : σ} {self : DuetServerImpl}

@[simp] theorem wp_run_pure {value : α} {Q : Except Report α × DuetServerImpl → σ → Prop} :
    C.wp ((pure value : Handler α).run self) Q s ↔ Q (.ok value, self) s :=
  Iff.rfl

@[simp] theorem wp_run_fail {error : Report} {Q : Except Report α × DuetServerImpl → σ → Prop} :
    C.wp ((fail error : Handler α).run self) Q s ↔ Q (.error error, self) s :=
  Iff.rfl

@[simp] theorem wp_run_session
    {Q : Except Report DuetServerImpl × DuetServerImpl → σ → Prop} :
    C.wp (session.run self) Q s ↔ Q (.ok self, self) s :=
  Iff.rfl

@[simp] theorem wp_run_update {f : DuetServerImpl → DuetServerImpl}
    {Q : Except Report Unit × DuetServerImpl → σ → Prop} :
    C.wp ((update f).run self) Q s ↔ Q (.ok (), f self) s :=
  Iff.rfl

@[simp] theorem wp_run_call {m : HostM α} {Q : Except Report α × DuetServerImpl → σ → Prop} :
    C.wp ((call m).run self) Q s ↔ C.wp m.run (fun result => Q (result, self)) s :=
  Contract.wp_bind

@[simp] theorem wp_run_attempt {m : HostM α}
    {Q : Except Report (Except Report α) × DuetServerImpl → σ → Prop} :
    C.wp ((attempt m).run self) Q s ↔ C.wp m.run (fun result => Q (.ok result, self)) s :=
  Contract.wp_bind

@[simp] theorem wp_run_bind {h : Handler α} {f : α → Handler β}
    {Q : Except Report β × DuetServerImpl → σ → Prop} :
    C.wp ((h >>= f).run self) Q s ↔
      C.wp (h.run self) (fun out t => match out with
        | (.ok value, self') => C.wp ((f value).run self') Q t
        | (.error error, self') => Q (.error error, self') t) s := by
  refine Contract.wp_bind.trans ⟨fun holds => Contract.wp_mono holds fun out t rest => ?_,
    fun holds => Contract.wp_mono holds fun out t rest => ?_⟩
  · rcases out with ⟨error | value, self'⟩ <;> exact rest
  · rcases out with ⟨error | value, self'⟩ <;> exact rest

end Wp

end Handler

/-! ## State paths -/

def validateRemoteStateId (id : String) : Bool :=
  id.toList ≠ [] && id.toList ≠ ['.'] && id.toList ≠ ['.', '.'] &&
    id.toList.all fun c => c.isAlphanum || c == '-' || c == '_' || c == '.'

def remoteStateIn (dir : Path) (id : String) : StatePath := ⟨dir, id⟩

def DuetServerImpl.remoteState (self : DuetServerImpl) : StatePath :=
  remoteStateIn self.remoteStateDir self.remoteId

def initializedRemoteState : Handler StatePath := do
  let self ← Handler.session
  if !self.changesReady then
    Handler.fail "changes must be requested before applying changes"
  else if !validateRemoteStateId self.remoteId then
    Handler.fail "invalid remote state id"
  else
    return self.remoteState

def remoteStateForId (remoteId : String) : Handler StatePath := do
  let self ← Handler.session
  if !validateRemoteStateId remoteId then
    Handler.fail "invalid remote state id"
  else
    return remoteStateIn self.remoteStateDir remoteId

def acceptedActions : Handler Unit := do
  let self ← Handler.session
  if !self.actionsReady then
    Handler.fail "actions must be set before applying changes"
  else
    return ()

/-! ## The context of a session -/

namespace DuetServerImpl

def resetActionsContext (self : DuetServerImpl) : DuetServerImpl :=
  { self with
    actionsReady := false
    actions := []
    applyAttemptId := none
    applyStreams := self.applyStreams.filter fun stream => stream.2.isStaged }

def resetChangesContext (self : DuetServerImpl) : DuetServerImpl :=
  { self with
    changesReady := false
    allOld := []
    currentScan := []
    scope := ⟨[], []⟩ }.resetActionsContext

end DuetServerImpl

structure ChangesV2 where
  changes : List Change
  current : Entries
  migrationNeeded : Bool

def scanChanges (scope : ScanScope) (remoteId : String) : Handler ChangesV2 := do
  Handler.update DuetServerImpl.resetChangesContext
  Handler.call (host (.check .scanScope))
  if !validateRemoteStateId remoteId then
    Handler.fail "invalid remote state id"
  else
    Handler.update fun self => { self with remoteId := remoteId }
    let self ← Handler.session
    Handler.call (checkApplyAttemptClear self.remoteState)
    let context ← Handler.call (host (.scan self.base self.remoteState))
    Handler.update fun self =>
      { self with
        allOld :=
          if context.migrationNeeded then replaceScope context.allOld scope context.current
          else context.allOld
        currentScan := context.current
        scope := scope
        changesReady := true }
    return ⟨context.changes, context.current, context.migrationNeeded⟩

def setActionsInternal (actions : Actions) : Handler Unit := do
  Handler.update DuetServerImpl.resetActionsContext
  Handler.call (host (.check (.validateActions actions)))
  let remoteState ← initializedRemoteState
  Handler.call (host (.check (.preflightStateSave remoteState)))
  let self ← Handler.session
  Handler.call (host (.check (.preflightApply self.base actions)))
  Handler.update fun self => { self with actions := actions, actionsReady := true }

def snapshotFormat (strong : Bool) : SnapshotFormat := if strong then .v2 else .legacyV1

def saveStateAs (format : SnapshotFormat) (clearMarker : Bool) : Handler Unit := do
  let remoteState ← initializedRemoteState
  acceptedActions
  let self ← Handler.session
  Handler.call (saveEntriesAs remoteState self.allOld format)
  if clearMarker then
    Handler.call (finishApplyAttempt remoteState)
  else
    return ()

def setBase (base : String) : Handler Unit := do
  let base ← Handler.call (host (.full base))
  Handler.update fun self => { self with base := base }.resetChangesContext

def setRemoteStateDir (dir : Path) : Handler Unit :=
  Handler.update fun self => { self with remoteStateDir := dir }.resetChangesContext

def setActionsV2 (actions : Actions) : Handler Unit := do
  Handler.call (host (.check (.validateStrongActions actions)))
  setActionsInternal actions

def prepareMigrationV2 : Handler Unit := do
  let _ ← initializedRemoteState
  Handler.update fun self =>
    { self with allOld := replaceScope self.allOld self.scope self.currentScan }

/-! ## The unstaged apply -/

def prepareApplyAttempt (attemptId : Option String) : Handler Unit := do
  let remoteState ← initializedRemoteState
  acceptedActions
  let self ← Handler.session
  Handler.call (startApplyAttempt "remote" remoteState self.base self.actions attemptId)
  Handler.update fun self => { self with applyAttemptId := attemptId }

def prepareApplyAttemptWithId (attemptId : String) : Handler Unit :=
  if attemptId.isEmpty then
    Handler.fail "apply attempt id is empty"
  else
    prepareApplyAttempt (some attemptId)

/-- What `apply_detailed_changes` and `begin_apply_stream` do first. -/
def startUnstagedApply : Handler StatePath := do
  let remoteState ← initializedRemoteState
  acceptedActions
  let self ← Handler.session
  Handler.call (host (.check (.preflightApply self.base self.actions)))
  Handler.call
    (startApplyAttempt "remote" remoteState self.base self.actions self.applyAttemptId)
  return remoteState

def markUnstagedStateSave (remoteState : StatePath) : Handler Unit := do
  let self ← Handler.session
  Handler.call
    (markApplyAttemptStateSave "remote" remoteState self.base self.actions self.applyAttemptId)

def applyDetails : Handler Unit := do
  let remoteState ← startUnstagedApply
  let self ← Handler.session
  let entries ← Handler.call
    (applyDetailedChanges self.actions (some (applyAttemptPath remoteState)))
  Handler.update fun self => { self with allOld := entries }
  markUnstagedStateSave remoteState

def insertStream (stream : ApplyStream) : Handler Nat := do
  let self ← Handler.session
  Handler.update fun self =>
    { self with
      applyStreams := (self.nextStreamId, stream) :: self.applyStreams
      nextStreamId := self.nextStreamId + 1 }
  return self.nextStreamId

def findStream (streamId : Nat) : Handler ApplyStream := do
  let self ← Handler.session
  match self.applyStreams.lookup streamId with
  | some stream => return stream
  | none => Handler.fail "apply stream does not exist"

def removeStream (streamId : Nat) : Handler Unit :=
  Handler.update fun self =>
    { self with applyStreams := self.applyStreams.filter fun stream => stream.1 ≠ streamId }

def replaceStream (streamId : Nat) (stream : ApplyStream) : Handler Unit :=
  Handler.update fun self =>
    { self with
      applyStreams := self.applyStreams.map fun old =>
        if old.1 = streamId then (streamId, stream) else old }

def beginApplyStream : Handler Nat := do
  let remoteState ← startUnstagedApply
  let self ← Handler.session
  insertStream (.legacy ⟨self.base, self.actions, self.allOld, some remoteState, none, false⟩)

/-- One frame for an apply stream, also for each frame of a batch and a file byte chunk. -/
def applyDetailChunk (streamId : Nat) : Handler Unit := do
  let stream ← findStream streamId
  let (result, applier) ← fun self => do
    let out ← stream.applier.applyFrame
    pure (.ok out, self)
  replaceStream streamId (stream.setApplier applier)
  match result with
  | .ok _ => return ()
  | .error error => Handler.fail error

def applyDetailChunks (streamId : Nat) : Nat → Handler Unit
  | 0 => do
    let _ ← findStream streamId
    return ()
  | frames + 1 => do
    applyDetailChunk streamId
    applyDetailChunks streamId frames

def finishApplyStream (streamId : Nat) : Handler Unit := do
  let stream ← findStream streamId
  match stream with
  | .staged _ => Handler.fail "staged apply stream must use finish_staged_prepare"
  | .legacy applier =>
    removeStream streamId
    let allOld ← Handler.call applier.finish
    Handler.update fun self => { self with allOld := allOld }
    let self ← Handler.session
    markUnstagedStateSave self.remoteState

/-! ## The staged apply -/

def setStaged (state : Option StagedApplyState) : Handler Unit :=
  Handler.update fun self => { self with stagedApply := state }

def beginStagedApply (attemptId : String) : Handler Nat := do
  if attemptId.isEmpty || !isSingleLine attemptId then
    Handler.fail "staged apply attempt ID must be non-empty and single-line"
  else
    let remoteState ← initializedRemoteState
    acceptedActions
    let self ← Handler.session
    match self.stagedApply with
    | none | some (.aborted _ _) =>
      Handler.call (host (.check (.validateActions self.actions)))
      Handler.call (host (.check (.preflightApply self.base self.actions)))
      Handler.call (startStagedApplyAttempt "remote" remoteState self.base self.actions attemptId)
      let id ← insertStream
        (.staged ⟨self.base, self.actions, self.allOld, some remoteState, some attemptId, false⟩)
      setStaged (some (.preparing attemptId remoteState (some id)))
      return id
    | some _ => Handler.fail "a staged apply attempt is already active"

def finishStagedPrepareInner (streamId : Nat) (attemptId : String) : Handler Unit := do
  let self ← Handler.session
  match self.stagedApply with
  | some (.preparing activeId statePath activeStream) =>
    if activeId ≠ attemptId ∨ activeStream ≠ some streamId then
      Handler.fail "staged apply attempt or stream mismatch"
    else
      match self.applyStreams.lookup streamId with
      | none => Handler.fail "staged apply stream does not exist"
      | some (.legacy _) => Handler.fail "apply stream is not staged"
      | some (.staged applier) =>
        removeStream streamId
        setStaged (some (.preparing attemptId statePath none))
        let prepared ← Handler.call applier.finishPreparation
        setStaged (some (.prepared attemptId statePath prepared))
  | _ => Handler.fail "staged apply attempt is not preparing"

/-- The end of an abort, whose error leaves the attempt without its stream. -/
def finishAbort (attemptId : String) (statePath : StatePath) (abort : HostM Unit) :
    Handler Unit := do
  match ← Handler.attempt abort with
  | .error error =>
    setStaged (some (.preparing attemptId statePath none))
    Handler.fail error
  | .ok _ => setStaged (some (.aborted attemptId statePath))

def removeStreams (streamId : Option Nat) : Handler Unit :=
  match streamId with
  | some id => removeStream id
  | none => pure ()

def abortStagedApply (attemptId : String) : Handler Unit := do
  let self ← Handler.session
  match self.stagedApply with
  | none => Handler.fail "no staged apply attempt is active"
  | some (.preparing activeId statePath streamId) =>
    if activeId ≠ attemptId then
      Handler.fail "staged apply attempt ID mismatch or commit has started"
    else
      removeStreams streamId
      finishAbort attemptId statePath (abortStagedApplyAttempt statePath attemptId)
  | some (.prepared activeId statePath prepared) =>
    if activeId ≠ attemptId then
      Handler.fail "staged apply attempt ID mismatch or commit has started"
    else
      finishAbort attemptId statePath prepared.abort
  | some (.aborted activeId statePath) =>
    if activeId ≠ attemptId then
      Handler.fail "staged apply attempt ID mismatch or commit has started"
    else
      match ← Handler.attempt (describeApplyAttempt statePath) with
      | .error error =>
        -- The attempt was taken out of the session before the marker was looked at.
        setStaged none
        Handler.fail error
      | .ok (some _) => Handler.fail "aborted staged apply still has a recovery marker"
      | .ok none => return ()
  | some (.committing _ _) => Handler.fail "cannot abort a staged apply after commit starts"
  | some (.committed _ _ _ _) =>
    Handler.fail "staged apply attempt ID mismatch or commit has started"

def validateStagedApply (attemptId : String) : Handler Unit := do
  let self ← Handler.session
  match self.stagedApply with
  | some (.prepared activeId _ prepared) =>
    if activeId ≠ attemptId then
      Handler.fail "staged apply attempt ID mismatch or attempt is not prepared"
    else
      Handler.call prepared.validateCommit
  | _ => Handler.fail "staged apply attempt ID mismatch or attempt is not prepared"

def commitStagedApplyInner (attemptId : String) : Handler Unit := do
  let self ← Handler.session
  match self.stagedApply with
  | none => Handler.fail "no staged apply attempt is active"
  | some (.prepared activeId statePath prepared) =>
    if activeId ≠ attemptId then
      Handler.fail "staged apply attempt ID mismatch or attempt is not prepared"
    else
      setStaged (some (.committing attemptId statePath))
      let allOld ← Handler.call prepared.commitProfiled
      Handler.update fun self => { self with allOld := allOld }
      setStaged (some (.committed attemptId statePath false false))
  | some _ => Handler.fail "staged apply attempt ID mismatch or attempt is not prepared"

/-- The marker of an attempt says that the state is being saved before it is saved. -/
def startStateSave (attemptId : String) (statePath : StatePath) (started : Bool) :
    Handler Unit :=
  if started then
    pure ()
  else do
    Handler.call (markStagedApplyAttemptStateSave statePath attemptId)
    setStaged (some (.committed attemptId statePath true false))

def saveStagedStatePendingInner (attemptId : String) (strong : Bool) : Handler Unit := do
  let self ← Handler.session
  match self.stagedApply with
  | some (.committed activeId statePath stateSaveStarted stateSaved) =>
    if activeId ≠ attemptId then
      Handler.fail "staged apply attempt ID mismatch or attempt is not committed"
    else if stateSaved then
      return ()
    else
      startStateSave attemptId statePath stateSaveStarted
      Handler.call (saveEntriesAs statePath self.allOld (snapshotFormat strong))
      setStaged (some (.committed activeId statePath true true))
  | _ => Handler.fail "staged apply attempt ID mismatch or attempt is not committed"

def completeStagedApplyInner (attemptId : String) : Handler Unit := do
  let self ← Handler.session
  match self.stagedApply with
  | some (.committed activeId statePath _ true) =>
    if activeId ≠ attemptId then
      Handler.fail "staged apply attempt ID mismatch or state save is incomplete"
    else
      Handler.call (finishStagedApplyAttempt statePath attemptId)
      setStaged none
  | _ => Handler.fail "staged apply attempt ID mismatch or state save is incomplete"

/-! ## Calls -/

/-- The calls of a client. `query` stands for the calls that read the session or the host
and for those that set options which no other call here depends on. -/
inductive Request where
  | setBase (base : String)
  | setRemoteStateDir (dir : Path)
  | changes (restrict : Path) (remoteId : String)
  | changesScope (scope : ScanScope) (remoteId : String)
  | prepareMigrationV2
  | setActions (actions : Actions)
  | setActionsV2 (actions : Actions)
  | applyDetailedChanges
  | saveState
  | saveStateV2
  | saveStatePending (strong : Bool)
  | prepareApplyAttempt
  | prepareApplyAttemptWithId (attemptId : String)
  | beginApplyStream
  | applyDetailChunk (streamId : Nat)
  | applyDetailChunks (streamId frames : Nat)
  | finishApplyStream (streamId : Nat)
  | describeApplyAttempt (remoteId : String)
  | clearApplyAttempt (remoteId : String)
  | beginStagedApply (attemptId : String)
  | finishStagedPrepare (streamId : Nat) (attemptId : String)
  | abortStagedApply (attemptId : String)
  | validateStagedApply (attemptId : String)
  | commitStagedApply (attemptId : String)
  | saveStagedStatePending (attemptId : String) (strong : Bool)
  | completeStagedApply (attemptId : String)
  | query

inductive Reply where
  | unit
  | changes (result : ChangesV2)
  | stream (id : Nat)
  | described (marker : Option HostFile)

/-- The call as the server serves it. -/
def serve : Request → Handler Reply
  | .setBase base => do setBase base; return .unit
  | .setRemoteStateDir dir => do setRemoteStateDir dir; return .unit
  | .changes restrict remoteId => do return .changes (← scanChanges ⟨restrict, []⟩ remoteId)
  | .changesScope scope remoteId => do return .changes (← scanChanges scope remoteId)
  | .prepareMigrationV2 => do prepareMigrationV2; return .unit
  | .setActions actions => do setActionsInternal actions; return .unit
  | .setActionsV2 actions => do setActionsV2 actions; return .unit
  | .applyDetailedChanges => do applyDetails; return .unit
  | .saveState => do saveStateAs .legacyV1 true; return .unit
  | .saveStateV2 => do saveStateAs .v2 true; return .unit
  | .saveStatePending strong => do
    saveStateAs (snapshotFormat strong) false
    return .unit
  | .prepareApplyAttempt => do prepareApplyAttempt none; return .unit
  | .prepareApplyAttemptWithId attemptId => do
    prepareApplyAttemptWithId attemptId
    return .unit
  | .beginApplyStream => do return .stream (← beginApplyStream)
  | .applyDetailChunk streamId => do applyDetailChunk streamId; return .unit
  | .applyDetailChunks streamId frames => do applyDetailChunks streamId frames; return .unit
  | .finishApplyStream streamId => do finishApplyStream streamId; return .unit
  | .describeApplyAttempt remoteId => do
    let statePath ← remoteStateForId remoteId
    return .described (← Handler.call (describeApplyAttempt statePath))
  | .clearApplyAttempt remoteId => do
    let statePath ← remoteStateForId remoteId
    Handler.call (clearApplyAttempt statePath)
    return .unit
  | .beginStagedApply attemptId => do return .stream (← beginStagedApply attemptId)
  | .finishStagedPrepare streamId attemptId => do
    finishStagedPrepareInner streamId attemptId
    return .unit
  | .abortStagedApply attemptId => do abortStagedApply attemptId; return .unit
  | .validateStagedApply attemptId => do validateStagedApply attemptId; return .unit
  | .commitStagedApply attemptId => do commitStagedApplyInner attemptId; return .unit
  | .saveStagedStatePending attemptId strong => do
    saveStagedStatePendingInner attemptId strong
    return .unit
  | .completeStagedApply attemptId => do completeStagedApplyInner attemptId; return .unit
  | .query => do
    Handler.call (host (.check .query))
    return .unit

end Duet

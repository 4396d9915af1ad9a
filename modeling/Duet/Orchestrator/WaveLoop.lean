import Duet.Lib.Component
import Duet.Orchestrator.Interrupt
import Duet.Orchestrator.Sync
import Duet.Rpc.Server

/-!
# The client of a staged synchronization

`sync` with the staged strategy as a program: what it does on its own host, the calls that it
sends to the server, and where it asks for interrupts. A call is sent and its reply awaited in
two operations, so that the client may work on its own side meanwhile, as a join of two futures
does.

The staged strategy is the one of peers with all capabilities. `sync` falls back to a legacy
strategy for a directory that becomes something else, for a migration in several waves and for
older peers; such a run begins no wave and is no part of this model.
-/

namespace Duet

open Lib Marker

inductive ClientOp where
  /-- an operation on the client's own host -/
  | here (op : HostOp)
  | send (request : Request)
  | await
  | phase (op : PhaseOp)
  /-- Nothing happens in the program: the wave gets the number under which both hosts note
  what they prepare and validate. -/
  | beginWave (attemptId : String)
  /-- the end of the connection, and the exit status of the server -/
  | wait

abbrev ClientOp.Value : ClientOp → Type
  | .here op => Except Report op.Value
  | .await => Except Report Reply
  | .phase op => op.Value
  | .wait => Except Report Unit
  | .send _ | .beginWave _ => Unit

abbrev clientEffects : Effects where
  Op := ClientOp
  Reply op := op.Value

abbrev ClientM := ExceptT Report (Program clientEffects)

def hereInterface : Interface hostEffects clientEffects := ⟨.here, fun _ r => r⟩

def phaseInterface : Interface phaseEffects clientEffects := ⟨.phase, fun _ r => r⟩

/-- A call on the client's own host. -/
def here {α : Type} (call : HostM α) : ClientM α := Program.embedE hereInterface call

def interrupt {α : Type} (program : PhaseM α) : ClientM α :=
  ExceptT.lift (program.embed phaseInterface)

def perform (op : ClientOp) : ClientM op.Value :=
  ExceptT.lift (Program.perform (E := clientEffects) op)

/-- The reply of the call that was sent last. -/
def await : ClientM Reply := ExceptT.mk (Program.perform (E := clientEffects) .await)

/-- The result of a part whose error the client handles itself. -/
def ClientM.result {α : Type} (part : ClientM α) : ClientM (Except Report α) := ExceptT.lift part.run

def remote (request : Request) : ClientM Reply := do
  perform (.send request)
  await

/-- `tokio::join!` of a task on the own host and a call. -/
def join {α : Type} (task : HostM α) (request : Request) :
    ClientM (Except Report α × Except Report Reply) := do
  perform (.send request)
  let mine ← (here task).result
  let theirs ← await.result
  return (mine, theirs)

/-! ## What a run works on -/

structure SyncContext where
  localBase : Path
  remoteBase : String
  scope : ScanScope
  localState : StatePath
  remoteStateDir : Option Path
  remoteId : String

/-- A part of a batch of frames that is sent in a call of its own. -/
inductive SentPart where
  | frames (count : Nat)
  | fileByteChunk

def SentPart.request (streamId : Nat) : SentPart → Request
  | .frames count => .applyDetailChunks streamId count
  | .fileByteChunk => .applyDetailChunk streamId

/-- One turn of the streaming loop: how many frames the remote side produced, and what the
own producer sent, as long as they are not done. An empty batch ends a side. -/
structure Round where
  received : Option Nat
  sent : Option (List SentPart)

/-- The choices of a run that the program does not make: the user's answer, the waves of the
staging plan, what is streamed, and which peers it works with. -/
structure RunPlan where
  strong : Bool
  dryRun : Bool
  answer : UserAnswer
  waves : Actions → List Actions
  rounds : Actions → List Round
  reportsMatch : Bool
  streamPerformance : Bool
  applyAttemptId : String

/-! ## Streaming -/

/-- `add_staged_cleanup_context` -/
def addStagedCleanupContext (primary : Report) (localCleanup remoteCleanup : Option Report) :
    Report :=
  let errors := (localCleanup.map ("local abort: " ++ ·)).toList ++
    (remoteCleanup.map ("remote abort: " ++ ·)).toList
  if errors.isEmpty then primary
  else "staged preparation cleanup also failed (" ++ "; ".intercalate errors ++ "): " ++ primary

def Except.err {α : Type} : Except Report α → Option Report
  | .ok _ => none
  | .error error => some error

/-- The abort of an attempt on the own side, then on the other one, with their errors. -/
def abortBoth (abort : HostM Unit) (attemptId : String) : ClientM (Option Report × Option Report) := do
  let localCleanup ← (here abort).result
  let remoteCleanup ← (remote (.abortStagedApply attemptId)).result
  return (Except.err localCleanup, Except.err remoteCleanup)

/-- Both sides abort before the error is reported. -/
def abortAndThrow {α : Type} (abort : HostM Unit) (attemptId : String) (error : Report) :
    ClientM α := do
  let (localCleanup, remoteCleanup) ← abortBoth abort attemptId
  throw (addStagedCleanupContext error localCleanup remoteCleanup)

/-- Both sides abort, and the client is interrupted if that succeeded. -/
def abortInterrupted {α : Type} (abort : HostM Unit) (attemptId : String) (message : Report)
    (interrupted : α) : ClientM α := do
  let (localCleanup, remoteCleanup) ← abortBoth abort attemptId
  if localCleanup.isSome || remoteCleanup.isSome then
    throw (addStagedCleanupContext message localCleanup remoteCleanup)
  else
    return interrupted

/-- The frames of a batch, one after another. The applier is lost with an error. -/
def applyFrames (applier : DetailApplier) : Nat → ClientM DetailApplier
  | 0 => return applier
  | frames + 1 => do
    let (result, applier) ← ExceptT.lift (applier.applyFrame.embed hereInterface)
    match result with
    | .ok _ => applyFrames applier frames
    | .error error => throw error

/-- `apply_detail_frames`, which answers whether it was not interrupted. -/
def applyDetailFrames (streamId : Nat) : List SentPart → ClientM Bool
  | [] => return true
  | part :: parts => do
    let _ ← remote (part.request streamId)
    if ← interrupt isCancelRequested then
      return false
    else
      applyDetailFrames streamId parts

/-- The half of a turn that receives, which has no result when it is interrupted. -/
def receiveFrames (applier : DetailApplier) : Option Nat → ClientM (Option DetailApplier)
  | none => return some applier
  | some frames => do
    let _ ← remote .query
    if ← interrupt isCancelRequested then
      return none
    else
      return some (← applyFrames applier frames)

/-- The half of a turn that sends. -/
def sendFrames (streamId : Nat) : Option (List SentPart) → ClientM Bool
  | none => return true
  | some parts => do
    if ← interrupt isCancelRequested then
      return false
    else
      here (host (.check .query))
      applyDetailFrames streamId parts

/-- The streaming loop. -/
def streamRounds (streamId : Nat) (applier : DetailApplier) :
    List Round → ClientM (Option DetailApplier)
  | [] => return some applier
  | round :: rounds => do
    if ← interrupt isCancelRequested then
      return none
    else
      match ← receiveFrames applier round.received with
      | none => return none
      | some applier =>
        if ← sendFrames streamId round.sent then
          streamRounds streamId applier rounds
        else
          return none

inductive StreamDetailedChangesRun where
  | complete (prepared : PreparedApply)
  | interrupted
  | interruptedCleaned

/-- What a wave needs of its run. -/
structure WaveContext where
  actions : Actions
  rounds : List Round
  attemptId : String
  allOld : Entries

def streamDetailedChangesStarted (context : SyncContext) (plan : RunPlan) (wave : WaveContext)
    (streamId : Nat) : ClientM StreamDetailedChangesRun := do
  if ← interrupt isCancelRequested then
    return .interrupted
  else
    let _ ← remote .query
    if ← interrupt isCancelRequested then
      return .interrupted
    else
      match ← streamRounds streamId ⟨context.localBase, wave.actions, wave.allOld,
        some context.localState, some wave.attemptId, false⟩ wave.rounds with
      | none => return .interrupted
      | some applier =>
        if ← interrupt isCancelRequested then
          return .interrupted
        else
          let prepared ← here applier.finishPreparation
          if ← interrupt isCancelRequested then
            abortInterrupted prepared.abort wave.attemptId
              "sync interrupted while finishing staged preparation" .interruptedCleaned
          else
            let _ ← remote (.finishStagedPrepare streamId wave.attemptId)
            if plan.streamPerformance then
              let _ ← remote .query
              return .complete prepared
            else
              return .complete prepared

/-- What the client does with the outcome of the streaming. -/
def endStreaming (context : SyncContext) (wave : WaveContext) :
    Except Report StreamDetailedChangesRun → ClientM (Option PreparedApply)
  | .ok (.complete prepared) => return some prepared
  | .ok .interrupted =>
    abortInterrupted (abortStagedApplyAttempt context.localState wave.attemptId) wave.attemptId
      "sync interrupted during staged preparation" none
  | .ok .interruptedCleaned => return none
  | .error primary =>
    abortAndThrow (abortStagedApplyAttempt context.localState wave.attemptId) wave.attemptId primary

/-- `stream_detailed_changes` of a staged wave, which has no result when it is interrupted. -/
def streamDetailedChanges (context : SyncContext) (plan : RunPlan) (wave : WaveContext) :
    ClientM (Option PreparedApply) := do
  if ← interrupt isCancelRequested then
    return none
  else
    match ← remote (.beginStagedApply wave.attemptId) with
    | .stream streamId =>
      if ← interrupt isCancelRequested then
        match ← (remote (.abortStagedApply wave.attemptId)).result with
        | .ok _ => return none
        | .error error =>
          throw (addStagedCleanupContext "sync interrupted while beginning staged preparation"
            none (some error))
      else
        match ← (here (startStagedApplyAttempt "local" context.localState context.localBase
          wave.actions wave.attemptId)).result with
        | .error error =>
          let cleanup ← (remote (.abortStagedApply wave.attemptId)).result
          throw (addStagedCleanupContext error none (Except.err cleanup))
        | .ok _ =>
          endStreaming context wave
            (← (streamDetailedChangesStarted context plan wave streamId).result)
    | _ => throw "unexpected reply"

/-! ## One wave -/

/-- The validation barrier: both sides validate what they prepared. -/
def validateBoth (prepared : PreparedApply) (attemptId : String) : ClientM Unit := do
  let (localValidation, remoteValidation) ←
    join prepared.validateCommit (.validateStagedApply attemptId)
  match localValidation, remoteValidation with
  | .error error, _ => abortAndThrow prepared.abort attemptId error
  | .ok _, .error error => abortAndThrow prepared.abort attemptId error
  | .ok _, .ok _ => return ()

/-- `finish_staged_commit` -/
def finishStagedCommit : Except Report Entries → Except Report Reply → ClientM Entries
  | .ok entries, .ok _ => return entries
  | .error error, .ok _ => throw error
  | .ok _, .error error => throw error
  | .error mine, .error theirs =>
    throw ("local staged commit failed: " ++ mine ++ "\nremote staged commit failed: " ++ theirs)

/-- Both sides commit, save the manifest, and end the wave. -/
def commitBoth (context : SyncContext) (plan : RunPlan) (prepared : PreparedApply)
    (attemptId : String) : ClientM Entries := do
  let (localCommit, remoteCommit) ← join prepared.commitProfiled (.commitStagedApply attemptId)
  let entries ← finishStagedCommit localCommit remoteCommit
  here (markStagedApplyAttemptStateSave context.localState attemptId)
  let (localSave, remoteSave) ←
    join (saveEntriesAs context.localState entries (snapshotFormat plan.strong))
      (.saveStagedStatePending attemptId plan.strong)
  match localSave, remoteSave with
  | .error error, _ => throw error
  | .ok _, .error error => throw error
  | .ok _, .ok _ =>
    let _ ← remote (.completeStagedApply attemptId)
    here (finishStagedApplyAttempt context.localState attemptId)
    return entries

/-- `set_remote_actions` -/
def setRemoteActions (plan : RunPlan) (actions : Actions) : ClientM Reply :=
  remote (if plan.strong then .setActionsV2 actions else .setActions actions)

/-- One wave, which has no result when the client is interrupted. -/
def runWave (context : SyncContext) (plan : RunPlan) (wave : WaveContext) :
    ClientM (Option Entries) := do
  if ← interrupt isCancelRequested then
    return none
  else
    here (host (.check .query))
    let _ ← remote .query
    perform (.beginWave wave.attemptId)
    let _ ← setRemoteActions plan (reverse wave.actions)
    let (localSignatures, remoteSignatures) ← join (host (.check .query)) .query
    match localSignatures, remoteSignatures with
    | .error error, _ => throw error
    | .ok _, .error error => throw error
    | .ok _, .ok _ =>
      match ← streamDetailedChanges context plan wave with
      | none => return none
      | some prepared =>
        if !plan.reportsMatch then
          abortAndThrow prepared.abort wave.attemptId "staged preparation reported other actions"
        else
          validateBoth prepared wave.attemptId
          if ← interrupt tryBeginCommit then
            return some (← commitBoth context plan prepared wave.attemptId)
          else
            abortInterrupted prepared.abort wave.attemptId
              "sync interrupted before staged commit" none

/-- The attempt id of a wave, counted from zero. -/
def waveAttemptId (plan : RunPlan) (index count : Nat) : String :=
  plan.applyAttemptId ++ "-wave-" ++ toString (index + 1) ++ "-of-" ++ toString count

/-- The waves of the staged strategy, from number `index` on. -/
def runWaves (context : SyncContext) (plan : RunPlan) (count : Nat) :
    Nat → Entries → List Actions → ClientM SyncOutcome
  | _, _, [] => return .success
  | index, allOld, actions :: waves => do
    match ← runWave context plan
      ⟨actions, plan.rounds actions, waveAttemptId plan index count, allOld⟩ with
    | none => return .interrupted
    | some entries =>
      if waves.isEmpty then
        return .success
      else
        match ← interrupt tryResetAfterCheckpoint with
        | some true => runWaves context plan count (index + 1) entries waves
        | some false => return .interrupted
        | none => throw "invalid interrupt phase at checkpoint"

/-! ## The whole run -/

/-- `old_and_changes` on the own side -/
def scanLocal (context : SyncContext) : HostM State.ScanContext :=
  host (.scan context.localBase context.localState)

/-- The call for the changes of the other side. -/
def changesRequest (context : SyncContext) : Request :=
  if context.scope.excludes.isEmpty then .changes context.scope.restrict context.remoteId
  else .changesScope context.scope context.remoteId

/-- The checks of a plan and of the staging space on both sides. -/
def preflight (context : SyncContext) (active : Actions) : ClientM Unit := do
  let _ ← remote .query
  here (host (.check (.preflightStateSave context.localState)))
  here (host (.check (.preflightApply context.localBase active)))
  let _ ← remote .query
  here (host (.check .query))
  let _ ← remote .query
  return ()

/-- What the client does with its decision. -/
def applyDecision (context : SyncContext) (plan : RunPlan) (allOld : Entries) :
    Except SyncError SyncDecision → ClientM SyncOutcome
  | .error _ => throw "the plan cannot be carried out"
  | .ok (.finish outcome) => return outcome
  | .ok (.apply active) => do
    preflight context active
    if ← interrupt isCancelRequested then
      return .interrupted
    else
      runWaves context plan (plan.waves active).length 0 allOld (plan.waves active)

/-- An interrupt at the prompt is one of the run, and so are those before. -/
def afterResolution (context : SyncContext) (plan : RunPlan) (allOld : Entries) :
    Except SyncError SyncDecision → ClientM SyncOutcome
  | .ok (.finish .interrupted) => do
    match ← interrupt (requestInterrupt 2) with
    | some .force | none => throw "forced exit"
    | some _ => return .interrupted
  | decision => do
    if ← interrupt isCancelRequested then
      return .interrupted
    else
      applyDecision context plan allOld decision

/-- From the changes of both sides on. -/
def resolveAndApply (context : SyncContext) (plan : RunPlan)
    (contextL contextR : State.ScanContext) : ClientM SyncOutcome := do
  let decision := decideSync plan.strong plan.dryRun plan.answer contextL contextR
  if plan.strong && (contextL.migrationNeeded || contextR.migrationNeeded) then
    let _ ← remote .prepareMigrationV2
    afterResolution context plan
      (replaceScope contextL.allOld context.scope contextL.current) decision
  else
    afterResolution context plan contextL.allOld decision

/-- The setup of the server, and the changes of both sides. -/
def scanAndApply (context : SyncContext) (plan : RunPlan) : ClientM SyncOutcome := do
  let (localResult, remoteResult) ← join (scanLocal context) (changesRequest context)
  match localResult, remoteResult with
  | .error error, _ => throw error
  | .ok _, .error error => throw error
  | .ok contextL, .ok (.changes found) =>
    if ← interrupt isCancelRequested then
      return .interrupted
    else
      let _ ← remote .query
      if ← interrupt isCancelRequested then
        return .interrupted
      else
        resolveAndApply context plan contextL
          ⟨[], found.changes, found.current, found.migrationNeeded⟩
  | .ok _, .ok _ => throw "unexpected reply"

def connect (context : SyncContext) : ClientM Unit := do
  let _ ← remote (.setBase context.remoteBase)
  let _ ← remote .query
  match context.remoteStateDir with
  | some dir =>
    let _ ← remote (.setRemoteStateDir dir)
    let _ ← remote .query
    return ()
  | none =>
    let _ ← remote .query
    return ()

/-- The run up to the end of the connection. -/
def syncConnected (context : SyncContext) (plan : RunPlan) : ClientM SyncOutcome := do
  if ← interrupt isCancelRequested then
    return .interrupted
  else
    connect context
    if ← interrupt isCancelRequested then
      return .interrupted
    else
      scanAndApply context plan

/-- `finalize_server` -/
def finalizeServer {α : Type} : Except Report α → Except Report Unit → Except Report α
  | .ok outcome, .ok _ => .ok outcome
  | .error primary, .ok _ => .error primary
  | .ok _, .error wait => .error wait
  | .error primary, .error wait =>
    .error ("waiting for duet server also failed: " ++ wait ++ ": " ++ primary)

/-- The end of the connection, and of the run. -/
def endConnection (result : Except Report SyncOutcome) : ClientM SyncOutcome := do
  let waited ← perform .wait
  match ← interrupt (complete 2) with
  | some true => (finalizeServer result waited).map fun _ => .interrupted
  | some false => finalizeServer result waited
  | none => throw "the interrupt phase does not settle"

/-- `sync`, for a run that goes by the staged strategy -/
def sync (context : SyncContext) (plan : RunPlan) : ClientM SyncOutcome := do
  here (checkApplyAttemptClear context.localState)
  if ← interrupt isCancelRequested then
    return .interrupted
  -- the session to the other host is opened here
  else if ← interrupt isCancelRequested then
    return .interrupted
  else
    endConnection (← (syncConnected context plan).result)

end Duet

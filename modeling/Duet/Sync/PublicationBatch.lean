import Duet.Lib.WorkerPool
import Duet.Lib.Words
import Duet.Sync.DetailApplier

/-!
# Publication batches

The outputs that the detail applier finishes wait in a batch. Sealing takes the batch, lets workers
sync its outputs in whichever order, syncs the marker and only then moves the outputs to the slots
of their actions.

An `OutputPipeline` is what the applier keeps for this, with the steps that a stream of frames and
its end take. Its log is not in the source: it says what was done, in order.
-/

namespace Duet.Detail

open Lib

/-! ## Limits -/

/-- An `OutputBatchConfig` with the number of sync workers. -/
structure PublicationLimits extends OutputBatchConfig where
  workers : Nat

def maxOutputBatchFiles : Nat := 512
def maxOutputBatchBytes : Nat := 1024 * 1024 * 1024
def maxOutputSyncWorkers : Nat := 64
def outputBatchFdHeadroom : Nat := 64

/-- `output_batch_file_limit`, for the soft limit on open files where there is one -/
def outputBatchFileLimit : Option Nat → Nat
  | none => maxOutputBatchFiles
  | some soft => clamp (soft - outputBatchFdHeadroom) 1 maxOutputBatchFiles

namespace PublicationLimits

def normalizedWithFileLimit (limits : PublicationLimits) (fileLimit : Nat) : PublicationLimits where
  maxFiles := clamp limits.maxFiles 1 (min maxOutputBatchFiles (max fileLimit 1))
  maxBytes := clamp limits.maxBytes 1 maxOutputBatchBytes
  workers := clamp limits.workers 1 maxOutputSyncWorkers

def normalized (limits : PublicationLimits) (soft : Option Nat) : PublicationLimits :=
  limits.normalizedWithFileLimit (outputBatchFileLimit soft)

end PublicationLimits

/-! ## Sealing a batch -/

/-- What a worker sends for an output. A panic is caught, and sent as an error. -/
inductive SyncOutcome where
  | synced
  | failed (message : String)
  | panicked (message : String)
deriving DecidableEq

def SyncOutcome.error? : SyncOutcome → Option String
  | .synced => none
  | .failed message => some message
  | .panicked message => some ("sync worker panicked: " ++ message)

inductive SealError where
  /-- failed to start temporary file sync worker -/
  | notStarted
  /-- failed to sync output for path at batch item -/
  | notSynced (path : Path) (index : Nat) (cause : String)
  /-- temporary file sync worker stopped before syncing batch item -/
  | stopped (index : Nat)
  | markerNotSynced
  | notClosed (actionIndex : Nat)
  /-- duplicate prepared output for action -/
  | duplicateOutput (actionIndex : Nat)

inductive BatchEvent where
  | finished (item : PendingOutput)
  | taken (items : List PendingOutput)
  | synced (item : PendingOutput)
  | syncFailed (item : PendingOutput)
  | markerSynced
  | placed (item : PendingOutput)

/-- What one sealing meets: how many workers can be started, what each sync gives and in which order
the workers send it, and whether the marker can be synced and an output closed. -/
structure SealAnswers where
  spawned : Nat
  sync : Nat → SyncOutcome
  received : List (Nat × SyncOutcome)
  markerSyncs : Bool
  closes : PendingOutput → Bool

def workerCount (workers pending : Nat) : Nat := max (min workers pending) 1

/-- The workers that were started run to their end before anything else is done. -/
def SealAnswers.Possible (answers : SealAnswers) (workers pending : Nat) : Prop :=
  answers.spawned ≤ workerCount workers pending ∧
    ∃ pool, WorkerPool.Ran answers.sync pending answers.spawned pool ∧
      answers.received = pool.received

/-- The results are looked at in the order of the batch. -/
def checkResults : Nat → List (PendingOutput × Option SyncOutcome) → Except SealError Unit
  | _, [] => .ok ()
  | index, (_, none) :: _ => .error (.stopped index)
  | index, (item, some outcome) :: rest =>
    match outcome.error? with
    | some cause => .error (.notSynced item.prepared.finalEntry.path index cause)
    | none => checkResults (index + 1) rest

abbrev PreparedSlots := Nat → Option PreparedOutput

def placeOutput (slots : PreparedSlots) (item : PendingOutput) : PreparedSlots :=
  Function.update slots item.actionIndex (some item.prepared)

structure FilledSlots where
  result : Except SealError Unit
  slots : PreparedSlots
  log : List BatchEvent

/-- Close the outputs and put each into the slot of its action. -/
def fillSlots (closes : PendingOutput → Bool) : List PendingOutput → PreparedSlots → FilledSlots
  | [], slots => ⟨.ok (), slots, []⟩
  | item :: rest, slots =>
    if closes item then
      if (slots item.actionIndex).isSome then
        ⟨.error (.duplicateOutput item.actionIndex), placeOutput slots item, [.placed item]⟩
      else
        let filled := fillSlots closes rest (placeOutput slots item)
        { filled with log := .placed item :: filled.log }
    else ⟨.error (.notClosed item.actionIndex), slots, []⟩

def syncEvent (item : PendingOutput) (outcome : SyncOutcome) : BatchEvent :=
  if outcome.error?.isNone then .synced item else .syncFailed item

/-- What the workers did, in the order in which they sent it. -/
def syncEvents (pending : List PendingOutput) (received : List (Nat × SyncOutcome)) :
    List BatchEvent :=
  received.filterMap fun sent => pending[sent.1]?.map (syncEvent · sent.2)

/-! ## The pipeline -/

/-- Where the applier is: between two outputs, about to make the file of one, writing it, sealing
the batch before it goes on, at the end, or refusing. -/
inductive OutputStage where
  | between
  | creating (actionIndex bytes : Nat)
  | writing (actionIndex bytes : Nat)
  | sealing (next : OutputStage)
  | prepared
  | failed

structure OutputPipeline where
  workers : Nat
  batch : FilePublicationBatch
  preparedOutputs : PreparedSlots
  preparingMarker : Bool
  actionIndex : Nat
  stage : OutputStage
  log : List BatchEvent

namespace OutputPipeline

/-- `with_worker`, in a new applier -/
def start (limits : PublicationLimits) (soft : Option Nat) : OutputPipeline where
  workers := (limits.normalized soft).workers
  batch := ⟨(limits.normalized soft).toOutputBatchConfig, [], 0⟩
  preparedOutputs := fun _ => none
  preparingMarker := false
  actionIndex := 0
  stage := .between
  log := []

def sealInto (pipeline : OutputPipeline) (answers : SealAnswers) :
    Except SealError Unit × OutputPipeline :=
  let pending := pipeline.batch.pending
  if pending.isEmpty then (.ok (), pipeline)
  else
    let taken := { pipeline with
      batch := { pipeline.batch with pending := [], pendingBytes := 0 }
      log := pipeline.log ++ .taken pending :: syncEvents pending answers.received }
    if answers.spawned < workerCount pipeline.workers pending.length then
      (.error .notStarted, taken)
    else
      match checkResults 0
          (pending.zip (WorkerPool.collect pending.length answers.received)) with
      | .error cause => (.error cause, taken)
      | .ok () =>
        if pipeline.preparingMarker && !answers.markerSyncs then (.error .markerNotSynced, taken)
        else
          let filled := fillSlots answers.closes pending pipeline.preparedOutputs
          let marker := if pipeline.preparingMarker then [BatchEvent.markerSynced] else []
          (filled.result, { taken with
            preparedOutputs := filled.slots
            log := taken.log ++ (marker ++ filled.log) })

/-- Seal the batch, and go on when that succeeds. -/
def sealOutputs (pipeline : OutputPipeline) (answers : SealAnswers) (next : OutputStage) :
    OutputPipeline :=
  match pipeline.sealInto answers with
  | (.ok (), done) => { done with stage := next }
  | (.error _, done) => { done with stage := .failed }

def flushBeforeOutput (pipeline : OutputPipeline) (bytes : Nat) (next : OutputStage) :
    OutputPipeline :=
  { pipeline with
    stage := if pipeline.batch.shouldFlushBefore bytes then .sealing next else next }

/-- `begin_file_detail` and `begin_diff_detail`, after `advance_to_action`, up to the new output -/
def beginDetail (pipeline : OutputPipeline) (actionIndex : Nat) (entry : DirEntryWithMeta) :
    OutputPipeline :=
  { pipeline with actionIndex := actionIndex }.flushBeforeOutput entry.size.toNat
    (.creating actionIndex entry.size.toNat)

/-- The staging directory is made with the first output, and for an attempt the marker is opened. -/
def newOutput (pipeline : OutputPipeline) (attempt : Bool) (actionIndex bytes : Nat) :
    OutputPipeline :=
  { pipeline with preparingMarker := attempt, stage := .writing actionIndex bytes }

/-- `finish_file_detail`, for an output that is verified and prepared -/
def finishFileDetail (pipeline : OutputPipeline) (item : PendingOutput) : OutputPipeline :=
  let batch := pipeline.batch.push item
  { pipeline with
    batch := batch
    actionIndex := item.actionIndex + 1
    stage := if batch.isFull then .sealing .between else .between
    log := pipeline.log ++ [.finished item] }

/-- The steps of a stream for `actions`. The begin frame of an output gives the size of the output
entry of its action; the prepared output has the entry of the same action, with the number of the
new file. Anything else that goes wrong refuses the stream, except while a batch is sealed. -/
inductive Step (actions : Actions) (attempt : Bool) : OutputPipeline → OutputPipeline → Prop
  | beginDetail {pipeline : OutputPipeline} {actionIndex : Nat} {action : Action}
      {entry : DirEntryWithMeta} :
    pipeline.stage = .between → pipeline.actionIndex ≤ actionIndex →
    actions[actionIndex]? = some action → actionOutputEntry action = .ok entry →
    Step actions attempt pipeline (pipeline.beginDetail actionIndex entry)
  | newOutput {pipeline : OutputPipeline} {actionIndex bytes : Nat} :
    pipeline.stage = .creating actionIndex bytes →
    Step actions attempt pipeline (pipeline.newOutput attempt actionIndex bytes)
  | finishFileDetail {pipeline : OutputPipeline} {actionIndex bytes : Nat} {action : Action}
      {entry : DirEntryWithMeta} (output : TempOutput) (publication : OutputPublication)
      (ino : UInt64) :
    pipeline.stage = .writing actionIndex bytes →
    actions[actionIndex]? = some action → finishedEntry action = .ok entry →
    Step actions attempt pipeline
      (pipeline.finishFileDetail ⟨actionIndex, ⟨output, entry.setIno ino, publication⟩⟩)
  | finishPreparation {pipeline : OutputPipeline} :
    pipeline.stage = .between →
    Step actions attempt pipeline { pipeline with stage := .sealing .prepared }
  | sealOutputs {pipeline : OutputPipeline} {next : OutputStage} {answers : SealAnswers} :
    pipeline.stage = .sealing next →
    answers.Possible pipeline.workers pipeline.batch.pending.length →
    Step actions attempt pipeline (pipeline.sealOutputs answers next)
  | refuse {pipeline : OutputPipeline} :
    (∀ next, pipeline.stage ≠ .sealing next) →
    Step actions attempt pipeline { pipeline with stage := .failed }

end OutputPipeline

end Duet.Detail

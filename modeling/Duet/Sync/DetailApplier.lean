import Duet.CloneBacked
import Duet.Lib.Effect
import Duet.Sync.DetailKind
import Duet.Sync.Validate

/-!
# The detail applier

The receiving side reads one stream of frames for all actions. A frame begins, continues
or ends the output of one action; finished outputs are collected in a batch and sealed
together, which fills their slots. The first error is kept, and nothing is read after it.

What the operating system does with a call is a parameter, which may answer the same
call differently each time. The marker and the limits of the staging space only add such
calls.
-/

namespace Duet.Detail

open Lib

/-! ## Contents -/

/-- The two hash functions of file contents, which come from other packages. -/
structure ContentHashes where
  adler32 : List UInt8 → UInt32
  blake2b : List UInt8 → Vector UInt8 32

/-- How contents differ from what their entry says. -/
inductive ContentMismatch where
  /-- size mismatch: expected, got -/
  | size (path : Path) (expected : UInt64) (got : Nat)
  /-- strong digest mismatch: expected, got -/
  | digest (path : Path) (expected actual : ContentDigest)
  /-- legacy checksum mismatch: expected, got -/
  | checksum (path : Path) (expected actual : UInt32)

/-- `saturating_add` of `u64` -/
def saturatingAdd (a b : Nat) : Nat := min (a + b) (2 ^ 64 - 1)

/-- `StreamedOutputVerifier::verify`, and the same checks of an open file. The number of
bytes is kept in a `u64` that saturates. -/
def verifyContents (hashes : ContentHashes) (entry : DirEntryWithMeta) (bytes : List UInt8) :
    Except ContentMismatch Unit :=
  let count := saturatingAdd 0 bytes.length
  if count ≠ entry.size.toNat then .error (.size entry.path entry.size count)
  else match entry.digest with
    | some expected =>
      let actual : ContentDigest := ⟨hashes.blake2b bytes⟩
      if actual ≠ expected then .error (.digest entry.path expected actual) else .ok ()
    | none =>
      let actual := hashes.adler32 bytes
      if actual ≠ entry.checksum then .error (.checksum entry.path entry.checksum actual)
      else .ok ()

/-! ## State -/

/-- A call that the applier makes while it prepares outputs. -/
inductive OutputCall where
  | checkSpace (path : Path) (bytes : Nat)
  | recheckSpace
  | createStaging
  | recordStage
  | createOutput (path : Path)
  | recordStageEntry (path : Path)
  | openSource (path : Path)
  | write (path : Path) (bytes : Nat)
  | readBack (path : Path) (bytes : Nat)
  | setLen (path : Path) (len : Nat)
  | prepareMetadata (path : Path)
  | sync (path : Path)
  | syncMarker
  | close (path : Path)
  | sealStaging
deriving DecidableEq

/-- What a call meets: whether the n-th one is refused, what the files below the base
hold, whether a clone can be made, how reads are split, and the new files' numbers. -/
structure OutputFiles where
  refuses : Nat → OutputCall → Bool
  contents : Path → List UInt8
  clones : Nat → Bool
  readPlan : Nat → List Nat
  ino : Nat → UInt64

/-- Why a frame, or the end of the stream, is refused. -/
inductive DetailError where
  /-- detail apply stream already failed -/
  | alreadyFailed (cause : DetailError)
  /-- detail frame references missing action -/
  | missingAction (index : Nat)
  /-- detail frame for action arrived while applying another one -/
  | whileApplying (index applying : Nat)
  /-- detail frame for action arrived after action was already processed -/
  | alreadyProcessed (index processed : Nat)
  /-- missing detail frames for action -/
  | missingFrames (index : Nat)
  /-- unexpected detail kind for action -/
  | unexpectedKind (index : Nat)
  /-- detail stream for action did not begin with a begin frame -/
  | noBegin (index : Nat)
  /-- unexpected file detail frame -/
  | unexpectedFileFrame
  /-- unexpected diff detail frame, or a position that no file has -/
  | output (message : String)
  /-- detail stream ended with an unfinished file -/
  | unfinishedFile
  /-- action has no regular file output -/
  | noOutputEntry (message : String)
  /-- action has no detail filename -/
  | noDetailFilename
  /-- diff detail began for non-diff action -/
  | notDiff
  /-- file detail finished for non-file action -/
  | notFile
  | invalidPath (cause : ValidationError)
  | mismatch (cause : ContentMismatch)
  /-- duplicate prepared output for action -/
  | duplicateOutput (index : Nat)
  | refused (call : OutputCall)

/-- An output in the staging directory, open for writing. -/
structure TempOutput where
  finalPath : Path
  file : List UInt8

inductive OutputPublication where
  | replace (expected : DirEntryWithMeta)
  | noReplace (description : String)

structure PreparedOutput where
  output : TempOutput
  finalEntry : DirEntryWithMeta
  publication : OutputPublication

structure PendingOutput where
  actionIndex : Nat
  prepared : PreparedOutput

inductive ApplyState where
  | file (actionIndex : Nat) (output : TempOutput) (verifier : StreamedOutputVerifier)
  | diff (actionIndex : Nat) (finalPath : Path) (diff : DiffState)

/-- The limits of a batch of outputs that are sealed together. -/
structure OutputBatchConfig where
  maxFiles : Nat
  maxBytes : Nat

structure FilePublicationBatch where
  config : OutputBatchConfig
  pending : List PendingOutput
  pendingBytes : Nat

/-- `calls` counts the calls made so far. -/
structure DetailApplier where
  actions : Actions
  actionIndex : Nat
  state : Option ApplyState
  outputBatch : FilePublicationBatch
  preparedOutputs : Nat → Option PreparedOutput
  attemptId : Option String
  staging : Bool
  preparingMarker : Bool
  stagingSpaceMonitor : Bool
  failed : Option DetailError
  calls : Nat

/-- `new_with_attempt_and_policy` and its variants -/
def DetailApplier.new (actions : Actions) (attemptId : Option String)
    (stagingSpaceMonitor : Bool) (config : OutputBatchConfig) : DetailApplier where
  actions := actions
  actionIndex := 0
  state := none
  outputBatch := ⟨config, [], 0⟩
  preparedOutputs := fun _ => none
  attemptId := attemptId
  staging := false
  preparingMarker := false
  stagingSpaceMonitor := stagingSpaceMonitor
  failed := none
  calls := 0

abbrev Applying (α : Type) := Effect DetailError DetailApplier α

def applierUpdate (change : DetailApplier → DetailApplier) : Applying Unit := do
  let applier ← Effect.read
  Effect.write (change applier)

/-! ## The data of an action -/

/-- An error with a message only. -/
def withMessage {α : Type} (wrap : String → DetailError) : Except String α → Except DetailError α
  | .ok a => .ok a
  | .error message => .error (wrap message)

def actionOutputEntry : Action → Except DetailError DirEntryWithMeta
  | .local change | .resolvedLocal _ change => withMessage .noOutputEntry (changeOutputEntry change)
  | _ => .error (.noOutputEntry "action has no regular file output")

/-- `safe_join` of the path that a detail is for; a path is relative to the base here. -/
def detailFilename : Action → Except DetailError Path
  | .local (.added e) | .resolvedLocal _ (.added e)
  | .local (.modified _ e) | .resolvedLocal _ (.modified _ e) =>
    match validateRelativePath e.path with
    | .ok () => .ok e.path
    | .error cause => .error (.invalidPath cause)
  | _ => .error .noDetailFilename

def replacementOldEntry : Action → Option DirEntryWithMeta
  | .local (.modified e _) | .resolvedLocal _ (.modified e _) => some e
  | _ => none

/-- The entry that a finished output is checked against. -/
def finishedEntry : Action → Except DetailError DirEntryWithMeta
  | .local (.added e) | .resolvedLocal _ (.added e)
  | .local (.modified _ e) | .resolvedLocal _ (.modified _ e) => .ok e
  | _ => .error .notFile

def ContentMismatch.wrap : Except ContentMismatch Unit → Except DetailError Unit
  | .ok () => .ok ()
  | .error cause => .error (.mismatch cause)

/-- No file is longer than an `i64`. -/
def checkFileLength (len : Nat) : Except DetailError Unit :=
  if len < 2 ^ 63 then .ok () else .error (.output "File too large (os error 27)")

/-! ## Sealing -/

section Steps

variable (files : OutputFiles) (hashes : ContentHashes)

/-- A call, with whatever the operating system answers this time. -/
def outputCall (call : OutputCall) : Applying Unit := do
  let applier ← Effect.read
  Effect.write { applier with calls := applier.calls + 1 }
  if files.refuses applier.calls call then Effect.fail (.refused call) else pure ()

def FilePublicationBatch.shouldFlushBefore (batch : FilePublicationBatch) (bytes : Nat) : Bool :=
  !batch.pending.isEmpty &&
    (decide (batch.config.maxFiles ≤ batch.pending.length) ||
      decide (batch.config.maxBytes < saturatingAdd batch.pendingBytes bytes))

def FilePublicationBatch.push (batch : FilePublicationBatch) (item : PendingOutput) :
    FilePublicationBatch :=
  { batch with
    pending := batch.pending ++ [item]
    pendingBytes := saturatingAdd batch.pendingBytes item.prepared.finalEntry.size.toNat }

def FilePublicationBatch.isFull (batch : FilePublicationBatch) : Bool :=
  decide (batch.config.maxFiles ≤ batch.pending.length) ||
    decide (batch.config.maxBytes ≤ batch.pendingBytes)

/-- Close one synced output and put it into the slot of its action. -/
def fillSlot (item : PendingOutput) : Applying Unit := do
  outputCall files (.close item.prepared.output.finalPath)
  let applier ← Effect.read
  Effect.write { applier with
    preparedOutputs :=
      Function.update applier.preparedOutputs item.actionIndex (some item.prepared) }
  if (applier.preparedOutputs item.actionIndex).isSome then
    Effect.fail (.duplicateOutput item.actionIndex)
  else pure ()

/-- The appends to the marker are on disk before the first slot is filled. -/
def syncMarker : Applying Unit := do
  let applier ← Effect.read
  if applier.preparingMarker then outputCall files .syncMarker else pure ()

/-- `seal_into`. The outputs are synced by several workers; the first failed one in the
order of the batch is reported. -/
def sealInto : Applying Unit := do
  let applier ← Effect.read
  let pending := applier.outputBatch.pending
  if pending.isEmpty then pure ()
  else do
    Effect.write { applier with
      outputBatch := { applier.outputBatch with pending := [], pendingBytes := 0 } }
    pending.forM fun item => outputCall files (.sync item.prepared.output.finalPath)
    syncMarker files
    pending.forM (fillSlot files)

def checkSpace (path : Path) (bytes : Nat) : Applying Unit := do
  let applier ← Effect.read
  if applier.stagingSpaceMonitor then outputCall files (.checkSpace path bytes) else pure ()

def recheckSpace : Applying Unit := do
  let applier ← Effect.read
  if applier.stagingSpaceMonitor then outputCall files .recheckSpace else pure ()

def sealOutputs : Applying Unit := do
  sealInto files
  recheckSpace files

def flushBeforeOutput (bytes : Nat) : Applying Unit := do
  let applier ← Effect.read
  if applier.outputBatch.shouldFlushBefore bytes then sealOutputs files else pure ()

/-! ## Beginning an output -/

/-- The staging directory is made for the first output; an attempt has a marker that
records it. -/
def ensureStaging : Applying Unit := do
  let applier ← Effect.read
  if applier.staging then pure ()
  else do
    outputCall files .createStaging
    outputCall files .recordStage
    applierUpdate fun applier =>
      { applier with staging := true, preparingMarker := applier.attemptId.isSome }

def recordNewOutput (path : Path) : Applying Unit := do
  let applier ← Effect.read
  if applier.preparingMarker then outputCall files (.recordStageEntry path) else pure ()

/-- `new_output`, and `new_diff_output` after the choice between a clone and a new file -/
def newOutput (finalPath : Path) : Applying Unit := do
  checkSpace files finalPath 0
  ensureStaging files
  outputCall files (.createOutput finalPath)
  recordNewOutput files finalPath

def beginFileDetail (actionIndex : Nat) (action : Action) : Applying Unit := do
  let entry ← Effect.check (actionOutputEntry action)
  flushBeforeOutput files entry.size.toNat
  let filename ← Effect.check (detailFilename action)
  newOutput files filename
  applierUpdate fun applier =>
    { applier with state := some (.file actionIndex ⟨filename, []⟩ ⟨[]⟩) }

/-- The old entry of a diff. -/
def diffOldEntry (action : Action) : Except DetailError DirEntryWithMeta :=
  match replacementOldEntry action with
  | some old => .ok old
  | none => .error .notDiff

def beginDiffDetail (actionIndex : Nat) (action : Action) : Applying Unit := do
  let entry ← Effect.check (actionOutputEntry action)
  flushBeforeOutput files entry.size.toNat
  let filename ← Effect.check (detailFilename action)
  let old ← Effect.check (diffOldEntry action)
  outputCall files (.openSource filename)
  Effect.check (ContentMismatch.wrap (verifyContents hashes old (files.contents filename)))
  newOutput files filename
  applierUpdate fun applier =>
    { applier with
      state := some (.diff actionIndex filename
        (.begin (files.contents filename) (files.clones applier.calls)
          (files.readPlan applier.calls))) }

/-! ## Continuing and ending an output -/

/-- `prepare` of an output whose contents are verified -/
def prepareOutput (output : TempOutput) (action : Action) (entry : DirEntryWithMeta) :
    Applying PreparedOutput := do
  outputCall files (.prepareMetadata output.finalPath)
  let applier ← Effect.read
  let publication := match replacementOldEntry action with
    | some old => OutputPublication.replace old
    | none => .noReplace "rename target"
  pure ⟨output, entry.setIno (files.ino applier.calls), publication⟩

/-- Verify an ended output and put it into the batch. -/
def finishOutput (actionIndex : Nat) (action : Action) (output : TempOutput)
    (verifier : StreamedOutputVerifier) : Applying Unit := do
  applierUpdate fun applier => { applier with state := none }
  let entry ← Effect.check (finishedEntry action)
  Effect.check (ContentMismatch.wrap (verifyContents hashes entry verifier.fed))
  let prepared ← prepareOutput files output action entry
  let applier ← Effect.read
  let batch := applier.outputBatch.push ⟨actionIndex, prepared⟩
  Effect.write { applier with outputBatch := batch, actionIndex := actionIndex + 1 }
  if batch.isFull then sealOutputs files else pure ()

def writeCalls (finalPath : Path) (bytes : Nat) : Applying Unit := do
  checkSpace files finalPath bytes
  outputCall files (.write finalPath bytes)

/-- A frame of a file output in progress. -/
def applyFilePayload (actionIndex : Nat) (action : Action) (output : TempOutput)
    (verifier : StreamedOutputVerifier) : DetailPayload → Applying Unit
  | .fileBytes bytes => do
    writeCalls files output.finalPath bytes.length
    Effect.check (checkFileLength (output.file ++ bytes).length)
    applierUpdate fun applier =>
      { applier with
        state := some (.file actionIndex { output with file := output.file ++ bytes }
          (verifier.update bytes)) }
  | .fileEnd => finishOutput files hashes actionIndex action output verifier
  | _ => Effect.fail .unexpectedFileFrame

/-- A copy to its own offset in a clone is only read back, and takes no space. -/
def copyCalls (finalPath : Path) (diff : DiffState) (offset len : Nat) : Applying Unit :=
  if diff.cloneBacked && offset == diff.outputPosition then
    outputCall files (.readBack finalPath len)
  else writeCalls files finalPath len

/-- Copies and literals leave the output no longer than a file can be. What a copy in a
clone only reads back is part of a file already. -/
def moveDiff (diff : DiffState) (payload : DetailPayload) : Except DetailError DiffState := do
  let next ← withMessage .output (applyDiffMove diff payload)
  checkFileLength next.outputPosition
  pure next

/-- A frame of a diff in progress. -/
def applyDiffPayload (actionIndex : Nat) (action : Action) (finalPath : Path)
    (diff : DiffState) : DetailPayload → Applying Unit
  | .diffCopy offset len => do
    copyCalls files finalPath diff offset len
    let next ← Effect.check (moveDiff diff (.diffCopy offset len))
    applierUpdate fun applier => { applier with state := some (.diff actionIndex finalPath next) }
  | .diffBytes bytes => do
    writeCalls files finalPath bytes.length
    let next ← Effect.check (moveDiff diff (.diffBytes bytes))
    applierUpdate fun applier => { applier with state := some (.diff actionIndex finalPath next) }
  | .diffEnd => do
    outputCall files (.setLen finalPath diff.outputPosition)
    finishOutput files hashes actionIndex action
      ⟨finalPath, setLen 0 diff.output diff.outputPosition⟩ diff.verifier
  | _ => Effect.fail (.output "unexpected diff detail frame")

/-! ## Frames -/

/-- `advance_to_action`, with the actions that are left to pass -/
def advanceActions : Nat → Actions → Applying Unit
  | 0, _ => pure ()
  | left + 1, actions => do
    let applier ← Effect.read
    if (actions.head?.bind applyDetailKind).isSome then
      Effect.fail (.missingFrames applier.actionIndex)
    else do
      Effect.write { applier with actionIndex := applier.actionIndex + 1 }
      advanceActions left actions.tail

def advanceToAction (targetIndex : Nat) : Applying Unit := do
  let applier ← Effect.read
  advanceActions (targetIndex - applier.actionIndex) (applier.actions.drop applier.actionIndex)

/-- A frame while no output is in progress has to begin one. -/
def beginDetail (frameIndex : Nat) (action : Action) (payload : DetailPayload) : Applying Unit :=
  match payload, applyDetailKind action with
  | .fileBegin, some .file => beginFileDetail files frameIndex action
  | .diffBegin, some .diff => beginDiffDetail files hashes frameIndex action
  | .fileBegin, _ | .diffBegin, _ => Effect.fail (.unexpectedKind frameIndex)
  | _, _ => Effect.fail (.noBegin frameIndex)

/-- A frame for an action, in the state the applier is in. -/
def applyFrameFor (frameIndex : Nat) (action : Action) (payload : DetailPayload)
    (applier : DetailApplier) : Applying Unit :=
  match applier.state with
  | some (.file actionIndex output verifier) =>
    if actionIndex ≠ frameIndex then Effect.fail (.whileApplying frameIndex actionIndex)
    else applyFilePayload files hashes actionIndex action output verifier payload
  | some (.diff actionIndex finalPath diff) =>
    if actionIndex ≠ frameIndex then Effect.fail (.whileApplying frameIndex actionIndex)
    else applyDiffPayload files hashes actionIndex action finalPath diff payload
  | none =>
    if frameIndex < applier.actionIndex then
      Effect.fail (.alreadyProcessed frameIndex (applier.actionIndex - 1))
    else do
      advanceToAction frameIndex
      beginDetail files hashes frameIndex action payload

def applyFrameInner (frame : DetailFrame) : Applying Unit := do
  let applier ← Effect.read
  let frameIndex := frame.actionIndex.toNat
  match applier.actions[frameIndex]? with
  | none => Effect.fail (.missingAction frameIndex)
  | some action => applyFrameFor files hashes frameIndex action frame.payload applier

/-- The first error is kept. -/
def applyFrame (frame : DetailFrame) : Applying Unit := fun applier =>
  match applier.failed with
  | some cause => (.error (.alreadyFailed cause), applier)
  | none =>
    match applyFrameInner files hashes frame applier with
    | (.ok (), next) => (.ok (), next)
    | (.error cause, next) => (.error cause, { next with failed := some cause })

/-- A large payload, sent on its own. -/
structure FileByteChunk where
  actionIndex : UInt32
  bytes : List UInt8
deriving DecidableEq

def applyFileByteChunk (chunk : FileByteChunk) : Applying Unit :=
  applyFrame files hashes ⟨chunk.actionIndex, .fileBytes chunk.bytes⟩

/-- `staging.seal()`, and the last look at the space -/
def sealStaging : Applying Unit := do
  let applier ← Effect.read
  if applier.staging then outputCall files .sealStaging else pure ()

/-- `finish_preparation` up to the sealed outputs. -/
def finishOutputs : Applying Unit := do
  let applier ← Effect.read
  match applier.failed with
  | some cause => Effect.fail (.alreadyFailed cause)
  | none =>
    if applier.state.isSome then Effect.fail .unfinishedFile
    else do
      advanceToAction applier.actions.length
      sealOutputs files

/-- The plan of the commit is checked against the tree after that, and `commit` publishes
the outputs. -/
def finish {α : Type} (commit : Applying α) : Applying α := do
  finishOutputs files
  sealStaging files
  recheckSpace files
  commit

end Steps

end Duet.Detail

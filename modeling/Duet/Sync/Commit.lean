import Duet.ManifestMerge
import Duet.Scan.TreeEdits
import Duet.Sync.CommitPlan
import Duet.Sync.DetailApplier
import Duet.Sync.MarkerRecord
import Duet.Sync.Prune

/-!
# The commit of a prepared plan

A prepared plan is checked against the target tree once more and then carried out in two
passes. Staged outputs that a validation before the commit has given a receipt for are not read
again, if the operating system says the same of them as then. The forward pass takes files and links away, makes links and private directories
and publishes the staged files. The second pass goes backwards over the directories, and
removes them or gives them their metadata. The results are merged into the manifest.

What the operating system does with a call is a parameter, which sees the tree and may
answer the same call differently each time. A file has its contents and its metadata under
one name only: hard links between paths of a plan, whose metadata would change together, are
no part of the model. Nothing is put behind a symbolic link: a directory that an entry is put
into has to be in the tree. Where a parent that its owner may not write is opened for a
publication, the mode that is widened meanwhile is no part of the model either.
-/

namespace Duet.Commit

open Lib

/-! ## Calls -/

inductive Call where
  | readSource (path : Path)
  | inspect (path : Path)
  | openFile (path : Path)
  | readLink (path : Path)
  | reopenOutput (path : Path)
  | locateOutput (path : Path)
  | verifyOutput (path : Path)
  | inspectOutput (path : Path)
  | recheckSpace
  | transition (phase : Marker.ApplyAttemptPhase)
  | openParent (path : Path)
  | createDirectory (path : Path)
  | normalizeDirectory (path : Path)
  | unlink (path : Path)
  | createSymlink (path : Path)
  | setSymlinkTimes (path : Path)
  | openMetadataTarget (path : Path)
  | setPermissions (path : Path)
  | setTimes (path : Path)
  | syncMetadata (path : Path)
  | prepareOutput (path : Path)
  | rename (path : Path)
  | link (path : Path)
  | finishPublication (path : Path)
  | retire (path : Path)
  | removeDirectory (path : Path)
  | record (path : Path)
  | finishStaging
  | syncRemaining
  | syncRecoveryRecords
deriving DecidableEq

/-- The metadata of a staged file, of which any change to it changes something. -/
structure StagedOutputFingerprint where
  dev : UInt64
  ino : UInt64
  mode : UInt32
  nlink : UInt64
  uid : UInt32
  gid : UInt32
  size : UInt64
  mtimeSec : Int64
  mtimeNsec : Int64
  ctimeSec : Int64
  ctimeNsec : Int64
deriving DecidableEq

/-- What the operating system does: whether the n-th call is refused in a tree, what is
found behind links, the metadata of what the n-th call creates, what the n-th call finds of the
staged file for a path, the mode of the base, and what happens to the calls of a pruning that
begins after n calls. -/
structure Kernel where
  refuses : Nat → DirectoryTree → Call → Bool
  resolves : Path → Bool
  behind : Path → DirectoryTree.Lookup
  created : Nat → Metadata
  staged : Nat → Path → StagedOutputFingerprint
  baseMode : UInt32
  pruning : Nat → Duet.Kernel

/-- What a commit fails with. The described entry checks name what they check. -/
inductive Error where
  | refused (call : Call)
  /-- the operating system cannot do in this tree what the call asks for -/
  | failed (call : Call)
  | invalidPath (cause : ValidationError)
  /-- the entries that block the removal of a directory, or the removal itself -/
  | removal (cause : RemovalError)
  /-- a blocker of a removed directory that is not prunable -/
  | blocked (blocker : RemovalBlocker)
  /-- nothing is there -/
  | missing (path : Path)
  /-- something above the path is not a directory -/
  | notBelowDirectory (path : Path)
  /-- destination parent does not exist -/
  | noParent (path : Path)
  /-- destination parent is not a directory -/
  | parentNotDirectory (path : Path)
  /-- destination parent is not writable -/
  | parentNotWritable (path : Path)
  /-- destination appeared after staged preparation -/
  | appeared (path : Path)
  /-- already exists -/
  | alreadyExists (description : String) (path : Path)
  | notRegular (description : String) (path : Path)
  | notDirectory (description : String) (path : Path)
  | notSymlink (description : String) (path : Path)
  | contents (description : String) (cause : Detail.ContentMismatch)
  | targetMismatch (description : String) (path : Path) (expected : Option Path) (got : Path)
  | modeMismatch (description : String) (path : Path) (expected got : UInt32)
  | mtimeMismatch (description : String) (path : Path) (expected got : Int64)
  /-- staged output changed during validation -/
  | changedDuringValidation (path : Path)
  /-- staged output changed after validation -/
  | changedAfterValidation (path : Path)
  /-- staged validation generation exhausted -/
  | generationExhausted
  /-- missing file detail -/
  | missingFileDetail (path : Path)
  /-- missing diff detail -/
  | missingDiffDetail (path : Path)
  /-- streaming directory-to-file changes is not supported -/
  | directoryToFile
  /-- missing prepared output for action -/
  | missingOutput (index : Nat)
  | assign (cause : AssignError)
  | merge (cause : MergeError)

/-- The tree, what its files hold, the staged outputs that are left, the result slots, what
the marker was told, and the number of calls so far. -/
structure State where
  disk : Disk
  contents : Path → List UInt8
  preparedOutputs : Nat → Option Detail.PreparedOutput
  localResults : List (Option DirEntryWithMeta)
  records : List Marker.CommitRecord
  calls : Nat

/-- What a validation has seen: the fingerprints of the outputs, one slot for each action. -/
structure CommitValidationReceipt where
  generation : UInt64
  attemptId : Option String
  outputSlots : Nat
  fingerprints : List (Option StagedOutputFingerprint)

/-- What a prepared apply holds beside its outputs. It has a marker when it has both an
attempt id and a state path. -/
structure Prepared where
  actions : Actions
  allOld : Entries
  plan : CommitPlan
  attempt : Bool
  attemptId : Option String
  validationGeneration : UInt64
  validationReceipt : Option CommitValidationReceipt

abbrev Committing (α : Type) := Effect Error State α

/-- A run over the tree alone. -/
def onDisk {α : Type} (m : Pruning α) : Committing α := fun s =>
  match m s.disk with
  | (.ok a, disk) => (.ok a, { s with disk := disk })
  | (.error cause, disk) => (.error (.removal cause), { s with disk := disk })

def update (change : State → State) : Committing Unit := do
  let s ← Effect.read
  Effect.write (change s)

def State.withTree (s : State) (tree : DirectoryTree) : State :=
  { s with disk := { s.disk with tree := tree } }

/-- The permission bits that are synchronized. -/
def syncedMode (mode : UInt32) : UInt32 := mode &&& 0o7777

/-- The mode of an inode whose permission bits are set. -/
def chmod (mode permissions : UInt32) : UInt32 :=
  mode &&& ~~~(0o7777 : UInt32) ||| syncedMode permissions

/-- `safe_join` of the path of an entry -/
def joinBase (path : Path) : Except Error Path :=
  match validateRelativePath path with
  | .ok () => .ok (canonicalRelativePath path)
  | .error cause => .error (.invalidPath cause)

section Steps

variable (kernel : Kernel) (hashes : Detail.ContentHashes)

/-- A call, with whatever the operating system answers this time. Its number is returned. -/
def perform (call : Call) : Committing Nat := do
  let s ← Effect.read
  Effect.write { s with calls := s.calls + 1 }
  if kernel.refuses s.calls s.disk.tree call then Effect.fail (.refused call) else pure s.calls

/-! ## Looking at the tree -/

def look (path : Path) : Committing DirectoryTree.Lookup := do
  let _ ← perform kernel (.inspect path)
  let s ← Effect.read
  pure (s.disk.tree.lookup kernel.behind path)

/-- `fs::symlink_metadata` of an entry that has to be there -/
def symlinkMetadata (path : Path) : Committing Metadata := do
  match ← look kernel path with
  | .found metadata => pure metadata
  | .missing => Effect.fail (.missing path)
  | .failed => Effect.fail (.notBelowDirectory path)

/-- `try_exists`, which looks behind symbolic links -/
def tryExists (path : Path) : Committing Bool :=
  if path.isEmpty then pure true
  else do
    match ← look kernel path with
    | .found metadata => match metadata.fileType with
      | .symlink _ => pure (kernel.resolves path)
      | _ => pure true
    | .missing => pure false
    | .failed => Effect.fail (.notBelowDirectory path)

/-- `verify_file_matches_entry` -/
def verifyFileMatchesEntry (filename : Path) (entry : DirEntryWithMeta) (description : String) :
    Committing Unit := do
  let _ ← perform kernel (.openFile filename)
  let s ← Effect.read
  match s.disk.tree.entry? filename with
  | none => Effect.fail (.missing filename)
  | some node => match node.metadata.fileType with
    | .file =>
      match Detail.verifyContents hashes entry (s.contents filename) with
      | .ok () => pure ()
      | .error cause => Effect.fail (.contents description cause)
    | .symlink _ => Effect.fail (.failed (.openFile filename))
    | _ => Effect.fail (.notRegular description entry.path)

/-- The link is read once its kind is known. -/
def verifySymlink (filename : Path) (metadata : Metadata) (entry : DirEntryWithMeta)
    (description : String) : Committing Unit :=
  match metadata.fileType with
  | .symlink target => do
    let _ ← perform kernel (.readLink filename)
    if some target ≠ entry.target then
      Effect.fail (.targetMismatch description entry.path entry.target target)
    else pure ()
  | _ => Effect.fail (.notSymlink description entry.path)

def checkMode (metadata : Metadata) (entry : DirEntryWithMeta) (description : String) :
    Except Error Unit :=
  if !entry.isSymlink && syncedMode metadata.mode != syncedMode entry.mode then
    .error (.modeMismatch description entry.path (syncedMode entry.mode) (syncedMode metadata.mode))
  else .ok ()

def checkMtime (metadata : Metadata) (entry : DirEntryWithMeta) (description : String) :
    Except Error Unit :=
  if !entry.isDir && metadata.mtime != entry.mtime then
    .error (.mtimeMismatch description entry.path entry.mtime metadata.mtime)
  else .ok ()

def checkDirectory (metadata : Metadata) (entry : DirEntryWithMeta) (description : String) :
    Except Error Unit :=
  if metadata.fileType ≠ .directory then .error (.notDirectory description entry.path) else .ok ()

/-- The kind of an entry, and what only its kind has. -/
def verifyKind (filename : Path) (metadata : Metadata) (entry : DirEntryWithMeta)
    (description : String) : Committing Unit :=
  if entry.isFile then verifyFileMatchesEntry kernel hashes filename entry description
  else if entry.isDir then Effect.check (checkDirectory metadata entry description)
  else verifySymlink kernel filename metadata entry description

def verifyCurrentMatchesEntry (filename : Path) (entry : DirEntryWithMeta)
    (description : String) : Committing Unit := do
  let metadata ← symlinkMetadata kernel filename
  verifyKind kernel hashes filename metadata entry description
  Effect.check (checkMode metadata entry description)
  Effect.check (checkMtime metadata entry description)

/-! ## Preflight -/

/-- `preflight_read_file`, which opens what a symbolic link leads to -/
def preflightReadFile (source : SourceRead) : Committing Unit := do
  let filename ← Effect.check (joinBase source.path)
  let _ ← perform kernel (.readSource filename)
  if ← tryExists kernel filename then pure () else Effect.fail (.missing filename)

/-- What the removal checks say about the tree. -/
def preflightRemovals (plan : CommitPlan) : Committing Unit := do
  let s ← Effect.read
  let report ← onDisk (Effect.check
    (removalBlockerReport plan.removalPolicy s.disk.tree plan.removedDestinationPaths))
  match report.blockers.find? fun blocker => !blocker.prunable with
  | some blocker => Effect.fail (.blocked blocker)
  | none => onDisk (Effect.check
    (preflightRemovedDirectories plan.removalPolicy s.disk.tree plan.removedDestinationPaths))

def preflightMetadataTarget (target : Path) : Committing Unit := do
  let targetPath ← Effect.check (joinBase target)
  let _ ← symlinkMetadata kernel targetPath
  pure ()

/-- The metadata of the base, or of a directory in it. -/
def parentMetadata (parent : Path) : Committing (FileType × UInt32) :=
  if parent.isEmpty then do
    let _ ← perform kernel (.inspect parent)
    pure (.directory, kernel.baseMode)
  else do
    let metadata ← symlinkMetadata kernel parent
    pure (metadata.fileType, metadata.mode)

/-- `preflight_existing_writable_directory` -/
def preflightExistingWritableDirectory (path : Path) : Committing Unit := do
  let (fileType, mode) ← parentMetadata kernel path
  if fileType ≠ .directory then Effect.fail (.parentNotDirectory path)
  else if !ownerWriteExecute mode then Effect.fail (.parentNotWritable path)
  else pure ()

/-- `nearest_existing_ancestor`, where a failed look ends the search -/
def nearestExisting : List Path → Committing (Option Path)
  | [] => pure none
  | current :: above => do
    if ← tryExists kernel current then pure (some current) else nearestExisting above

def preflightDirectoryWritableOrCreatable (path : Path) : Committing Unit := do
  if ← tryExists kernel path then preflightExistingWritableDirectory kernel path
  else match ← nearestExisting kernel path.ancestors with
    | some ancestor => preflightExistingWritableDirectory kernel ancestor
    | none => Effect.fail (.noParent path)

def preflightParentMutation (plan : CommitPlan) (mutation : ParentMutation) :
    Committing Unit := do
  let parent := mutation.path.dropLast
  if ← tryExists kernel parent then do
    let (fileType, mode) ← parentMetadata kernel parent
    if fileType ≠ .directory then Effect.fail (.parentNotDirectory parent)
    else if ownerWriteExecute mode then pure ()
    else if !mutation.allowWritableGuard ||
        plan.readonlyDirectoryMetadataChanges.contains parent then
      Effect.fail (.parentNotWritable parent)
    else pure ()
  else if plan.plannedDestinationDirectories.contains parent then pure ()
  else if mutation.allowMissingParent then preflightDirectoryWritableOrCreatable kernel parent
  else Effect.fail (.noParent parent)

def preflightCommitPlan (plan : CommitPlan) : Committing Unit := do
  plan.sourceReads.forM (preflightReadFile kernel)
  preflightRemovals plan
  plan.metadataTargets.forM (preflightMetadataTarget kernel)
  plan.parentMutations.forM (preflightParentMutation kernel plan)

/-! ## Validation -/

/-- `StagedOutputFingerprint::from_metadata` of what a call has found -/
def fingerprint (number : Nat) (prepared : Detail.PreparedOutput) : StagedOutputFingerprint :=
  { kernel.staged number prepared.output.finalPath with
    size := prepared.output.file.length.toUInt64 }

def reopenPrepared (prepared : Detail.PreparedOutput) : Committing StagedOutputFingerprint := do
  let number ← perform kernel (.reopenOutput prepared.output.finalPath)
  let found := fingerprint kernel number prepared
  if found.size ≠ prepared.finalEntry.size then
    Effect.fail (.contents "staged output"
      (.size prepared.finalEntry.path prepared.finalEntry.size found.size.toNat))
  else pure found

def verifyPreparedContents (prepared : Detail.PreparedOutput) :
    Committing StagedOutputFingerprint := do
  let before ← reopenPrepared kernel prepared
  let _ ← perform kernel (.locateOutput prepared.output.finalPath)
  let _ ← perform kernel (.verifyOutput prepared.output.finalPath)
  match Detail.verifyContents hashes prepared.finalEntry prepared.output.file with
  | .error cause => Effect.fail (.contents "staged output" cause)
  | .ok () => do
    let number ← perform kernel (.inspectOutput prepared.output.finalPath)
    let after := fingerprint kernel number prepared
    if before ≠ after then Effect.fail (.changedDuringValidation prepared.finalEntry.path)
    else do
      let _ ← perform kernel (.locateOutput prepared.output.finalPath)
      pure after

def verifyPreparedFingerprint (prepared : Detail.PreparedOutput)
    (expected : StagedOutputFingerprint) : Committing Unit := do
  let found ← reopenPrepared kernel prepared
  if found ≠ expected then Effect.fail (.changedAfterValidation prepared.finalEntry.path)
  else do
    let _ ← perform kernel (.locateOutput prepared.output.finalPath)
    pure ()

/-- An output that is left is what its entry says. The outputs are read by several
workers. -/
def validateOutput (index : Nat) : Committing (Option StagedOutputFingerprint) := do
  let s ← Effect.read
  match s.preparedOutputs index with
  | none => pure none
  | some prepared => do
    let found ← verifyPreparedContents kernel hashes prepared
    pure (some found)

def validatePreparedOutputs : List Nat → Committing (List (Option StagedOutputFingerprint))
  | [] => pure []
  | index :: rest => do
    let found ← validateOutput kernel hashes index
    let others ← validatePreparedOutputs rest
    pure (found :: others)

def validateTarget (action : Action) : Committing Unit :=
  match action.appliedChange with
  | none => pure ()
  | some change => do
    let path ← Effect.check (joinBase change.path)
    match change with
    | .added _ =>
      match ← look kernel path with
      | .found _ => Effect.fail (.appeared path)
      | .missing => pure ()
      | .failed => Effect.fail (.notBelowDirectory path)
    | .removed old | .modified old _ =>
      verifyCurrentMatchesEntry kernel hashes path old "staged commit target"

def validateCommitTargetsAndCapacity (actions : Actions) : Committing Unit := do
  actions.forM (validateTarget kernel hashes)
  let _ ← perform kernel .recheckSpace
  pure ()

def validateCommitFull (prepared : Prepared) :
    Committing (List (Option StagedOutputFingerprint)) := do
  preflightCommitPlan kernel prepared.plan
  let fingerprints ←
    validatePreparedOutputs kernel hashes (List.range prepared.actions.length)
  validateCommitTargetsAndCapacity kernel hashes prepared.actions
  pure fingerprints

def validateCommit (prepared : Prepared) : Committing Unit := do
  let _ ← validateCommitFull kernel hashes prepared
  pure ()

/-- The earlier receipt is void, and another generation begins. -/
def Prepared.nextGeneration (prepared : Prepared) : Except Error Prepared :=
  if prepared.validationGeneration.toNat + 1 < 2 ^ 64 then
    .ok { prepared with
      validationGeneration := prepared.validationGeneration + 1
      validationReceipt := none }
  else .error .generationExhausted

/-- The validation of both sides before a commit, which leaves a receipt. A side whose
validation fails has none. -/
def validateCommitReceipted (prepared : Prepared) : Committing Prepared := do
  let next ← Effect.check prepared.nextGeneration
  let fingerprints ← validateCommitFull kernel hashes next
  pure { next with
    validationReceipt := some ⟨next.validationGeneration, next.attemptId, next.actions.length,
      fingerprints⟩ }

def receiptIsStructurallyValid (prepared : Prepared)
    (outputs : Nat → Option Detail.PreparedOutput) (receipt : CommitValidationReceipt) : Bool :=
  receipt.generation == prepared.validationGeneration &&
    receipt.attemptId == prepared.attemptId &&
    receipt.outputSlots == prepared.actions.length &&
    receipt.fingerprints.length == prepared.actions.length &&
    ((List.range prepared.actions.length).zip receipt.fingerprints).all fun slot =>
      (outputs slot.1).isSome == slot.2.isSome

/-- An output whose slot of the receipt is filled is as it was. -/
def checkReceiptSlot (slot : Nat × Option StagedOutputFingerprint) : Committing Unit := do
  let s ← Effect.read
  match s.preparedOutputs slot.1, slot.2 with
  | some prepared, some expected => verifyPreparedFingerprint kernel prepared expected
  | _, _ => pure ()

def validateCommitFromReceipt (prepared : Prepared) (receipt : CommitValidationReceipt) :
    Committing Unit := do
  ((List.range prepared.actions.length).zip receipt.fingerprints).forM
    (checkReceiptSlot kernel)
  preflightCommitPlan kernel prepared.plan
  validateCommitTargetsAndCapacity kernel hashes prepared.actions

/-- The validation at the start of a commit. -/
def revalidate (prepared : Prepared) : Committing Unit := do
  let s ← Effect.read
  match prepared.validationReceipt with
  | some receipt =>
    if receiptIsStructurallyValid prepared s.preparedOutputs receipt then
      validateCommitFromReceipt kernel hashes prepared receipt
    else validateCommit kernel hashes prepared
  | none => validateCommit kernel hashes prepared

/-! ## Changing the tree -/

/-- `prepare_parent` of the ledger, which opens the directory that an entry is in -/
def openParent (path : Path) : Committing Unit := do
  let _ ← perform kernel (.openParent path)
  let s ← Effect.read
  if s.disk.tree.HasDirectory path.dropLast then pure ()
  else Effect.fail (.failed (.openParent path))

/-- Put a new entry into a directory. -/
def insertEntry (call : Call) (path : Path) (metadata : Metadata) : Committing Unit := do
  let s ← Effect.read
  match path.getLast? with
  | some (.normal name) =>
    if can : s.disk.tree.CanInsert path.dropLast name then
      Effect.write (s.withTree (s.disk.tree.insert path.dropLast name metadata can))
    else Effect.fail (.failed call)
  | _ => Effect.fail (.failed call)

/-- `unlinkat` of a file or link -/
def unlink (path : Path) : Committing Unit := do
  let _ ← perform kernel (.unlink path)
  let s ← Effect.read
  match s.disk.tree.entry? path with
  | some node =>
    if node.isDir then Effect.fail (.failed (.unlink path))
    else Effect.write (s.withTree (s.disk.tree.outside path))
  | none => Effect.fail (.failed (.unlink path))

/-- `unlinkat` of an empty directory -/
def removeDirectory (path : Path) : Committing Unit := do
  let _ ← perform kernel (.removeDirectory path)
  let s ← Effect.read
  match s.disk.tree.entry? path with
  | some node =>
    if node.isDir && (s.disk.tree.readDir path).isEmpty then
      Effect.write (s.withTree (s.disk.tree.outside path))
    else Effect.fail (.failed (.removeDirectory path))
  | none => Effect.fail (.failed (.removeDirectory path))

/-- Other metadata, of the same kind, for an entry that is there. -/
def changeMetadata (call : Call) (path : Path) (change : Metadata → Metadata)
    (kept : ∀ m, (change m).fileType = m.fileType) : Committing Unit := do
  let _ ← perform kernel call
  let s ← Effect.read
  match s.disk.tree.entry? path with
  | some _ => Effect.write (s.withTree (s.disk.tree.modify path change kept))
  | none => Effect.fail (.failed call)

def withMode (permissions : UInt32) (metadata : Metadata) : Metadata :=
  { metadata with mode := chmod metadata.mode permissions }

def withMtime (mtime : Int64) (metadata : Metadata) : Metadata := { metadata with mtime := mtime }

/-- The mode that only the owner has access with; the set-group-ID bit comes from above. -/
def privateMode (metadata : Metadata) : Metadata :=
  withMode (0o700 ||| metadata.mode &&& 0o2000) metadata

def createPrivateDirectoryStaged (path : Path) : Committing Unit := do
  openParent kernel path
  let number ← perform kernel (.createDirectory path)
  insertEntry (.createDirectory path) path { kernel.created number with fileType := .directory }
  changeMetadata kernel (.normalizeDirectory path) path privateMode fun _ => rfl

/-- The directories that are missing, from a path up to one that exists. -/
def missingDirectories : List Path → Committing (List Path)
  | [] => pure []
  | current :: above => do
    if ← tryExists kernel current then pure []
    else do
      let missing ← missingDirectories above
      pure (current :: missing)

def ensureParentDirectoryStaged (path : Path) : Committing Unit := do
  let missing ← missingDirectories kernel (Path.ancestors path.dropLast)
  missing.reverse.forM (createPrivateDirectoryStaged kernel)

def createSymlink (path target : Path) : Committing Unit := do
  openParent kernel path
  let number ← perform kernel (.createSymlink path)
  insertEntry (.createSymlink path) path
    { kernel.created number with fileType := .symlink target }

/-- The number of the inode at a path. -/
def inodeAt (call : Call) (path : Path) : Committing UInt64 := do
  let s ← Effect.read
  match s.disk.tree.entry? path with
  | some node => pure node.metadata.ino
  | none => Effect.fail (.failed call)

/-- The entry as it is on disk now. -/
def resultAt (call : Call) (path : Path) (entry : DirEntryWithMeta) :
    Committing DirEntryWithMeta := do
  let ino ← inodeAt call path
  pure (entry.setIno ino)

/-- `symlink_times_staged` changes a link only. -/
def symlinkTimes (path : Path) (entry : DirEntryWithMeta) : Committing DirEntryWithMeta := do
  openParent kernel path
  let s ← Effect.read
  match s.disk.tree.entry? path with
  | some node => match node.metadata.fileType with
    | .symlink _ => do
      changeMetadata kernel (.setSymlinkTimes path) path (withMtime entry.mtime) fun _ => rfl
      resultAt (.setSymlinkTimes path) path entry
    | _ => Effect.fail (.notSymlink "metadata target" path)
  | none => Effect.fail (.failed (.setSymlinkTimes path))

/-- `update_directory_meta_staged` and `update_meta` open what they change, set the
permissions and the time, and sync it. -/
def updateOpened (path : Path) (entry : DirEntryWithMeta) : Committing DirEntryWithMeta := do
  let _ ← perform kernel (.openMetadataTarget path)
  let s ← Effect.read
  match s.disk.tree.entry? path with
  | some node =>
    if node.isDir = entry.isDir then do
      changeMetadata kernel (.setPermissions path) path (withMode entry.mode) fun _ => rfl
      changeMetadata kernel (.setTimes path) path (withMtime entry.mtime) fun _ => rfl
      let _ ← perform kernel (.syncMetadata path)
      resultAt (.syncMetadata path) path entry
    else Effect.fail (.failed (.openMetadataTarget path))
  | none => Effect.fail (.failed (.openMetadataTarget path))

def updateMetaStaged (path : Path) (entry : DirEntryWithMeta) : Committing DirEntryWithMeta :=
  if entry.isSymlink then symlinkTimes kernel path entry else updateOpened kernel path entry

/-! ## Recording -/

def record (path : Path) (told : Marker.CommitRecord) : Committing Unit := do
  let _ ← perform kernel (.record path)
  update fun s => { s with records := s.records ++ [told] }

def recordStep (step : Marker.CommitStep) (path : Path) : Committing Unit :=
  record kernel path (.committedStep step path)

variable (actions : Actions)

def assignResult (index : Nat) (entry : DirEntryWithMeta) : Committing Unit := do
  let s ← Effect.read
  match assignLocalResult actions s.localResults index entry with
  | .ok results => Effect.write { s with localResults := results }
  | .error cause => Effect.fail (.assign cause)

/-- Bring the metadata of an entry up to date and keep the result. -/
def updateEntry (index : Nat) (path : Path) (entry : DirEntryWithMeta) : Committing Unit := do
  let result ← updateMetaStaged kernel path entry
  assignResult actions index result
  recordStep kernel .updateMetadata entry.path

/-! ## Publication -/

/-- The metadata of a staged file. -/
def stagedMetadata (dev : UInt64) (prepared : Detail.PreparedOutput) : Metadata where
  fileType := .file
  size := prepared.output.file.length.toUInt64
  mtime := prepared.finalEntry.mtime
  ino := prepared.finalEntry.ino
  mode := chmod 0o100000 prepared.finalEntry.mode
  dev := dev

/-- The staged file gets its name; a file or link of that name is replaced. -/
def placeEntry (call : Call) (path : Path) (metadata : Metadata) : Committing Unit := do
  let s ← Effect.read
  match s.disk.tree.entry? path with
  | some node =>
    if node.isDir then Effect.fail (.failed call)
    else do
      Effect.write (s.withTree (s.disk.tree.outside path))
      insertEntry call path metadata
  | none => insertEntry call path metadata

def place (call : Call) (prepared : Detail.PreparedOutput) : Committing Unit := do
  let path := prepared.output.finalPath
  let s ← Effect.read
  placeEntry call path (stagedMetadata s.disk.tree.dev prepared)
  update fun s => { s with contents := Function.update s.contents path prepared.output.file }

/-- The staged file is what its entry says, and its directory is there. -/
def preparePublication (prepared : Detail.PreparedOutput) : Committing Unit := do
  let path := prepared.output.finalPath
  let _ ← perform kernel (.verifyOutput path)
  match Detail.verifyContents hashes prepared.finalEntry prepared.output.file with
  | .error cause => Effect.fail (.contents "staged output" cause)
  | .ok () => do
    let _ ← perform kernel (.prepareOutput path)
    openParent kernel path

/-- What is done as soon as the staged file has its name. -/
def onCommit (index : Nat) (action : Action) (prepared : Detail.PreparedOutput) :
    Committing Unit := do
  record kernel prepared.finalEntry.path (.regularPublication action prepared.finalEntry)
  assignResult actions index prepared.finalEntry
  let _ ← perform kernel (.finishPublication prepared.output.finalPath)
  pure ()

def publishReplacing (index : Nat) (action : Action) (prepared : Detail.PreparedOutput)
    (expected : DirEntryWithMeta) : Committing Unit := do
  preparePublication kernel hashes prepared
  verifyCurrentMatchesEntry kernel hashes prepared.output.finalPath expected "rename target"
  let _ ← perform kernel (.rename prepared.output.finalPath)
  place (.rename prepared.output.finalPath) prepared
  onCommit kernel actions index action prepared

/-- The name must be free for a link. -/
def checkFree (description : String) (path : Path) : Committing Unit := do
  let s ← Effect.read
  if (s.disk.tree.entry? path).isSome then Effect.fail (.alreadyExists description path)
  else pure ()

def publishWithoutReplacing (index : Nat) (action : Action) (prepared : Detail.PreparedOutput)
    (description : String) : Committing Unit := do
  preparePublication kernel hashes prepared
  let _ ← perform kernel (.link prepared.output.finalPath)
  checkFree description prepared.output.finalPath
  place (.link prepared.output.finalPath) prepared
  onCommit kernel actions index action prepared

/-- `self.prepared_outputs[action_index].take()` -/
def takeOutput (index : Nat) : Committing Detail.PreparedOutput := do
  let s ← Effect.read
  Effect.write { s with preparedOutputs := Function.update s.preparedOutputs index none }
  match s.preparedOutputs index with
  | some prepared => pure prepared
  | none => Effect.fail (.missingOutput index)

def publishPreparedOutput (index : Nat) (action : Action) : Committing Unit := do
  let prepared ← takeOutput index
  ensureParentDirectoryStaged kernel prepared.output.finalPath
  match prepared.publication with
  | .replace expected => publishReplacing kernel hashes actions index action prepared expected
  | .noReplace description =>
    publishWithoutReplacing kernel hashes actions index action prepared description

/-! ## The forward pass -/

/-- A symbolic link, or a directory that only its owner can use for now. -/
def createEntry (index : Nat) (filename : Path) (entry : DirEntryWithMeta) : Committing Unit :=
  match entry.target with
  | some target => do
    createSymlink kernel filename target
    recordStep kernel .createSymlink entry.path
    updateEntry kernel actions index filename entry
  | none =>
    if entry.isDir then do
      createPrivateDirectoryStaged kernel filename
      recordStep kernel .createDir entry.path
    else Effect.fail (.missingFileDetail entry.path)

/-- A file or link makes place for a link or a directory. -/
def replaceEntry (index : Nat) (filename : Path) (removed : Marker.CommitStep)
    (old new : DirEntryWithMeta) : Committing Unit := do
  verifyCurrentMatchesEntry kernel hashes filename old "replace target"
  openParent kernel filename
  unlink kernel filename
  recordStep kernel removed old.path
  createEntry kernel actions index filename new

/-- One change of the forward pass that has no staged output. -/
def applyChange (index : Nat) : Change → Committing Unit
  | .removed e => do
    let filename ← Effect.check (joinBase e.path)
    if e.isDir then pure ()
    else do
      verifyCurrentMatchesEntry kernel hashes filename e "remove target"
      openParent kernel filename
      unlink kernel filename
      recordStep kernel .removeFile e.path
  | .added e => do
    let filename ← Effect.check (joinBase e.path)
    ensureParentDirectoryStaged kernel filename
    createEntry kernel actions index filename e
  | .modified e1 e2 => do
    let filename ← Effect.check (joinBase e2.path)
    if e1.isFile then
      if e2.isFile then
        if !e1.sameContents e2 then Effect.fail (.missingDiffDetail e2.path)
        else do
          verifyCurrentMatchesEntry kernel hashes filename e1 "metadata target"
          updateEntry kernel actions index filename e2
      else replaceEntry kernel hashes actions index filename .removeFile e1 e2
    else if e1.isSymlink then
      if e2.isFile then Effect.fail (.missingFileDetail e2.path)
      else replaceEntry kernel hashes actions index filename .removeSymlink e1 e2
    else if e2.isFile then Effect.fail .directoryToFile
    else pure ()

def applyActionWithoutDetail (index : Nat) (action : Action) : Committing Unit :=
  match action.appliedChange with
  | none => pure ()
  | some change => do
    applyChange kernel hashes actions index change
    if change.isDir then pure ()
    else record kernel action.path (.committedAction action)

def forwardStep (slot : Action × Nat) : Committing Unit := do
  let s ← Effect.read
  if (s.preparedOutputs slot.2).isSome then
    publishPreparedOutput kernel hashes actions slot.2 slot.1
  else applyActionWithoutDetail kernel hashes actions slot.2 slot.1

def forwardPass : Committing Unit := actions.zipIdx.forM (forwardStep kernel hashes actions)

/-! ## The second pass -/

/-- A directory goes once nothing is left in it that may not be pruned. -/
def removeDirectoryEntry (plan : CommitPlan) (dirname : Path) (entry : DirEntryWithMeta) :
    Committing Unit := do
  verifyCurrentMatchesEntry kernel hashes dirname entry "remove target"
  let s ← Effect.read
  onDisk (pruneIgnoredRemovalBlockers (kernel.pruning s.calls) plan.removalPolicy
    plan.removedDestinationPaths s.disk.tree.levels dirname)
  openParent kernel dirname
  let _ ← perform kernel (.retire dirname)
  removeDirectory kernel dirname
  recordStep kernel .removeDir entry.path

/-- A directory that stays one is as it was. -/
def verifyOldDirectory (dirname : Path) (old new : DirEntryWithMeta) : Committing Unit :=
  if old.isDir && new.isDir then
    verifyCurrentMatchesEntry kernel hashes dirname old "metadata target"
  else pure ()

def secondPassChange (plan : CommitPlan) (index : Nat) : Change → Committing Unit
  | .removed e => do
    let dirname ← Effect.check (joinBase e.path)
    removeDirectoryEntry kernel hashes plan dirname e
  | .added e => do
    let dirname ← Effect.check (joinBase e.path)
    updateEntry kernel actions index dirname e
  | .modified e1 e2 => do
    let dirname ← Effect.check (joinBase e2.path)
    if e1.isDir && !e2.isDir then Effect.fail .directoryToFile
    else do
      verifyOldDirectory kernel hashes dirname e1 e2
      updateEntry kernel actions index dirname e2

def secondPassStep (plan : CommitPlan) (slot : Action × Nat) : Committing Unit :=
  match slot.1.appliedChange with
  | none => pure ()
  | some change =>
    if change.isDir then do
      secondPassChange kernel hashes actions plan slot.2 change
      record kernel slot.1.path (.committedAction slot.1)
    else pure ()

def applyDirectorySecondPass (plan : CommitPlan) : Committing Unit :=
  actions.zipIdx.reverse.forM (secondPassStep kernel hashes actions plan)

end Steps

/-! ## The commit -/

section Run

variable (kernel : Kernel) (hashes : Detail.ContentHashes)

/-- A transition of the marker, when the apply has one. -/
def transition (prepared : Prepared) (phase : Marker.ApplyAttemptPhase) : Committing Unit :=
  if prepared.attempt then do
    let _ ← perform kernel (.transition phase)
    pure ()
  else pure ()

def mergeResults (prepared : Prepared) : Committing Entries := do
  let s ← Effect.read
  match mergeStagedManifest prepared.allOld prepared.actions s.localResults with
  | .ok entries => pure entries
  | .error cause => Effect.fail (.merge cause)

/-- The commit after its validation. -/
def carryOut (prepared : Prepared) : Committing Entries := do
  transition kernel prepared .committing
  forwardPass kernel hashes prepared.actions
  applyDirectorySecondPass kernel hashes prepared.actions prepared.plan
  let entries ← mergeResults prepared
  let _ ← perform kernel .finishStaging
  let _ ← perform kernel .syncRemaining
  let _ ← perform kernel .syncRecoveryRecords
  transition kernel prepared .committed
  pure entries

def commitProfiled (prepared : Prepared) : Committing Entries := do
  revalidate kernel hashes prepared
  carryOut kernel hashes prepared

end Run

end Duet.Commit

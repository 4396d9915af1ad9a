import Duet.Lib.Program
import Duet.State.Changes
import Duet.Sync.Manifest
import Duet.Sync.Marker
import Mathlib.Tactic.Simps.Basic

/-!
# A synchronized host

What one side keeps on disk between the steps of an apply: its files under state paths,
which are snapshots and recovery markers, the marker a caller has moved to quarantine, and
how far the target tree has been mutated. The operations are the calls that change any of
it; each of them may fail, before or after it took effect.
-/

namespace Duet

open Lib Marker

/-- The path of a state file: its directory and its file name. -/
structure StatePath where
  dir : Path
  fileName : String
deriving DecidableEq

/-- The path of the recovery marker that belongs to a state file. -/
def applyAttemptPath (statePath : StatePath) : StatePath :=
  { statePath with fileName := "." ++ statePath.fileName ++ ".duet-apply" }

/-- What both kinds of marker say about their attempt. -/
structure AttemptHeader where
  side : String
  base : Path
  state : StatePath
  actions : Actions
  attemptId : Option String
deriving DecidableEq

/-- The contents of a file under a state path. The records of a marker are the lines
that were appended to it. A torn marker has a line or a slot that was written in part: it
still starts as a staged marker does and no reader accepts it. `other` is any contents that
is no snapshot and no marker. -/
inductive HostFile where
  | snapshot (entries : Entries) (format : SnapshotFormat)
  | applyMarker (header : AttemptHeader) (stateSave : Bool) (records : List String)
  | stagedMarker (header : AttemptHeader) (attemptId : String) (phase : ApplyAttemptPhase)
      (records : List String)
  | tornMarker (attemptId : String)
  | other
deriving DecidableEq

/-- How far the mutation of the target tree has come: it is what the manifest of a wave
says, or a wave is mutating it. -/
inductive TargetTree where
  | settled (wave : Nat) (entries : Entries)
  | mutating (wave : Nat)
deriving DecidableEq

structure Host where
  files : StatePath → Option HostFile
  quarantined : List (StatePath × HostFile)
  tree : TargetTree
  /-- The wave that the host works on, and the waves it prepared and validated. -/
  wave : Nat
  prepared : List Nat
  validated : List Nat

namespace Host

@[simps]
def write (h : Host) (path : StatePath) (file : HostFile) : Host :=
  { h with files := Function.update h.files path (some file) }

@[simps]
def erase (h : Host) (path : StatePath) : Host :=
  { h with files := Function.update h.files path none }

/-- The file is moved to a name of its own. -/
@[simps]
def moveAside (h : Host) (path : StatePath) (file : HostFile) : Host :=
  { h with
    files := Function.update h.files path none
    quarantined := (path, file) :: h.quarantined }

@[simps]
def moveBack (h : Host) (path : StatePath) (file : HostFile) : Host :=
  { h with
    files := Function.update h.files path (some file)
    quarantined := h.quarantined.erase (path, file) }

@[simps]
def dropQuarantined (h : Host) (path : StatePath) (file : HostFile) : Host :=
  { h with quarantined := h.quarantined.erase (path, file) }

@[simps]
def notePrepared (h : Host) : Host := { h with prepared := h.wave :: h.prepared }

@[simps]
def noteValidated (h : Host) : Host := { h with validated := h.wave :: h.validated }

@[simps]
def beginMutation (h : Host) : Host := { h with tree := .mutating h.wave }

@[simps]
def settle (h : Host) (entries : Entries) : Host := { h with tree := .settled h.wave entries }

attribute [grind =] write_files erase_files moveAside_files moveBack_files
  dropQuarantined_files notePrepared_files noteValidated_files beginMutation_files
  settle_files Function.update_apply write_tree erase_tree moveAside_tree moveBack_tree
  dropQuarantined_tree notePrepared_tree noteValidated_tree beginMutation_tree settle_tree

end Host

/-! ## Operations -/

/-- The checks that only read: they succeed or report an error. -/
inductive HostCheck where
  | scanScope
  | validateActions (actions : Actions)
  | validateStrongActions (actions : Actions)
  | validateEntries (entries : Entries)
  | preflightStateSave (state : StatePath)
  | preflightApply (base : Path) (actions : Actions)
  | preflightReport (base : Path) (actions : Actions)
  | stagedMarkerContents (header : AttemptHeader)
  | finishPreparation
  | stagingCleanup
  | query

inductive HostOp where
  /-- `crate::full` -/
  | full (base : String)
  | scan (base : Path) (state : StatePath)
  | check (what : HostCheck)
  /-- the validation of the prepared outputs and of the commit targets -/
  | validateCommit
  | tryExists (path : StatePath)
  | readMarker (path : StatePath)
  /-- `create_new`, or the check that an existing file has the same contents -/
  | createMarker (path : StatePath) (file : HostFile)
  | setPhase (path : StatePath) (attemptId : String) (expected : List ApplyAttemptPhase)
      (next : ApplyAttemptPhase)
  | replaceMarker (path : StatePath) (file : HostFile)
  | removeFile (path : StatePath)
  | quarantine (path : StatePath)
  | restore (path : StatePath) (file : HostFile)
  | unlinkQuarantined (path : StatePath) (file : HostFile)
  | readQuarantined (path : StatePath) (file : HostFile)
  | syncParent (path : StatePath)
  /-- one frame written to the staging area, recorded in the marker -/
  | stageOutput (marker : Option StatePath)
  /-- one mutation of the target tree, recorded in the marker -/
  | mutate (marker : Option StatePath)
  /-- what the mutations left at the applied paths, one slot for each action -/
  | localResults (count : Nat)
  /-- the new manifest that an unstaged apply puts together on the way -/
  | appliedEntries
  /-- Nothing happens on disk: the mutations of the wave end here, and `entries` is the
  manifest that describes the target tree from now on. -/
  | settle (entries : Entries)
  | saveEntries (path : StatePath) (entries : Entries) (format : SnapshotFormat)

/-- What an operation answers when it succeeds. -/
abbrev HostOp.Value : HostOp → Type
  | .full _ => Path
  | .scan _ _ => State.ScanContext
  | .tryExists _ => Bool
  | .readMarker _ => HostFile
  | .quarantine _ => HostFile
  | .readQuarantined _ _ => HostFile
  | .localResults _ => List (Option DirEntryWithMeta)
  | .appliedEntries => Entries
  | _ => Unit

abbrev hostEffects : Effects where
  Op := HostOp
  Reply op := Except Report op.Value

/-- A file after record lines were appended to it. A torn line makes it unreadable. -/
inductive HostFile.Recorded : HostFile → HostFile → Prop where
  | apply (header : AttemptHeader) (stateSave : Bool) (records more : List String) :
      Recorded (.applyMarker header stateSave records)
        (.applyMarker header stateSave (records ++ more))
  | staged (header : AttemptHeader) (attemptId : String) (phase : ApplyAttemptPhase)
      (records more : List String) :
      Recorded (.stagedMarker header attemptId phase records)
        (.stagedMarker header attemptId phase (records ++ more))
  | tear (header : AttemptHeader) (attemptId : String) (phase : ApplyAttemptPhase)
      (records : List String) :
      Recorded (.stagedMarker header attemptId phase records) (.tornMarker attemptId)
  | torn (attemptId : String) : Recorded (.tornMarker attemptId) (.tornMarker attemptId)
  | applyTorn (header : AttemptHeader) (stateSave : Bool) (records : List String) :
      Recorded (.applyMarker header stateSave records) .other
  | snapshot (entries : Entries) (format : SnapshotFormat) :
      Recorded (.snapshot entries format) .other
  | other : Recorded .other .other

namespace Host

/-- Records were appended to the marker of an attempt, or it was left alone. -/
def Recorded (h : Host) (marker : Option StatePath) (h' : Host) : Prop :=
  h' = h ∨ ∃ path file file', marker = some path ∧ h.files path = some file ∧
    file.Recorded file' ∧ h' = h.write path file'

/-- A transition of the marker from an expected phase to the next one. -/
def Advances (h : Host) (path : StatePath) (attemptId : String)
    (expected : List ApplyAttemptPhase) (next : ApplyAttemptPhase) (h' : Host) : Prop :=
  ∃ header phase records, h.files path = some (.stagedMarker header attemptId phase records) ∧
    phase ∈ expected ∧ nextStagedPhase phase = some next ∧
    h' = h.write path (.stagedMarker header attemptId next records)

/-- The effect of a successful operation, which answers `value`. -/
def Succeeds : (op : HostOp) → Host → op.Value → Host → Prop
  | .tryExists path, h, found, h' => h' = h ∧ found = (h.files path).isSome
  | .readMarker path, h, file, h' => h' = h ∧ h.files path = some file
  | .validateCommit, h, _, h' => h' = h.noteValidated
  | .createMarker path file, h, _, h' =>
    (h.files path = none ∧ h' = h.write path file) ∨ (h.files path = some file ∧ h' = h)
  | .setPhase path attemptId expected next, h, _, h' =>
    ∃ moved, h.Advances path attemptId expected next moved ∧
      h' = if next = .prepared then moved.notePrepared else moved
  | .replaceMarker path file, h, _, h' => h' = h.write path file
  | .removeFile path, h, _, h' => h' = h.erase path
  | .quarantine path, h, file, h' =>
    h.files path = some file ∧ h' = h.moveAside path file
  | .restore path file, h, _, h' =>
    (path, file) ∈ h.quarantined ∧ h.files path = none ∧ h' = h.moveBack path file
  | .unlinkQuarantined path file, h, _, h' =>
    (path, file) ∈ h.quarantined ∧ h' = h.dropQuarantined path file
  | .readQuarantined path file, h, current, h' =>
    (path, file) ∈ h.quarantined ∧ current = file ∧ h' = h
  | .stageOutput marker, h, _, h' => h.Recorded marker h'
  | .mutate marker, h, _, h' => h.beginMutation.Recorded marker h'
  | .localResults count, h, results, h' => h' = h ∧ results.length = count
  | .settle entries, h, _, h' => h' = h.settle entries
  | .saveEntries path entries format, h, _, h' => h' = h.write path (.snapshot entries format)
  | .full _, h, _, h' | .scan _ _, h, _, h' | .check _, h, _, h' | .syncParent _, h, _, h'
  | .appliedEntries, h, _, h' => h' = h

/-- The effect of an operation that reports an error: none, or all or part of what it
would have done. -/
def Fails : HostOp → Host → Host → Prop
  | .createMarker path file, h, h' =>
    h' = h ∨ h.files path = none ∧ (h' = h.write path file ∨ h' = h.write path .other)
  | .setPhase path attemptId expected next, h, h' =>
    h' = h ∨ ∃ moved, h.Advances path attemptId expected next moved ∧
      (h' = moved ∨ h' = h.write path (.tornMarker attemptId))
  | .replaceMarker path file, h, h' => h' = h ∨ h' = h.write path file
  | .removeFile path, h, h' => h' = h ∨ h' = h.erase path
  | .quarantine path, h, h' =>
    h' = h ∨ ∃ file, h.files path = some file ∧ h' = h.moveAside path file
  | .restore path file, h, h' =>
    h' = h ∨ ((path, file) ∈ h.quarantined ∧ h.files path = none ∧ h' = h.moveBack path file)
  | .stageOutput marker, h, h' => h.Recorded marker h'
  | .mutate marker, h, h' => h' = h ∨ h.beginMutation.Recorded marker h'
  | .saveEntries path entries format, h, h' =>
    h' = h ∨ h' = h.write path (.snapshot entries format)
  | _, h, h' => h' = h

/-- One operation on a host. -/
def exec (op : HostOp) (h : Host) (reply : Except Report op.Value) (h' : Host) : Prop :=
  match reply with
  | .ok value => h.Succeeds op value h'
  | .error _ => h.Fails op h'

end Host

end Duet

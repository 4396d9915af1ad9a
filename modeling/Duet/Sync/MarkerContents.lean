import Duet.Sync.MarkerRecord
import Mathlib.Data.List.Destutter

/-!
# The contents of a fresh marker

What a staged attempt writes into its marker when it begins, and what it appends while it
prepares: the identity of its stage and of every file it creates there. A file name or a path
that is not looked into is the list of its bytes.
-/

namespace Duet

open Lib

/-- `sort` and then `dedup`. -/
def sortDedup {α κ : Type} [LinearOrder κ] [DecidableEq α] (key : α → κ) (list : List α) : List α :=
  (list.mergeSort fun a b => key a ≤ key b).destutter (· ≠ ·)

theorem sortDedup_of_sorted {α κ : Type} [LinearOrder κ] [DecidableEq α] {key : α → κ}
    {list : List α} (sorted : list.Pairwise fun a b => key a ≤ key b)
    (distinct : list.IsChain (· ≠ ·)) : sortDedup key list = list := by
  unfold sortDedup
  rw [List.mergeSort_of_pairwise (sorted.imp decide_eq_true), List.destutter_of_isChain _ _ distinct]

namespace Marker

open ApplyAttemptPhase (preparing prepared)

/-! ## Printed values -/

/-- The byte `'\r'`. -/
def carriageReturn : UInt8 := 13

/-- A number as `{}` prints it. -/
def decimal (n : Nat) : Bytes := (Nat.toDigits 10 n).map fun digit => digit.toNat.toUInt8

/-- `path.display()` or `name.to_string_lossy()` -/
def displayOs (name : Bytes) : Bytes := utf8 (fromUtf8Lossy name)

/-- The negation of `text.contains(['\n', '\r'])`. -/
def isSingleLine (text : Bytes) : Bool := !(text.contains newline || text.contains carriageReturn)

/-! ## The operations of an attempt -/

def unstagedChangeOperation : Change → Option Bytes
  | .added entry => if entry.isFile then some (ascii "metadata") else some (entryOperation (ascii "add") entry)
  | .removed entry => some (entryOperation (ascii "remove") entry)
  | .modified old new =>
    if old.isFile && new.isFile && !old.sameContents new then some (ascii "metadata")
    else if old.isFile == new.isFile && old.isDir == new.isDir && old.isSymlink == new.isSymlink then
      some (changeOperation (.modified old new))
    else some (ascii "replace")

/-- Texts are ordered by their bytes. -/
def textKey (text : Bytes) : List Nat := text.map UInt8.toNat

def applyAttemptOperations (actions : List Action) : List Bytes :=
  sortDedup textKey (actions.map fun action =>
    changeOperation action.change ++ ascii " " ++ action.change.path.display)

def applyAttemptUnstagedOperations (actions : List Action) : List Bytes :=
  sortDedup textKey (actions.filterMap fun action =>
    (unstagedChangeOperation action.change).map fun operation =>
      operation ++ ascii " " ++ action.path.display)

/-! ## The contents -/

def sideStr : Side → Bytes
  | .local => ascii "local"
  | .remote => ascii "remote"

/-- The first fifty items under a head, and a line that says when there are more. -/
def truncatedLines (head truncated : Bytes) (items : List Bytes) : List Bytes :=
  (items.take 50).map (head ++ ·) ++ if items.length > 50 then [truncated] else []

/-- The lines of `apply_attempt_contents` behind the first one, without their newlines. -/
def applyAttemptLines (side : Side) (statePath base : Bytes) (phase : ApplyAttemptPhase)
    (actions : List Action) (attemptId : Option Bytes) : List Bytes :=
  let paths := sortDedup id (actions.map Action.path)
  let operations := applyAttemptOperations actions
  let unstagedOperations := applyAttemptUnstagedOperations actions
  [ascii "side: " ++ sideStr side, ascii "base: " ++ displayOs base,
    ascii "state: " ++ displayOs statePath, ascii "phase: " ++ phase.asStr,
    ascii "path-count: " ++ decimal paths.length,
    ascii "operation-count: " ++ decimal operations.length,
    ascii "unstaged-operation-count: " ++ decimal unstagedOperations.length] ++
  (attemptId.toList.map (ascii "attempt-id: " ++ ·)) ++
  truncatedLines (ascii "path: ") (ascii "paths-truncated: true") (paths.map Path.display) ++
  truncatedLines (ascii "operation: ") (ascii "operations-truncated: true") operations ++
  truncatedLines (ascii "unstaged-operation: ") (ascii "unstaged-operations-truncated: true")
    unstagedOperations

def applyAttemptContents (side : Side) (statePath base : Bytes) (phase : ApplyAttemptPhase)
    (actions : List Action) (attemptId : Option Bytes) : Bytes :=
  ascii "duet-apply-attempt-v1\n" ++
    unlines newline (applyAttemptLines side statePath base phase actions attemptId)

/-- `state_path.file_name()`: the last component of a path, when it is a name. -/
def fileName (path : Bytes) : Option Bytes :=
  (((path.splitOn (47 : UInt8)).filter fun name => name ≠ [] ∧ name ≠ ascii ".").getLast?).filter
    (· ≠ ascii "..")

/-- The name of the marker that `apply_attempt_path` puts beside a state file. -/
def applyAttemptName (statePath : Bytes) : Except String Bytes :=
  match fileName statePath with
  | none => .error "state file has no file name for apply recovery marker"
  | some name => .ok (ascii "." ++ displayOs name ++ ascii ".duet-apply")

/-- The five slots of a fresh marker. -/
def pendingLines : Bytes :=
  v3Phases.zipIdx.flatMap fun (phase, sequence) => phaseSlotV3PendingLine sequence phase

section Start

variable (blake2b : Bytes → Digest)

/-- The checks of `start_staged_apply_attempt`, and the contents it then writes. -/
def startContents (side : Side) (statePath base : Bytes) (actions : List Action)
    (attemptId : Bytes) : Except String Bytes :=
  if attemptId = [] ∨ ¬ isSingleLine attemptId then
    .error "staged apply attempt ID must be non-empty and single-line"
  else if ¬ isSingleLine base then
    .error "staged apply base path must be single-line"
  else if ¬ isSingleLine statePath then
    .error "staged apply state path must be single-line"
  else if actions.any fun action => ¬ isSingleLine action.path.bytes then
    .error "staged apply action paths must be single-line"
  else do
    let _ ← applyAttemptName statePath
    let contents := applyAttemptContents side statePath base preparing actions (some attemptId)
    let contents := ascii "duet-apply-attempt-v2-journal-v3" ++
      contents.drop (ascii "duet-apply-attempt-v1").length
    let contents := contents ++ pendingLines
    let _ ← parseStagedApplyAttempt blake2b contents
    .ok contents

end Start

/-! ## The marker of an attempt that prepares -/

/-- `PreparingMarker`: the marker file of an attempt, kept open while its stage is filled. -/
structure PreparingMarker where
  file : MarkerFile
  attemptId : Bytes
deriving DecidableEq

namespace PreparingMarker

section Parsed

variable (blake2b : Bytes → Digest)

/-- `PreparingMarker::open` on a marker that nobody else touches. -/
def «open» (file : MarkerFile) (attemptId : Bytes) : Except String PreparingMarker := do
  if file.contents.length > maxStagedMarkerBytes then
    .error "preparing marker exceeds the size limit"
  else
    let contents ← readToString file.contents
    let marker ← parseStagedApplyAttempt blake2b contents
    if marker.version = .v3 ∧ file.mode &&& 0o7777 ≠ 0o600 then
      .error "V3 preparing marker mode is not 0600"
    else if marker.attemptId ≠ attemptId ∨ marker.phase ≠ preparing then
      .error "staged apply marker does not match active preparing attempt"
    else
      .ok ⟨file, attemptId⟩

def readValidatedContents (self : PreparingMarker) : Except String Bytes := do
  let contents ← readToString self.file.contents
  let marker ← parseStagedApplyAttempt blake2b contents
  if marker.attemptId ≠ self.attemptId ∨ marker.phase ≠ preparing then
    .error "staged apply marker does not match active preparing attempt"
  else
    .ok contents

/-- `sync`, which reads the marker before it is synced and again after that. -/
def sync (self : PreparingMarker) : Except String Unit := do
  let _ ← self.readValidatedContents blake2b
  let _ ← self.readValidatedContents blake2b
  .ok ()

end Parsed

/-- The lines of `text.lines()`. -/
def textLines (text : Bytes) : List Bytes :=
  (splitInclusive newline text).map fun line =>
    match line.getLast? with
    | some last =>
      if last = newline then
        if line.dropLast.getLast? = some carriageReturn then line.dropLast.dropLast else line.dropLast
      else line
    | none => line

def append (self : PreparingMarker) (line : Bytes) : Except String PreparingMarker :=
  if (textLines line).any (fun line => line.length > maxStagedMarkerLineBytes) ∨
      self.file.contents.length + line.length > maxStagedMarkerBytes then
    .error "preparing marker append exceeds marker limits"
  else
    .ok { self with file := { self.file with contents := self.file.contents ++ line } }

end PreparingMarker

/-- A name or a path with the identity of what it names, as the marker records it. -/
def identityText (name : Bytes) (identity : FileIdentity) : Bytes :=
  displayOs name ++ ascii " " ++ decimal identity.dev.toNat ++ ascii " " ++ decimal identity.ino.toNat

/-- The stage of an attempt: the directory it was created in, and its name there. -/
structure StageRecord where
  parent : Bytes
  parentIdentity : FileIdentity
  name : Bytes
  identity : FileIdentity
deriving DecidableEq, Repr

def stageLines (stage : StageRecord) : List Bytes :=
  [ascii "stage-parent: " ++ identityText stage.parent stage.parentIdentity,
    ascii "stage: " ++ identityText stage.name stage.identity]

def stageEntryLine (entry : Bytes × FileIdentity) : Bytes :=
  ascii "stage-entry: " ++ identityText entry.1 entry.2

namespace PreparingMarker

def recordStage (blake2b : Bytes → Digest) (self : PreparingMarker) (stage : StageRecord) :
    Except String PreparingMarker := do
  let appended ← self.append (unlines newline (stageLines stage))
  appended.sync blake2b
  .ok appended

def recordStageEntry (self : PreparingMarker) (entry : Bytes × FileIdentity) :
    Except String PreparingMarker :=
  self.append (stageEntryLine entry ++ [newline])

end PreparingMarker

end Marker

end Duet

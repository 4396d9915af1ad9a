import Duet.SignatureWindow
import Duet.Sync.DetailProducer

/-!
# Signatures and details in one piece

The side that receives files sends the signatures of its old ones, in the order of its actions. The
side that sends them takes one signature for each diff, whether it streams its details or, as an old
peer does, collects them.
-/

namespace Duet.Detail

open Lib Rustsync

/-! ## Tuning -/

/-- `MAX_DETAIL_CHUNK_BYTES`, `MAX_DETAIL_BATCH_FRAMES` and `MAX_DETAIL_BATCH_PAYLOAD_BYTES` -/
def maxDetailChunkBytes : Nat := 64 * 1024 * 1024
def maxDetailBatchFrames : Nat := 4096
def maxDetailBatchPayloadBytes : Nat := 64 * 1024 * 1024

/-- The sizes that the two sides agree on. Each is a `u32`. -/
structure SyncTuning where
  signatureWindowMin : Nat
  signatureWindowMax : Nat
  detailChunkBytes : Nat
  detailBatchFrames : Nat
  detailBatchPayloadBytes : Nat

namespace SyncTuning

def normalized (tuning : SyncTuning) : SyncTuning where
  signatureWindowMin := clamp tuning.signatureWindowMin 1 maxSignatureWindow
  signatureWindowMax := clamp tuning.signatureWindowMax
    (clamp tuning.signatureWindowMin 1 maxSignatureWindow) maxSignatureWindow
  detailChunkBytes := clamp tuning.detailChunkBytes 1 maxDetailChunkBytes
  detailBatchFrames := clamp tuning.detailBatchFrames 1 maxDetailBatchFrames
  detailBatchPayloadBytes :=
    clamp tuning.detailBatchPayloadBytes 1 maxDetailBatchPayloadBytes

def signatureWindowConfig (tuning : SyncTuning) : SignatureWindowConfig where
  min := UInt64.ofNat tuning.normalized.signatureWindowMin
  max := UInt64.ofNat tuning.normalized.signatureWindowMax

end SyncTuning

/-! ## Signatures -/

/-- Why there are no signatures. -/
inductive SignatureError where
  | invalidPath (cause : ValidationError)
  | unreadable (path : Path)
  /-- The root of the size stopped the program. -/
  | panicked

section Signatures

variable (hashing : Hashing) (opens : Path → Option (Reader UInt8)) (checks : Bool)
  (config : SignatureWindowConfig)

/-- `safe_join` and `open` -/
def openSigned (path : Path) : Except SignatureError (Reader UInt8) :=
  match validateRelativePath path with
  | .error cause => .error (.invalidPath cause)
  | .ok () =>
    match opens path with
    | some file => .ok file
    | none => .error (.unreadable path)

/-- The signature of one old file. A window is never empty. -/
def signFile (old : DirEntryWithMeta) : Except SignatureError (Path × Signature) := do
  let file ← openSigned opens old.path
  match config.windowForSize checks old.size with
  | none => .error .panicked
  | some window =>
    if pos : 0 < window.toNat then .ok (old.path, signature hashing file window.toNat pos)
    else .error .panicked

theorem signFile_eq {old : DirEntryWithMeta} {file : Reader UInt8} {window : UInt64}
    (opened : openSigned opens old.path = .ok file)
    (found : config.windowForSize checks old.size = some window) (pos : 0 < window.toNat) :
    signFile hashing opens checks config old =
      .ok (old.path, signature hashing file window.toNat pos) := by
  unfold signFile
  rw [opened]
  simp only [bind, Except.bind, found]
  exact dif_pos pos

/-- The old file that an action needs a signature of. -/
def signedEntry : Action → Option DirEntryWithMeta
  | .local (.modified e1 e2) | .resolvedLocal _ (.modified e1 e2) =>
    if e1.isFile && e2.isFile && !e1.sameContents e2 then some e1 else none
  | _ => none

/-- `get_signatures_with_config` -/
def getSignaturesWithConfig (actions : Actions) :
    Except SignatureError (List (Path × Signature)) :=
  match validateActions actions with
  | .error cause => .error (.invalidPath cause)
  | .ok () => (actions.filterMap signedEntry).mapM (signFile hashing opens checks config)

end Signatures

/-! ## Details in one piece -/

inductive ChangeDetails where
  | contents (bytes : List UInt8)
  | diff (delta : Delta)

def nextSignature : List (Path × Signature) → Path →
    Except ProducerError (Signature × List (Path × Signature))
  | [], path => .error (.missingSignature path)
  | (signaturePath, signature) :: later, path =>
    if signaturePath ≠ path then .error (.signaturePathMismatch path signaturePath)
    else match validateSignatureWindow signature.window with
      | .ok () => .ok (signature, later)
      | .error message => .error (.invalidWindow signaturePath message)

section Details

variable (files : SourceFiles)

/-- `fs::read` below the base -/
def readContents (path : Path) : Except ProducerError (List UInt8) := do
  let path ← sourcePath path
  let opened ← openSource files path
  pure opened.1.rest

def compareWith (signature : Signature) (file : Reader UInt8) : Except ProducerError Delta :=
  match compare files.hashing signature file (List.replicate signature.window 0) with
  | .ok delta => .ok delta
  | .error message => .error (.diffFailed message)

/-- The detail of a change that is sent, and the signatures that are left. -/
def changeDetail (signatures : List (Path × Signature)) :
    Change → Except ProducerError (Option ChangeDetails × List (Path × Signature))
  | .removed _ => .ok (none, signatures)
  | .added e =>
    if e.isFile then do
      let bytes ← readContents files e.path
      pure (some (.contents bytes), signatures)
    else .ok (none, signatures)
  | .modified e1 e2 =>
    if e1.isFile && e2.isFile && !e1.sameContents e2 then do
      let path ← sourcePath e1.path
      let opened ← openSource files path
      let next ← nextSignature signatures e1.path
      let delta ← compareWith files next.1 opened.1
      pure (some (.diff delta), next.2)
    else if !e1.isFile && e2.isFile then do
      let bytes ← readContents files e2.path
      pure (some (.contents bytes), signatures)
    else .ok (none, signatures)

/-- The loop over the actions. At its end no signature may be left. -/
def detailedChangesFrom : List (Path × Signature) → Actions →
    Except ProducerError (List ChangeDetails)
  | [], [] => .ok []
  | extra :: _, [] => .error (.unexpectedSignature extra.1)
  | signatures, action :: later =>
    match action with
    | .remote change | .resolvedRemote _ change => do
      let detail ← changeDetail files signatures change
      let details ← detailedChangesFrom detail.2 later
      pure (detail.1.toList ++ details)
    | _ => detailedChangesFrom signatures later

def getDetailedChanges (actions : Actions) (signatures : List (Path × Signature)) :
    Except ProducerError (List ChangeDetails) :=
  match validateActions actions with
  | .error cause => .error (.invalidPath cause)
  | .ok () => detailedChangesFrom files signatures actions

end Details

/-! ## Windows of a signature -/

/-- The windows that the tuning allows are accepted. -/
theorem SyncTuning.windowMax_le (tuning : SyncTuning) :
    tuning.signatureWindowConfig.normalized.max.toNat ≤ maxSignatureWindow := by
  have small : maxSignatureWindow < 2 ^ 64 := by decide
  have one : 1 ≤ maxSignatureWindow := by decide
  have least : tuning.normalized.signatureWindowMin ≤ maxSignatureWindow :=
    (clamp_bounds tuning.signatureWindowMin one).2
  have most : tuning.normalized.signatureWindowMax ≤ maxSignatureWindow :=
    (clamp_bounds tuning.signatureWindowMax least).2
  have word : (1 : UInt64).toNat = 1 := rfl
  simp only [signatureWindowConfig, SignatureWindowConfig.normalized, toNat_max,
    UInt64.toNat_ofNat', word]
  rw [Nat.mod_eq_of_lt (by omega), Nat.mod_eq_of_lt (by omega)]
  omega

end Duet.Detail

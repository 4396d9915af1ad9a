import Duet.Sync.DetailApplier

/-!
# Routing of detail frames

A batch of frames goes to the other side in parts: a large piece of a file travels on its
own, as a chunk, and the frames between such pieces go together.
-/

namespace Duet.Detail

open Lib

/-- `FILE_BYTE_CHUNK_RPC_THRESHOLD` -/
def fileByteChunkRpcThreshold : Nat := 8 * 1024 * 1024

inductive ApplyDetailBatch where
  | frames (frames : List DetailFrame)
  | fileByteChunk (chunk : FileByteChunk)
deriving DecidableEq

def shouldApplyFileBytesAsChunk (len : Nat) : Bool := decide (fileByteChunkRpcThreshold ≤ len)

/-- The frames that are not sent yet, if any. -/
def flushBuffered (buffered : List DetailFrame) : List ApplyDetailBatch :=
  if buffered.isEmpty then [] else [.frames buffered]

/-- The loop of the routing, with the frames buffered so far. -/
def routeFrames : List DetailFrame → List DetailFrame → List ApplyDetailBatch
  | [], buffered => flushBuffered buffered
  | frame :: frames, buffered =>
    match frame.payload with
    | .fileBytes bytes =>
      if shouldApplyFileBytesAsChunk bytes.length then
        flushBuffered buffered ++ .fileByteChunk ⟨frame.actionIndex, bytes⟩ :: routeFrames frames []
      else routeFrames frames (buffered ++ [frame])
    | _ => routeFrames frames (buffered ++ [frame])

def routeFileByteFrames (frames : List DetailFrame) : List ApplyDetailBatch :=
  routeFrames frames []

/-- The frames that a part stands for. -/
def ApplyDetailBatch.toFrames : ApplyDetailBatch → List DetailFrame
  | .frames sent => sent
  | .fileByteChunk chunk => [⟨chunk.actionIndex, .fileBytes chunk.bytes⟩]

/-- What the other side does with a part. -/
def applyDetailBatch (files : OutputFiles) (hashes : ContentHashes) :
    ApplyDetailBatch → Applying Unit
  | .frames sent => sent.forM (applyFrame files hashes)
  | .fileByteChunk chunk => applyFileByteChunk files hashes chunk

/-- What it does with a batch of frames. -/
def applyDetailFrames (files : OutputFiles) (hashes : ContentHashes) (frames : List DetailFrame) :
    Applying Unit :=
  (routeFileByteFrames frames).forM (applyDetailBatch files hashes)

section Routing

variable {files : OutputFiles} {hashes : ContentHashes}

theorem toFrames_flushBuffered (buffered : List DetailFrame) :
    (flushBuffered buffered).flatMap ApplyDetailBatch.toFrames = buffered := by
  unfold flushBuffered
  cases buffered with
  | nil => rfl
  | cons frame frames => simp [ApplyDetailBatch.toFrames]

theorem toFrames_routeFrames (frames buffered : List DetailFrame) :
    (routeFrames frames buffered).flatMap ApplyDetailBatch.toFrames = buffered ++ frames := by
  induction frames generalizing buffered with
  | nil => rw [routeFrames, toFrames_flushBuffered, List.append_nil]
  | cons frame frames ih =>
    have later : (routeFrames frames (buffered ++ [frame])).flatMap ApplyDetailBatch.toFrames =
        buffered ++ frame :: frames := by
      rw [ih, List.append_assoc]
      rfl
    unfold routeFrames
    split
    · next bytes payload =>
      split
      · rw [List.flatMap_append, toFrames_flushBuffered, List.flatMap_cons, ih]
        have whole : frame = ⟨frame.actionIndex, .fileBytes bytes⟩ := by rw [← payload]
        rw [ApplyDetailBatch.toFrames, ← whole]
        rfl
      · exact later
    · exact later

/-- Routing neither loses nor reorders frames. -/
theorem toFrames_routeFileByteFrames (frames : List DetailFrame) :
    (routeFileByteFrames frames).flatMap ApplyDetailBatch.toFrames = frames :=
  toFrames_routeFrames frames []

/-- A part is applied like its frames. -/
theorem applyDetailBatch_eq (part : ApplyDetailBatch) :
    applyDetailBatch files hashes part = part.toFrames.forM (applyFrame files hashes) := by
  cases part with
  | frames sent => rfl
  | fileByteChunk chunk =>
    change applyFrame files hashes _ = (applyFrame files hashes _ >>= fun _ => pure ())
    exact (bind_pure _).symm

/-- A routed batch is applied like its frames one by one. -/
theorem applyDetailFrames_eq (frames : List DetailFrame) :
    applyDetailFrames files hashes frames = frames.forM (applyFrame files hashes) := by
  unfold applyDetailFrames
  have parts : applyDetailBatch files hashes = fun part : ApplyDetailBatch =>
      part.toFrames.forM (applyFrame files hashes) := funext applyDetailBatch_eq
  rw [parts, ← Effect.forM_flatMap, toFrames_routeFileByteFrames]

end Routing

end Duet.Detail

import Duet.Orchestrator.DetailRouting
import Duet.Sync.DetailProducer

/-!
# Batches do not change the stream

However many frames and bytes a batch may hold, and however its frames are routed, the
other side applies the frames that the producer yields one by one.
-/

namespace Duet.Detail

open Lib

/-- `next_frames` again and again, with limits that may change. -/
def manyFrames (files : SourceFiles) : List (Nat × Nat) → Producing (List (List DetailFrame))
  | [] => pure []
  | limits :: later => do
    let first ← nextFrames files limits
    let rest ← manyFrames files later
    pure (first :: rest)

/-- What a batch may hold: at least one frame, and more only within both limits. -/
def Holds (limits : Nat × Nat) (frames : List DetailFrame) : Prop :=
  frames.length ≤ max limits.1 1 ∧
    (frames.length ≤ 1 ∨
      Source.total (fun frame => detailPayloadBytes frame.payload) frames ≤ max limits.2 1)

theorem manyFrames_eq (files : SourceFiles) (limits : List (Nat × Nat)) :
    manyFrames files limits =
      (frameSource files).batches (fun frame => detailPayloadBytes frame.payload)
        (limits.map fun limit => (max limit.1 1, max limit.2 1)) := by
  induction limits with
  | nil => rfl
  | cons limit limits ih =>
    unfold manyFrames
    rw [ih]
    rfl

/-- The batches are the frames that the producer yields one by one, in a row, up to the
frames that are still to come; a batch is empty only when none is, and that is reached.
Each batch keeps to its limits. Routed, the batches stand for the same frames, and they
are applied as these are one by one. An error of the producer is the one it ends with. -/
theorem batches_keepStream (files : SourceFiles) (producer : DetailProducer)
    (frames : List DetailFrame) (ending : Option ProducerError)
    (delivers : (frameSource files).Delivers producer frames ending) (limits : List (Nat × Nat)) :
    (manyFrames files limits).Ends
      (fun batches next => ∃ rest, frames = batches.flatten ++ rest ∧
        (frameSource files).Delivers next rest ending ∧
        List.Forall₂ Holds limits batches ∧
        ([] ∈ batches → rest = [] ∧ ending = none) ∧
        (frames.length < limits.length → rest = [] ∧ ending = none) ∧
        (batches.flatMap routeFileByteFrames).flatMap ApplyDetailBatch.toFrames =
          batches.flatten ∧
        ∀ outputs hashes, (batches.forM (applyDetailFrames outputs hashes)) =
          batches.flatten.forM (applyFrame outputs hashes))
      (fun cause _ => ending = some cause) producer := by
  rw [manyFrames_eq]
  have room : ∀ limit ∈ limits.map fun limit => (max limit.1 1, max limit.2 1), 0 < limit.1 := by
    intro limit mem
    obtain ⟨given, -, rfl⟩ := List.mem_map.mp mem
    exact Nat.lt_of_lt_of_le Nat.one_pos (Nat.le_max_right _ _)
  refine (delivers.ends_batches _ room).mono ?_ fun _ _ => id
  rintro batches next ⟨rest, eq, delivers', within, atEnd, enough⟩
  have holds : List.Forall₂ (fun limit frames => Source.Within
      (fun frame : DetailFrame => detailPayloadBytes frame.payload)
      (max limit.1 1, max limit.2 1) frames) limits batches := List.forall₂_map_left_iff.mp within
  refine ⟨rest, eq, delivers', holds, atEnd, ?_, ?_, ?_⟩
  · rwa [List.length_map] at enough
  · rw [List.flatMap_assoc]
    simp only [toFrames_routeFileByteFrames]
    exact List.flatMap_id'
  · intro outputs hashes
    have parts : applyDetailFrames outputs hashes = fun batch =>
        batch.forM (applyFrame outputs hashes) := funext applyDetailFrames_eq
    rw [parts, ← List.flatMap_id, Effect.forM_flatMap]
    rfl

/-- Files of which each holds five bytes. No diff is computed on them. -/
def fiveBytes : SourceFiles where
  hashing := ⟨Unit, fun _ => (), fun _ _ _ => (), fun _ _ => (), fun _ => 0,
    fun _ => Vector.replicate 32 0⟩
  opens _ := some (⟨[1, 2, 3, 4, 5], []⟩, 5)
  readFails _ _ := false

/-- A file that is sent in pieces of at most two bytes, next to one that is removed. -/
def sendFive : DetailProducer :=
  .new [.remote (.added ⟨[.normal [97]], 5, 0, 7, 0o644, none, false, 1, none⟩),
    .remote (.removed ⟨[.normal [98]], 5, 0, 8, 0o644, none, false, 1, none⟩)] [] 2

/-- The producer that reads the file, of which these bytes are left. -/
def DetailProducer.reading (producer : DetailProducer) (bytes : List UInt8) : DetailProducer :=
  { producer with
    actionIndex := 1
    state := some (.file 0 [.normal [97]] ⟨bytes, []⟩ bytes.length) }

/-- With room for four frames of three bytes in all, the second piece overflows the first
batch and is put back. It begins the next one. -/
theorem batches_keepStream_putBack :
    (∃ next, nextFrames fiveBytes (4, 3) sendFive =
        (.ok [⟨0, .fileBegin⟩, ⟨0, .fileBytes [1, 2]⟩], next) ∧
      next.pending = [⟨0, .fileBytes [3, 4]⟩]) ∧
    (manyFrames fiveBytes [(4, 3), (4, 3), (4, 3), (0, 0), (1, 5), (3, 0)]).Ends
      (fun batches _ => batches.flatten = [⟨0, .fileBegin⟩, ⟨0, .fileBytes [1, 2]⟩,
          ⟨0, .fileBytes [3, 4]⟩, ⟨0, .fileBytes [5]⟩, ⟨0, .fileEnd⟩] ∧
        List.Forall₂ Holds [(4, 3), (4, 3), (4, 3), (0, 0), (1, 5), (3, 0)] batches)
      (fun _ _ => False) sendFive := by
  refine ⟨⟨_, rfl, rfl⟩, ?_⟩
  have delivers : (frameSource fiveBytes).Delivers sendFive
      [⟨0, .fileBegin⟩, ⟨0, .fileBytes [1, 2]⟩, ⟨0, .fileBytes [3, 4]⟩, ⟨0, .fileBytes [5]⟩,
        ⟨0, .fileEnd⟩] none :=
    .yields (t := sendFive.reading [1, 2, 3, 4, 5]) rfl <|
      .yields (t := sendFive.reading [3, 4, 5]) rfl <|
      .yields (t := sendFive.reading [5]) rfl <|
      .yields (t := sendFive.reading []) rfl <|
      .yields (t := { sendFive with actionIndex := 1 }) rfl <|
      .exhausted (t := { sendFive with actionIndex := 2 }) rfl
  -- what is left follows from the stream alone, without a run of the producer
  generalize sendFive = producer at delivers ⊢
  refine (batches_keepStream fiveBytes producer _ none delivers
    [(4, 3), (4, 3), (4, 3), (0, 0), (1, 5), (3, 0)]).mono ?_ ?_
  · rintro batches next ⟨rest, eq, -, holds, -, enough, -⟩
    obtain ⟨nothing, -⟩ := enough (by decide)
    rw [nothing, List.append_nil] at eq
    exact ⟨eq.symm, holds⟩
  · intro _ _ ending
    cases ending

end Duet.Detail

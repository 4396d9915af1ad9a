import Duet.Sync.DiffStream

/-!
# The delta round trip

A file that is sent as a delta arrives as it was: the frames against the signature of the
old file turn the old file into the new one, whether the output starts as a clone or
empty and however the readers split their reads. The only assumption on the hashes is
that BLAKE2b tells the blocks of the old file from the pieces of the new one.
-/

namespace Duet

open Lib Rustsync

variable {H : Hashing} {old new : List UInt8} {window : Nat}

/-- The frames that are sent for a new file, if the window is one that the stream
accepts. -/
theorem streamDiffFrames_spec (pos : 0 < window) (accepted : window ≤ maxSignatureWindow)
    (distinct : NoCollision H old new window) (planOld planNew : List Nat)
    (actionIndex : UInt32) (maxChunkBytes : Nat) :
    ∃ ops,
      streamDiffFrames H ⟨new, planNew⟩ actionIndex (signature H ⟨old, planOld⟩ window pos)
          maxChunkBytes =
        .ok ((coalesce window none ops).map (DetailFrame.mk actionIndex)) ∧
      decode old window ops = new ∧ ∀ op ∈ ops, op.Bounded old (max maxChunkBytes 1) := by
  have blockLen : (List.replicate window (0 : UInt8)).length =
      (signature H ⟨old, planOld⟩ window pos).window := List.length_replicate
  obtain ⟨ops, compared, bytes, bounded⟩ :=
    compareStream_spec (sound_signature pos planOld) distinct pos blockLen planNew maxChunkBytes
  refine ⟨ops, ?_, bytes, bounded⟩
  have valid : validateSignatureWindow (signature H ⟨old, planOld⟩ window pos).window = .ok () :=
    if_neg (by simp only [signature]; omega)
  have run : compareStream H (signature H ⟨old, planOld⟩ window pos) ⟨new, planNew⟩
      (List.replicate (signature H ⟨old, planOld⟩ window pos).window 0) maxChunkBytes = .ok ops :=
    compared
  rw [streamDiffFrames, valid]
  change Except.bind (compareStream H _ _ (List.replicate _ 0) _) _ = _
  rw [run]
  rfl

/-- The delta transfer round trip. The stream refuses windows above its limit; below it,
its frames end with the end of the diff, their literals are at most `maxChunkBytes` long,
their copies start inside the old file, and applying them leaves exactly the new file and
feeds exactly it to the verifier. Without streaming every window restores the new file. -/
theorem delta_roundTrip (H : Hashing) (old new : List UInt8) {window maxChunkBytes : Nat}
    (pos : 0 < window) (chunkPos : 0 < maxChunkBytes) (distinct : NoCollision H old new window)
    (planOld planNew : List Nat) (actionIndex : UInt32) :
    let sig := signature H ⟨old, planOld⟩ window pos
    let stream := streamDiffFrames H ⟨new, planNew⟩ actionIndex sig maxChunkBytes
    (window > maxSignatureWindow → ∃ message, stream = .error message) ∧
      (window ≤ maxSignatureWindow → ∃ frames, stream = .ok frames ∧
        frames.getLast? = some ⟨actionIndex, .diffEnd⟩ ∧
        (∀ frame ∈ frames, frame.payload.Diff old window maxChunkBytes) ∧
        ∀ (cloneBacked : Bool) (plan : List Nat), ∃ st,
          (frames.map DetailFrame.payload).foldlM applyDiffFrame (.begin old cloneBacked plan) =
            .ok st ∧
          st.output = new ∧ st.verifier.fed = new) ∧
      ∀ (block : List UInt8) (plan : List Nat), block.length = window →
        ∃ delta, compare H sig ⟨new, planNew⟩ block = .ok delta ∧
          restoreSeek old plan window delta = .ok new := by
  intro sig stream
  refine ⟨?_, ?_, ?_⟩
  · intro large
    have refused : validateSignatureWindow sig.window =
        .error s!"invalid signature window {window}, expected 1..={maxSignatureWindow}" :=
      if_pos (.inr large)
    exact ⟨_, by simp only [stream, streamDiffFrames, refused]; rfl⟩
  · intro accepted
    obtain ⟨ops, sent, bytes, bounded⟩ :=
      streamDiffFrames_spec pos accepted distinct planOld planNew actionIndex maxChunkBytes
    rw [max_eq_left chunkPos] at bounded
    refine ⟨_, sent, ?_, ?_, ?_⟩
    · obtain ⟨body, eq, -⟩ := coalesce_eq_append_end window none ops
      simp [eq]
    · intro frame mem
      obtain ⟨payload, payloadMem, rfl⟩ := List.mem_map.mp mem
      have nothing : ∀ payload ∈ flushCopy none, payload.Diff old window maxChunkBytes := by
        simp [flushCopy]
      exact coalesce_bounded nothing bounded payload payloadMem
    · intro cloneBacked plan
      obtain ⟨st, runs, output, fed⟩ := foldlM_coalesce old cloneBacked plan window ops
      refine ⟨st, ?_, output.trans bytes, fed.trans bytes⟩
      simpa [List.map_map, Function.comp_def] using runs
  · intro block plan blockLen
    exact restoreSeek_compare (sound_signature pos planOld) distinct pos blockLen planNew plan

/-- Adler-32 as a rolling hash, next to a digest that pads up to 31 bytes and appends
their number. -/
def paddedHashing : Hashing where
  Rolling := Nat × Nat
  fromBuffer bytes :=
    bytes.foldl (fun h byte => ((h.1 + byte.toNat) % 65521, (h.2 + h.1 + byte.toNat) % 65521))
      (1, 0)
  remove h size byte :=
    ((h.1 + 65521 - byte.toNat) % 65521,
      (h.2 + 65520 + (65521 - size * byte.toNat % 65521)) % 65521)
  update h byte := ((h.1 + byte.toNat) % 65521, (h.2 + h.1 + byte.toNat) % 65521)
  hash h := UInt32.ofNat (h.2 * 65536 + h.1)
  blake2b bytes := Vector.ofFn fun i : Fin 32 =>
    if i.val = 31 then UInt8.ofNat bytes.length else bytes.getD i.val 0

/-- The padded digest tells short byte strings apart. -/
theorem paddedHashing_injective {x y : List UInt8} (shortX : x.length ≤ 31)
    (shortY : y.length ≤ 31) (same : paddedHashing.blake2b x = paddedHashing.blake2b y) :
    x = y := by
  have at_ : ∀ i (inside : i < 32), (paddedHashing.blake2b x)[i] = (paddedHashing.blake2b y)[i] :=
    fun i inside => by rw [same]
  have lengths : x.length = y.length := by
    have last := at_ 31 (by omega)
    simp only [paddedHashing, Vector.getElem_ofFn, if_true] at last
    have := congrArg UInt8.toNat last
    simp only [UInt8.toNat_ofNat'] at this
    omega
  refine List.ext_getElem lengths fun i inX inY => ?_
  have here := at_ i (by omega)
  have notLast : i ≠ 31 := by omega
  simpa [paddedHashing, notLast, inX, inY] using here

/-- A byte inserted before the short last block of the old file. -/
theorem delta_roundTrip_shortTail :
    let old : List UInt8 := [1, 2, 3, 4, 5, 6]
    let new : List UInt8 := [1, 2, 3, 4, 9, 5, 6]
    NoCollision paddedHashing old new 4 ∧ ∃ frames,
      streamDiffFrames paddedHashing ⟨new, [1, 2]⟩ 7
        (signature paddedHashing ⟨old, [3]⟩ 4 (by decide)) 2 = .ok frames ∧
      ∃ st, (frames.map DetailFrame.payload).foldlM applyDiffFrame (.begin old true [1]) = .ok st ∧
        st.output = new := by
  intro old new
  have distinct : NoCollision paddedHashing old new 4 := by
    intro i _ _ piece _ short same
    refine paddedHashing_injective ?_ (by omega) same
    exact (List.length_take_le _ _).trans (by decide)
  refine ⟨distinct, ?_⟩
  have windowPos : 0 < 4 := by decide
  have chunkPos : 0 < 2 := by decide
  obtain ⟨-, streams, -⟩ :=
    delta_roundTrip paddedHashing old new windowPos chunkPos distinct [3] [1, 2] 7
  obtain ⟨frames, sent, -, -, applies⟩ := streams (by decide)
  obtain ⟨st, runs, output, -⟩ := applies true [1]
  exact ⟨frames, sent, st, runs, output⟩

end Duet

import Duet.Lib.Reader
import Mathlib.Data.List.GetD
import Mathlib.Data.List.Infix
import Mathlib.Logic.Function.Basic

/-!
# The rolling delta

`signature` indexes the blocks of an old file by a rolling hash and a BLAKE2b digest.
`compareStream` slides a window over a new file, reports the blocks of the old file that
it finds, and sends the bytes in between as literals. `restoreSeek` rebuilds the new
file from the old one and the reported blocks.

The window is a ring in a fixed buffer. At the end of the file it shrinks instead of
sliding, so that the short last block of the old file can still be found.
-/

namespace Duet.Rustsync

open Lib

/-- A BLAKE2b digest of 32 bytes. -/
abbrev Blake2b := Vector UInt8 32

/-- The two hash functions, which come from other packages. Nothing is assumed of the
rolling one. -/
structure Hashing where
  Rolling : Type
  fromBuffer : List UInt8 → Rolling
  remove : Rolling → Nat → UInt8 → Rolling
  update : Rolling → UInt8 → Rolling
  hash : Rolling → UInt32
  blake2b : List UInt8 → Blake2b

abbrev Chunks := UInt32 → Option (Blake2b → Option Nat)

structure Signature where
  window : Nat
  chunks : Chunks

/-- Enter a block at offset `i`, in the place of an equal earlier one. -/
def insertChunk (chunks : Chunks) (hash : UInt32) (digest : Blake2b) (i : Nat) : Chunks :=
  Function.update chunks hash
    (some (Function.update ((chunks hash).getD fun _ => none) digest (some i)))

/-- The block loop of `signature`, from offset `i` on. -/
def signatureLoop (H : Hashing) (window : Nat) (pos : 0 < window) (i : Nat) (chunks : Chunks)
    (r : Reader UInt8) : Chunks :=
  let read := r.fill window
  let chunks := insertChunk chunks (H.hash (H.fromBuffer read.1)) (H.blake2b read.1) i
  if read.2.1 then chunks
  else signatureLoop H window pos (i + read.1.length) chunks read.2.2
termination_by r.rest.length
decreasing_by
  obtain ⟨-, rest, atEnd⟩ := Reader.fill_spec window r
  have notShort : ¬ r.rest.length < window := by rw [← atEnd]; assumption
  rw [rest, List.length_drop]
  omega

/-- The signature of a file; `window` is the length of the caller's buffer. -/
def signature (H : Hashing) (r : Reader UInt8) (window : Nat) (pos : 0 < window) : Signature :=
  ⟨window, signatureLoop H window pos 0 (fun _ => none) r⟩

inductive DeltaOp where
  | fromSource (offset : Nat)
  | literal (bytes : List UInt8)
deriving DecidableEq

inductive Block where
  | fromSource (offset : Nat)
  | literal (bytes : List UInt8)
deriving DecidableEq

structure Delta where
  blocks : List Block
  window : Nat
deriving DecidableEq

/-- The state of a comparison, with the caller's buffer as the ring. -/
structure State where
  block : List UInt8
  blockOldest : Nat
  blockLen : Nat
  pending : List UInt8

namespace State

def new (block : List UInt8) : State := ⟨block, 0, 1, []⟩

/-- The bytes that `matching_index` hashes. -/
def windowBytes (st : State) (window : Nat) : List UInt8 :=
  if st.blockOldest + st.blockLen > window then
    st.block.drop st.blockOldest ++ st.block.take ((st.blockOldest + st.blockLen) % window)
  else
    (st.block.drop st.blockOldest).take st.blockLen

/-- Emit the pending literal if there is one. -/
def flush (st : State) : List DeltaOp × State :=
  if st.pending.isEmpty then ([], st)
  else ([.literal st.pending], { st with pending := [] })

/-- Make a byte pending, and emit the literal once it is long enough. -/
def push (st : State) (byte : UInt8) (maxLiteralBytes : Nat) : List DeltaOp × State :=
  let st := { st with pending := st.pending ++ [byte] }
  if maxLiteralBytes ≤ st.pending.length then
    ([.literal st.pending], { st with pending := [] })
  else ([], st)

@[simp] theorem push_snd_block (st : State) (byte : UInt8) (n : Nat) :
    (st.push byte n).2.block = st.block := by
  dsimp only [push]
  split <;> rfl

@[simp] theorem push_snd_blockLen (st : State) (byte : UInt8) (n : Nat) :
    (st.push byte n).2.blockLen = st.blockLen := by
  dsimp only [push]
  split <;> rfl

@[simp] theorem flush_snd_block (st : State) : st.flush.2.block = st.block := by
  unfold flush
  split <;> rfl

@[simp] theorem flush_snd_blockLen (st : State) : st.flush.2.blockLen = st.blockLen := by
  unfold flush
  split <;> rfl

@[simp] theorem flush_snd_pending (st : State) : st.flush.2.pending = [] := by
  unfold flush
  split
  · next empty => exact List.isEmpty_iff.mp empty
  · rfl

end State

def matchingIndex (H : Hashing) (sig : Signature) (st : State) (hash : H.Rolling) : Option Nat :=
  (sig.chunks (H.hash hash)).bind fun chunk => chunk (H.blake2b (st.windowBytes sig.window))

/-- The inner loop of `compare_stream`: slide or shrink the window until it is found in
the signature or the file ends. Here and in the source the byte at `blockOldest` exists,
since the buffer is as long as the window. -/
def slide (H : Hashing) (sig : Signature) (maxLiteralBytes : Nat) (st : State)
    (hash : H.Rolling) (r : Reader UInt8) : List DeltaOp × State × Reader UInt8 :=
  match matchingIndex H sig st hash with
  | some index => (st.flush.1 ++ [.fromSource index], st.flush.2, r)
  | none =>
    let oldest := st.block.getD st.blockOldest 0
    let hash := H.remove hash st.blockLen oldest
    match read : r.read 1 with
    | (byte :: _, r') =>
      let slid := { st with block := st.block.set st.blockOldest byte }
      let pushed := slid.push oldest maxLiteralBytes
      let next := slide H sig maxLiteralBytes
        { pushed.2 with blockOldest := (st.blockOldest + 1) % sig.window }
        (H.update hash byte) r'
      (pushed.1 ++ next.1, next.2)
    | ([], r') =>
      if 0 < st.blockLen then
        let pushed := { st with blockLen := st.blockLen - 1 }.push oldest maxLiteralBytes
        let next := slide H sig maxLiteralBytes
          { pushed.2 with blockOldest := (st.blockOldest + 1) % sig.window } hash r'
        (pushed.1 ++ next.1, next.2)
      else ([], st, r')
termination_by r.rest.length + st.blockLen
decreasing_by
  · have split := Reader.length_read_rest (r := r) (n := 1)
    simp only [read, List.length_cons, State.push_snd_blockLen] at split ⊢
    omega
  · have split := Reader.length_read_rest (r := r) (n := 1)
    simp only [read, List.length_nil, State.push_snd_blockLen] at split ⊢
    omega

/-- A run of the inner loop neither extends the window nor gives bytes back. -/
theorem slide_le (H : Hashing) (sig : Signature) (maxLiteralBytes : Nat) (st : State)
    (hash : H.Rolling) (r : Reader UInt8) :
    (slide H sig maxLiteralBytes st hash r).2.1.blockLen ≤ st.blockLen ∧
      (slide H sig maxLiteralBytes st hash r).2.2.rest.length ≤ r.rest.length := by
  fun_induction slide H sig maxLiteralBytes st hash r with
  | case1 st hash r index found => simp
  | case2 st hash r notFound oldest hash' byte got r' read slid pushed next ih =>
    have split := Reader.length_read_rest (r := r) (n := 1)
    simp only [read, List.length_cons] at split
    have sameLen : pushed.2.blockLen = st.blockLen := State.push_snd_blockLen _ _ _
    exact ⟨Nat.le_trans ih.1 (Nat.le_of_eq sameLen), Nat.le_trans ih.2 (by omega)⟩
  | case3 st hash r notFound oldest hash' r' read nonempty pushed next ih =>
    have split := Reader.length_read_rest (r := r) (n := 1)
    simp only [read, List.length_nil] at split
    have sameLen : pushed.2.blockLen = st.blockLen - 1 := State.push_snd_blockLen _ _ _
    exact ⟨Nat.le_trans ih.1 (by dsimp only; omega), Nat.le_trans ih.2 (by omega)⟩
  | case4 st hash r notFound r' read empty =>
    have split := Reader.length_read_rest (r := r) (n := 1)
    simp only [read, List.length_nil] at split
    exact ⟨Nat.le_refl _, by dsimp only; omega⟩

/-- The outer loop of `compare_stream`: fill the ring, slide, and flush. The source tests
the window length before a round; it is 1 before the first. -/
def compareLoop (H : Hashing) (sig : Signature) (maxLiteralBytes : Nat) (st : State)
    (r : Reader UInt8) : List DeltaOp :=
  let read := r.fill sig.window
  let filled : State :=
    { st with
      block := read.1 ++ st.block.drop read.1.length
      blockOldest := 0
      blockLen := read.1.length }
  let run := slide H sig maxLiteralBytes filled (H.fromBuffer read.1) read.2.2
  let flushed := run.2.1.flush
  if 0 < run.2.1.blockLen then
    run.1 ++ flushed.1 ++ compareLoop H sig maxLiteralBytes flushed.2 run.2.2
  else run.1 ++ flushed.1
termination_by r.rest.length
decreasing_by
  obtain ⟨got, rest, -⟩ := Reader.fill_spec sig.window r
  have le : run.2.1.blockLen ≤ read.1.length ∧ run.2.2.rest.length ≤ read.2.2.rest.length :=
    slide_le H sig maxLiteralBytes filled (H.fromBuffer read.1) read.2.2
  have shrinks : read.2.2.rest.length + read.1.length ≤ r.rest.length := by
    simp only [read, got, rest, List.length_drop, List.length_take]
    omega
  change run.2.2.rest.length < r.rest.length
  omega

/-- Compare a signature with a new file. `block` is the caller's buffer. -/
def compareStream (H : Hashing) (sig : Signature) (r : Reader UInt8) (block : List UInt8)
    (maxLiteralBytes : Nat) : Except String (List DeltaOp) :=
  if sig.window = 0 then .error "signature window must be non-zero"
  else if block.length ≠ sig.window then
    .error s!"signature window {sig.window} does not match buffer length {block.length}"
  else .ok (compareLoop H sig (max maxLiteralBytes 1) (.new block) r)

def Block.ofOp : DeltaOp → Block
  | .fromSource offset => .fromSource offset
  | .literal bytes => .literal bytes

/-- `usize::MAX` -/
def usizeMax : Nat := 0xFFFFFFFFFFFFFFFF

def compare (H : Hashing) (sig : Signature) (r : Reader UInt8) (block : List UInt8) :
    Except String Delta := do
  let ops ← compareStream H sig r block usizeMax
  pure ⟨ops.map Block.ofOp, sig.window⟩

/-- The block loop of `restore_seek`, reading the old file `source`. -/
def restoreBlocks (source : List UInt8) (window : Nat) : List Block → Reader UInt8 → List UInt8
  | [], _ => []
  | .fromSource i :: blocks, r =>
    let read := (r.seek source i).fill window
    read.1 ++ restoreBlocks source window blocks read.2.2
  | .literal bytes :: blocks, r => bytes ++ restoreBlocks source window blocks r

/-- Rebuild the new file; `bufLen` is the length of the caller's buffer and `plan`
splits the reads of the old file. -/
def restoreSeek (source : List UInt8) (plan : List Nat) (bufLen : Nat) (delta : Delta) :
    Except String (List UInt8) :=
  if delta.window = 0 then .error "delta window must be non-zero"
  else if bufLen < delta.window then
    .error s!"delta window {delta.window} exceeds buffer length {bufLen}"
  else .ok (restoreBlocks source delta.window delta.blocks ⟨source, plan⟩)

/-! ## What operations stand for -/

/-- The new file that a list of operations describes, given the old file. -/
def decode (old : List UInt8) (window : Nat) : List DeltaOp → List UInt8
  | [] => []
  | .fromSource i :: ops => (old.drop i).take window ++ decode old window ops
  | .literal bytes :: ops => bytes ++ decode old window ops

@[simp] theorem decode_append (old : List UInt8) (window : Nat) (ops ops' : List DeltaOp) :
    decode old window (ops ++ ops') = decode old window ops ++ decode old window ops' := by
  induction ops with
  | nil => rfl
  | cons op ops ih => cases op <;> simp [decode, ih]

/-- A copied block starts inside the old file, and a literal is short. -/
def DeltaOp.Bounded (old : List UInt8) (maxLiteralBytes : Nat) : DeltaOp → Prop
  | .fromSource i => i ≤ old.length
  | .literal bytes => bytes.length ≤ maxLiteralBytes

/-- Every block that a signature knows starts at a multiple of the window and has the
digest under which it is entered. -/
def Sound (H : Hashing) (old : List UInt8) (window : Nat) (chunks : Chunks) : Prop :=
  ∀ hash digest i, (chunks hash).bind (fun chunk => chunk digest) = some i →
    i ≤ old.length ∧ window ∣ i ∧ H.blake2b ((old.drop i).take window) = digest

/-- No block of the old file has the digest of a different piece of the new one. -/
def NoCollision (H : Hashing) (old new : List UInt8) (window : Nat) : Prop :=
  ∀ i, i ≤ old.length → window ∣ i → ∀ piece, piece <:+: new → piece.length ≤ window →
    H.blake2b ((old.drop i).take window) = H.blake2b piece → (old.drop i).take window = piece

/-! ## The signature -/

theorem Sound.insertChunk {H : Hashing} {old : List UInt8} {window i : Nat} {chunks : Chunks}
    {hash : UInt32} (h : Sound H old window chunks) (inside : i ≤ old.length)
    (multiple : window ∣ i) :
    Sound H old window
      (insertChunk chunks hash (H.blake2b ((old.drop i).take window)) i) := by
  intro hash' digest' i' found
  unfold Rustsync.insertChunk at found
  by_cases sameHash : hash' = hash
  · subst sameHash
    rw [Function.update_self, Option.bind_some] at found
    by_cases sameDigest : digest' = H.blake2b ((old.drop i).take window)
    · subst sameDigest
      rw [Function.update_self] at found
      cases found
      exact ⟨inside, multiple, rfl⟩
    · rw [Function.update_of_ne sameDigest] at found
      refine h hash' digest' i' ?_
      cases known : chunks hash' with
      | none => rw [known] at found; cases found
      | some chunk => rw [known] at found; exact found
  · rw [Function.update_of_ne sameHash] at found
    exact h hash' digest' i' found

/-- The signature of a file is sound for it, however its reads are split. -/
theorem sound_signatureLoop {H : Hashing} {old : List UInt8} {window : Nat} (pos : 0 < window)
    {i : Nat} {chunks : Chunks} {r : Reader UInt8} (h : Sound H old window chunks)
    (inside : i ≤ old.length) (multiple : window ∣ i) (rest : r.rest = old.drop i) :
    Sound H old window (signatureLoop H window pos i chunks r) := by
  fun_induction signatureLoop H window pos i chunks r with
  | case1 i chunks r read chunks' atEnd =>
    obtain ⟨got, -, -⟩ := Reader.fill_spec window r
    rw [rest] at got
    simp only [chunks', read, got]
    exact h.insertChunk inside multiple
  | case2 i chunks r read chunks' notEnd ih =>
    obtain ⟨got, left, atEnd⟩ := Reader.fill_spec window r
    have full : window ≤ r.rest.length := by
      by_contra short
      exact notEnd (atEnd.mpr (by omega))
    have gotLen : read.1.length = window := by
      simp only [read, got, List.length_take]
      omega
    rw [rest] at got left
    rw [rest, List.length_drop] at full
    refine ih ?_ (by omega) ?_ ?_
    · simp only [chunks', read, got]
      exact h.insertChunk inside multiple
    · rw [gotLen]
      exact Nat.dvd_add multiple (Nat.dvd_refl window)
    · rw [gotLen, left, List.drop_drop]

theorem sound_signature {H : Hashing} {old : List UInt8} {window : Nat} (pos : 0 < window)
    (plan : List Nat) :
    Sound H old window (signature H ⟨old, plan⟩ window pos).chunks :=
  sound_signatureLoop pos (fun _ _ _ found => by cases found) (Nat.zero_le _)
    (Nat.dvd_zero window) rfl

/-! ## The ring -/

namespace State

/-- The bytes of the ring, the oldest first. -/
def ringBytes (st : State) : List UInt8 :=
  st.block.drop st.blockOldest ++ st.block.take st.blockOldest

/-- The ring of a window of at most the given length. -/
structure Ring (window : Nat) (st : State) : Prop where
  block : st.block.length = window
  oldest : st.blockOldest < window
  len : st.blockLen ≤ window

variable {st : State} {window : Nat}

theorem length_ringBytes (st : State) : st.ringBytes.length = st.block.length := by
  simp only [ringBytes, List.length_append, List.length_drop, List.length_take]
  omega

/-- What is hashed is the front of the ring, also where it wraps around. -/
theorem Ring.windowBytes_eq (h : st.Ring window) :
    st.windowBytes window = st.ringBytes.take st.blockLen := by
  obtain ⟨block, oldest, len⟩ := h
  unfold windowBytes ringBytes
  rw [List.take_append, List.length_drop, block]
  split
  · next wraps =>
    have wrapped : (st.blockOldest + st.blockLen) % window =
        st.blockLen - (window - st.blockOldest) := by
      rw [Nat.mod_eq_sub_mod (by omega), Nat.mod_eq_of_lt (by omega)]
      omega
    rw [wrapped, List.take_of_length_le (l := st.block.drop st.blockOldest)
      (by rw [List.length_drop]; omega), List.take_take]
    congr 2
    omega
  · next straight =>
    have nothing : st.blockLen - (window - st.blockOldest) = 0 := by omega
    rw [nothing, List.take_zero, List.append_nil]

/-- The oldest byte leads the ring. -/
theorem Ring.ringBytes_eq_cons (h : st.Ring window) :
    st.ringBytes = st.block.getD st.blockOldest 0 :: st.ringBytes.tail := by
  have inside : st.blockOldest < st.block.length := h.block ▸ h.oldest
  have head : st.block.drop st.blockOldest =
      st.block.getD st.blockOldest 0 :: st.block.drop (st.blockOldest + 1) := by
    rw [List.drop_eq_getElem_cons inside, List.getD_eq_getElem _ _ inside]
  unfold ringBytes
  rw [head]
  rfl

/-- Overwriting the oldest byte and moving on puts the new byte at the end. -/
theorem Ring.ringBytes_advance (h : st.Ring window) (byte : UInt8) (len : Nat)
    (pending : List UInt8) :
    ringBytes ⟨st.block.set st.blockOldest byte, (st.blockOldest + 1) % window, len, pending⟩ =
      st.ringBytes.tail ++ [byte] := by
  obtain ⟨block, oldest, -⟩ := h
  have inside : st.blockOldest < st.block.length := block ▸ oldest
  have set : st.block.set st.blockOldest byte =
      st.block.take st.blockOldest ++ byte :: st.block.drop (st.blockOldest + 1) :=
    List.set_eq_take_append_cons_drop .. |>.trans (if_pos inside)
  have tail : st.ringBytes.tail =
      st.block.drop (st.blockOldest + 1) ++ st.block.take st.blockOldest := by
    unfold ringBytes
    rw [List.drop_eq_getElem_cons inside]
    rfl
  have frontLen : (st.block.take st.blockOldest).length = st.blockOldest := by
    rw [List.length_take]
    omega
  rw [tail]
  unfold ringBytes
  dsimp only
  rw [set]
  by_cases last : st.blockOldest + 1 = window
  · have nothing : st.block.drop (st.blockOldest + 1) = [] :=
      List.drop_of_length_le (by omega)
    rw [last, Nat.mod_self, List.drop_zero, List.take_zero, ← last, nothing]
    simp
  · rw [Nat.mod_eq_of_lt (by omega), List.drop_append, List.take_append, frontLen,
      List.drop_of_length_le (by omega), List.take_of_length_le (by omega)]
    simp

/-- Moving on without a new byte keeps the ring, for a window that shrinks. -/
theorem Ring.ringBytes_shrink (h : st.Ring window) (len : Nat) (pending : List UInt8) :
    ringBytes ⟨st.block, (st.blockOldest + 1) % window, len, pending⟩ =
      st.ringBytes.tail ++ [st.block.getD st.blockOldest 0] := by
  have inside : st.blockOldest < st.block.length := h.block ▸ h.oldest
  rw [← h.ringBytes_advance _ len pending, List.getD_eq_getElem _ _ inside,
    List.set_getElem_self]

end State

/-! ## The comparison -/

section Compare

variable {H : Hashing} {old new : List UInt8} {sig : Signature} {max : Nat}

/-- A flush emits exactly what was pending. -/
theorem decode_flush (st : State) (window : Nat) :
    decode old window st.flush.1 = st.pending := by
  unfold State.flush
  split
  · next empty => exact (List.isEmpty_iff.mp empty).symm
  · simp [decode]

/-- What is emitted or still pending after a push is what was pending and the byte. -/
theorem decode_push (st : State) (byte : UInt8) (window : Nat) :
    decode old window (st.push byte max).1 ++ (st.push byte max).2.pending =
      st.pending ++ [byte] := by
  dsimp only [State.push]
  split <;> simp [decode]

theorem bounded_flush {st : State} (short : st.pending.length < max) :
    ∀ op ∈ st.flush.1, op.Bounded old max := by
  unfold State.flush
  split
  · simp
  · simpa [DeltaOp.Bounded] using short.le

theorem bounded_push {st : State} (byte : UInt8) (pos : 0 < max)
    (short : st.pending.length < max) :
    (∀ op ∈ (st.push byte max).1, op.Bounded old max) ∧
      (st.push byte max).2.pending.length < max := by
  dsimp only [State.push]
  split
  · next long =>
    simp only [List.length_append, List.length_singleton] at long
    simp [DeltaOp.Bounded, pos]
    omega
  · next stillShort => simpa using stillShort

/-- What a run of the inner loop achieves from a state `st`. -/
structure Slid (old : List UInt8) (window max : Nat) (st : State) (r : Reader UInt8)
    (out : List DeltaOp × State × Reader UInt8) : Prop where
  bytes : decode old window out.1 ++ out.2.1.pending ++ out.2.2.rest =
    st.pending ++ st.windowBytes window ++ r.rest
  bounded : ∀ op ∈ out.1, op.Bounded old max
  pending : out.2.1.pending.length < max
  block : out.2.1.block.length = window
  ended : out.2.1.blockLen = 0 → out.2.2.rest = []

/-- A round of the inner loop takes one byte and makes it pending. -/
theorem Slid.prepend {window : Nat} {st next : State} {r r' : Reader UInt8} {byte : UInt8}
    {ops : List DeltaOp} {out : List DeltaOp × State × Reader UInt8}
    (h : Slid old window max next r' out)
    (taken : st.windowBytes window ++ r.rest = byte :: (next.windowBytes window ++ r'.rest))
    (pushes : decode old window ops ++ next.pending = st.pending ++ [byte])
    (bounded : ∀ op ∈ ops, op.Bounded old max) :
    Slid old window max st r (ops ++ out.1, out.2) where
  bytes := by
    calc decode old window (ops ++ out.1) ++ out.2.1.pending ++ out.2.2.rest
        = decode old window ops ++
            (decode old window out.1 ++ out.2.1.pending ++ out.2.2.rest) := by
          simp only [decode_append, List.append_assoc]
      _ = decode old window ops ++ next.pending ++ (next.windowBytes window ++ r'.rest) := by
          rw [h.bytes]
          simp only [List.append_assoc]
      _ = st.pending ++ (st.windowBytes window ++ r.rest) := by
          rw [pushes, taken]
          simp
      _ = st.pending ++ st.windowBytes window ++ r.rest := by rw [List.append_assoc]
  bounded op mem := (List.mem_append.mp mem).elim (bounded op) (h.bounded op)
  pending := h.pending
  block := h.block
  ended := h.ended

/-- The inner loop emits or keeps pending exactly the bytes that it takes, and stops with
an empty window only at the end of the file. -/
theorem slide_spec (sound : Sound H old sig.window sig.chunks)
    (distinct : NoCollision H old new sig.window) (pos : 0 < max) {st : State}
    {hash : H.Rolling} {r : Reader UInt8} (ring : st.Ring sig.window)
    (full : st.blockLen = sig.window ∨ r.rest = [])
    (short : st.pending.length < max)
    (inNew : st.windowBytes sig.window ++ r.rest <:+ new) :
    Slid old sig.window max st r (slide H sig max st hash r) := by
  fun_induction slide H sig max st hash r with
  | case1 st hash r index found =>
    obtain ⟨inside, multiple, digest⟩ := sound _ _ _ found
    have isPiece : st.windowBytes sig.window <:+: new :=
      (List.infix_append' [] _ r.rest).trans inNew.isInfix
    have fits : (st.windowBytes sig.window).length ≤ sig.window := by
      rw [ring.windowBytes_eq]
      exact (List.length_take_le _ _).trans ring.len
    have copied := distinct index inside multiple _ isPiece fits digest
    refine ⟨?_, ?_, ?_, by simpa using ring.block, ?_⟩
    · simp [decode, decode_flush, copied]
    · intro op mem
      rcases List.mem_append.mp mem with mem | mem
      · exact bounded_flush short op mem
      · cases List.mem_singleton.mp mem
        exact inside
    · simpa using pos
    · intro ended
      rw [State.flush_snd_blockLen] at ended
      refine full.resolve_left ?_
      rw [ended]
      exact (Nat.ne_of_gt (Nat.zero_lt_of_lt ring.oldest)).symm
  | case2 st hash r notFound oldest hash' byte got r' read slid pushed next ih =>
    have rest : r.rest = byte :: r'.rest := by
      have whole := Reader.read_append (r := r) (n := 1)
      have fits := Reader.length_read_le (r := r) (n := 1)
      rw [read] at whole fits
      have single : got = [] := List.eq_nil_of_length_eq_zero (by simpa using fits)
      rw [← whole, single]
      rfl
    have isFull : st.blockLen = sig.window := full.resolve_right (by simp [rest])
    have pushedEq : ({ pushed.2 with blockOldest := (st.blockOldest + 1) % sig.window } : State) =
        ⟨st.block.set st.blockOldest byte, (st.blockOldest + 1) % sig.window, st.blockLen,
          pushed.2.pending⟩ := by
      simp only [pushed, slid, State.push_snd_block, State.push_snd_blockLen]
    have windowPos : 0 < sig.window := Nat.zero_lt_of_lt ring.oldest
    have ring' : State.Ring sig.window
        { pushed.2 with blockOldest := (st.blockOldest + 1) % sig.window } := by
      rw [pushedEq]
      exact ⟨by simpa using ring.block, Nat.mod_lt _ windowPos, ring.len⟩
    have taken : st.windowBytes sig.window ++ r.rest = oldest ::
        (({ pushed.2 with blockOldest := (st.blockOldest + 1) % sig.window } : State).windowBytes
          sig.window ++ r'.rest) := by
      have ringLen : st.ringBytes.length = sig.window := by rw [st.length_ringBytes, ring.block]
      rw [ring'.windowBytes_eq, ring.windowBytes_eq, pushedEq, ring.ringBytes_advance, rest,
        List.take_of_length_le (by omega), List.take_of_length_le]
      · nth_rewrite 1 [ring.ringBytes_eq_cons]
        simp [oldest]
      · simp only [List.length_append, List.length_tail, List.length_singleton]
        omega
    obtain ⟨bounded, short'⟩ : (∀ op ∈ pushed.1, op.Bounded old max) ∧
        pushed.2.pending.length < max := bounded_push oldest pos short
    refine (ih ring' (.inl ?_) short' ?_).prepend taken (decode_push slid oldest _) bounded
    · rw [pushedEq]
      exact isFull
    · rw [taken] at inNew
      exact (List.suffix_cons _ _).trans inNew
  | case3 st hash r notFound oldest hash' r' read nonempty pushed next ih =>
    have atEnd : r.rest = [] := (Reader.read_eq_nil_iff (n := 1) (by omega)).mp (by rw [read])
    have left : r'.rest = [] := by
      have nothing := Reader.rest_of_read_nil (r := r) (n := 1) (by omega) (by rw [read])
      rwa [read] at nothing
    have pushedEq : ({ pushed.2 with blockOldest := (st.blockOldest + 1) % sig.window } : State) =
        ⟨st.block, (st.blockOldest + 1) % sig.window, st.blockLen - 1, pushed.2.pending⟩ := by
      simp only [pushed, State.push_snd_block, State.push_snd_blockLen]
    have windowPos : 0 < sig.window := Nat.zero_lt_of_lt ring.oldest
    have ring' : State.Ring sig.window
        { pushed.2 with blockOldest := (st.blockOldest + 1) % sig.window } := by
      rw [pushedEq]
      exact ⟨ring.block, Nat.mod_lt _ windowPos, (Nat.sub_le _ _).trans ring.len⟩
    have taken : st.windowBytes sig.window ++ r.rest = oldest ::
        (({ pushed.2 with blockOldest := (st.blockOldest + 1) % sig.window } : State).windowBytes
          sig.window ++ r'.rest) := by
      have tailLen : st.blockLen - 1 ≤ st.ringBytes.tail.length := by
        rw [List.length_tail, st.length_ringBytes, ring.block]
        exact Nat.sub_le_sub_right ring.len 1
      rw [ring'.windowBytes_eq, ring.windowBytes_eq, pushedEq, ring.ringBytes_shrink, atEnd, left,
        List.append_nil, List.append_nil, List.take_append_of_le_length tailLen]
      nth_rewrite 1 [ring.ringBytes_eq_cons]
      exact List.take_cons nonempty
    obtain ⟨bounded, short'⟩ : (∀ op ∈ pushed.1, op.Bounded old max) ∧
        pushed.2.pending.length < max := bounded_push oldest pos short
    refine (ih ring' (.inr left) short' ?_).prepend taken
      (decode_push { st with blockLen := st.blockLen - 1 } oldest _) bounded
    rw [taken] at inNew
    exact (List.suffix_cons _ _).trans inNew
  | case4 st hash r notFound r' read empty =>
    have atEnd : r.rest = [] := (Reader.read_eq_nil_iff (n := 1) (by omega)).mp (by rw [read])
    have left : r'.rest = [] := by
      have := Reader.rest_of_read_nil (r := r) (n := 1) (by omega) (by rw [read])
      rwa [read] at this
    have nothing : st.windowBytes sig.window = [] := by
      rw [ring.windowBytes_eq, Nat.eq_zero_of_not_pos empty, List.take_zero]
    exact ⟨by simp [decode, nothing, atEnd, left], by simp, short, ring.block, fun _ => left⟩

/-- One round of the outer loop, with its flush, describes the part of the file that it
read. -/
theorem round_spec (sound : Sound H old sig.window sig.chunks)
    (distinct : NoCollision H old new sig.window) (pos : 0 < max) (windowPos : 0 < sig.window)
    {st : State} {r : Reader UInt8} (block : st.block.length = sig.window)
    (empty : st.pending = []) (inNew : r.rest <:+ new) :
    let read := r.fill sig.window
    let filled : State :=
      ⟨read.1 ++ st.block.drop read.1.length, 0, read.1.length, st.pending⟩
    let run := slide H sig max filled (H.fromBuffer read.1) read.2.2
    Slid old sig.window max filled read.2.2 run ∧
      decode old sig.window (run.1 ++ run.2.1.flush.1) ++ run.2.2.rest = r.rest := by
  intro read filled run
  obtain ⟨got, rest, -⟩ := Reader.fill_spec sig.window r
  have whole : read.1 ++ read.2.2.rest = r.rest := by
    rw [got, rest, List.take_append_drop]
  have fits : read.1.length ≤ sig.window := by
    rw [got]
    exact List.length_take_le _ _
  have full : read.1.length = sig.window ∨ read.2.2.rest = [] := by
    rw [got, rest, List.length_take, List.drop_eq_nil_iff]
    omega
  have ring : filled.Ring sig.window := by
    refine ⟨?_, windowPos, fits⟩
    simp only [filled, List.length_append, List.length_drop]
    omega
  have window : filled.windowBytes sig.window = read.1 := by
    rw [ring.windowBytes_eq]
    simp [State.ringBytes, filled]
  have slid : Slid old sig.window max filled read.2.2 run :=
    slide_spec sound distinct pos ring full (by simpa [filled, empty] using pos)
      (by rwa [window, whole])
  refine ⟨slid, ?_⟩
  rw [decode_append, decode_flush, slid.bytes, window, List.append_assoc, whole]
  simp only [filled, empty, List.nil_append]

/-- However the reads are split, the operations describe the rest of the new file. -/
theorem compareLoop_spec (sound : Sound H old sig.window sig.chunks)
    (distinct : NoCollision H old new sig.window) (pos : 0 < max) (windowPos : 0 < sig.window)
    {st : State} {r : Reader UInt8} (block : st.block.length = sig.window)
    (empty : st.pending = []) (inNew : r.rest <:+ new) :
    decode old sig.window (compareLoop H sig max st r) = r.rest ∧
      ∀ op ∈ compareLoop H sig max st r, op.Bounded old max := by
  fun_induction compareLoop H sig max st r with
  | case1 st r read filled run flushed more ih =>
    obtain ⟨slid, bytes⟩ := round_spec sound distinct pos windowPos block empty inNew
    have isRest : run.2.2.rest <:+ r.rest := ⟨_, bytes⟩
    obtain ⟨laterBytes, laterBounded⟩ := ih (by simpa [flushed] using slid.block)
      (State.flush_snd_pending _) (isRest.trans inNew)
    constructor
    · rw [decode_append, laterBytes]
      exact bytes
    · intro op mem
      rcases List.mem_append.mp mem with mem | mem
      · exact (List.mem_append.mp mem).elim (slid.bounded op)
          (bounded_flush slid.pending op)
      · exact laterBounded op mem
  | case2 st r read filled run flushed done =>
    obtain ⟨slid, bytes⟩ := round_spec sound distinct pos windowPos block empty inNew
    have left : run.2.2.rest = [] := slid.ended (Nat.eq_zero_of_not_pos done)
    constructor
    · rw [← bytes, left, List.append_nil]
    · intro op mem
      exact (List.mem_append.mp mem).elim (slid.bounded op) (bounded_flush slid.pending op)

/-- A comparison against a sound signature describes the new file, and its literals are
as short as asked. -/
theorem compareStream_spec (sound : Sound H old sig.window sig.chunks)
    (distinct : NoCollision H old new sig.window) (windowPos : 0 < sig.window)
    {block : List UInt8} (blockLen : block.length = sig.window) (plan : List Nat)
    (maxLiteralBytes : Nat) :
    ∃ ops, compareStream H sig ⟨new, plan⟩ block maxLiteralBytes = .ok ops ∧
      decode old sig.window ops = new ∧
      ∀ op ∈ ops, op.Bounded old (Max.max maxLiteralBytes 1) := by
  have spec : ∀ r : Reader UInt8, r.rest <:+ new →
      decode old sig.window (compareLoop H sig (Max.max maxLiteralBytes 1) (.new block) r) =
          r.rest ∧
        ∀ op ∈ compareLoop H sig (Max.max maxLiteralBytes 1) (.new block) r,
          op.Bounded old (Max.max maxLiteralBytes 1) :=
    fun r inNew => compareLoop_spec sound distinct (by omega) windowPos blockLen rfl inNew
  obtain ⟨bytes, bounded⟩ := spec ⟨new, plan⟩ (List.suffix_refl new)
  refine ⟨_, ?_, bytes, bounded⟩
  rw [compareStream, if_neg windowPos.ne', if_neg (by simpa using blockLen)]

/-- Restoring writes what the operations describe, however the reads are split. -/
theorem restoreBlocks_eq (window : Nat) (ops : List DeltaOp) (r : Reader UInt8) :
    restoreBlocks old window (ops.map Block.ofOp) r = decode old window ops := by
  induction ops generalizing r with
  | nil => rfl
  | cons op ops ih =>
    cases op with
    | fromSource i =>
      have read := (Reader.fill_spec window (r.seek old i)).1
      simp only [List.map_cons, Block.ofOp, restoreBlocks, read, ih, decode]
      rfl
    | literal bytes => simp only [List.map_cons, Block.ofOp, restoreBlocks, ih, decode]

/-- The unstreamed delta restores the new file. -/
theorem restoreSeek_compare (sound : Sound H old sig.window sig.chunks)
    (distinct : NoCollision H old new sig.window) (windowPos : 0 < sig.window)
    {block : List UInt8} (blockLen : block.length = sig.window) (plan plan' : List Nat) :
    ∃ delta, compare H sig ⟨new, plan⟩ block = .ok delta ∧
      restoreSeek old plan' sig.window delta = .ok new := by
  obtain ⟨ops, compared, bytes, -⟩ :=
    compareStream_spec sound distinct windowPos blockLen plan usizeMax
  refine ⟨⟨ops.map Block.ofOp, sig.window⟩, ?_, ?_⟩
  · rw [compare, compared]
    rfl
  · rw [restoreSeek, if_neg windowPos.ne', if_neg (lt_irrefl _), restoreBlocks_eq, bytes]

end Compare

end Duet.Rustsync

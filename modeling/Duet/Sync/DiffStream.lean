import Duet.Lib.FileBytes
import Duet.Rustsync

/-!
# The diff stream

The source end compares its file with the signature of the old one and sends the
result as frames: neighbouring copies are coalesced, with the nominal window length for
each block, so the last copy may run past the end of the old file. The destination
applies the frames to an output that is either empty or a clone of the old file.
-/

namespace Duet

open Lib Rustsync

inductive DetailPayload where
  | fileBegin
  | fileBytes (bytes : List UInt8)
  | fileEnd
  | diffBegin
  | diffCopy (offset len : Nat)
  | diffBytes (bytes : List UInt8)
  | diffEnd
deriving DecidableEq

structure DetailFrame where
  actionIndex : UInt32
  payload : DetailPayload
deriving DecidableEq

/-- `MAX_SIGNATURE_WINDOW` -/
def maxSignatureWindow : Nat := 16 * 1024 * 1024

/-- `COPY_BUFFER_BYTES` -/
def copyBufferBytes : Nat := 128 * 1024

def validateSignatureWindow (window : Nat) : Except String Unit :=
  if window = 0 ∨ window > maxSignatureWindow then
    .error s!"invalid signature window {window}, expected 1..={maxSignatureWindow}"
  else .ok ()

/-! ## Sending -/

def flushCopy : Option (Nat × Nat) → List DetailPayload
  | some (offset, len) => [.diffCopy offset len]
  | none => []

/-- The frames for the coming operations, given the copy that is not sent yet. Offsets
and lengths are `u64` in the source; `coalesce_bounded` keeps their sums below the
length of the old file plus one window. -/
def coalesce (window : Nat) : Option (Nat × Nat) → List DeltaOp → List DetailPayload
  | pendingCopy, [] => flushCopy pendingCopy ++ [.diffEnd]
  | some (start, len), .fromSource offset :: ops =>
    if start + len = offset then coalesce window (some (start, len + window)) ops
    else flushCopy (some (start, len)) ++ coalesce window (some (offset, window)) ops
  | none, .fromSource offset :: ops => coalesce window (some (offset, window)) ops
  | pendingCopy, .literal bytes :: ops =>
    flushCopy pendingCopy ++ .diffBytes bytes :: coalesce window none ops

def streamDiffFrames (H : Hashing) (file : Reader UInt8) (actionIndex : UInt32)
    (signature : Signature) (maxChunkBytes : Nat) : Except String (List DetailFrame) := do
  validateSignatureWindow signature.window
  let block := List.replicate signature.window 0
  let ops ← compareStream H signature file block maxChunkBytes
  pure ((coalesce signature.window none ops).map (DetailFrame.mk actionIndex))

/-! ## Applying -/

/-- The bytes that an output verifier was fed. Its digest is computed piecewise, which
does not depend on how the bytes are split. -/
structure StreamedOutputVerifier where
  fed : List UInt8
deriving DecidableEq

def StreamedOutputVerifier.update (verifier : StreamedOutputVerifier) (bytes : List UInt8) :
    StreamedOutputVerifier :=
  ⟨verifier.fed ++ bytes⟩

@[simp] theorem StreamedOutputVerifier.update_nil (verifier : StreamedOutputVerifier) :
    verifier.update [] = verifier := by
  simp [update]

@[simp] theorem StreamedOutputVerifier.update_update (verifier : StreamedOutputVerifier)
    (bytes more : List UInt8) :
    (verifier.update bytes).update more = verifier.update (bytes ++ more) := by
  simp [update]

/-- The destination's state for one diff. `plan` splits the reads. -/
structure DiffState where
  source : List UInt8
  output : List UInt8
  verifier : StreamedOutputVerifier
  outputPosition : Nat
  cloneBacked : Bool
  plan : List Nat
deriving DecidableEq

/-- `copy_and_hash`: copy up to `remaining` bytes to the output, which stands at `pos`. -/
def copyAndHash (remaining : Nat) (source : Reader UInt8) (output : List UInt8) (pos : Nat)
    (verifier : StreamedOutputVerifier) :
    Nat × List UInt8 × StreamedOutputVerifier × Reader UInt8 :=
  if remaining = 0 then (0, output, verifier, source)
  else
    match source.read (min remaining copyBufferBytes) with
    | ([], source') => (0, output, verifier, source')
    | (byte :: bytes, source') =>
      let got := byte :: bytes
      let more := copyAndHash (remaining - got.length) source' (writeAt 0 output pos got)
        (pos + got.length) (verifier.update got)
      (got.length + more.1, more.2)
termination_by remaining

/-- `hash_file_range`: feed up to `remaining` bytes of the output to the verifier. -/
def hashFileRange (remaining : Nat) (file : Reader UInt8) (verifier : StreamedOutputVerifier) :
    Nat × StreamedOutputVerifier × Reader UInt8 :=
  if remaining = 0 then (0, verifier, file)
  else
    match file.read (min remaining copyBufferBytes) with
    | ([], file') => (0, verifier, file')
    | (byte :: bytes, file') =>
      let got := byte :: bytes
      let more := hashFileRange (remaining - got.length) file' (verifier.update got)
      (got.length + more.1, more.2)
termination_by remaining

def applyDiffCopy (st : DiffState) (offset len : Nat) : DiffState :=
  if st.cloneBacked && offset == st.outputPosition then
    let hashed := hashFileRange len ⟨st.output.drop st.outputPosition, st.plan⟩ st.verifier
    { st with
      outputPosition := st.outputPosition + hashed.1
      verifier := hashed.2.1
      plan := hashed.2.2.plan }
  else
    let copied := copyAndHash len ⟨st.source.drop offset, st.plan⟩ st.output st.outputPosition
      st.verifier
    { st with
      outputPosition := st.outputPosition + copied.1
      output := copied.2.1
      verifier := copied.2.2.1
      plan := copied.2.2.2.plan }

def applyDiffBytes (st : DiffState) (bytes : List UInt8) : DiffState :=
  { st with
    output := writeAt 0 st.output st.outputPosition bytes
    verifier := st.verifier.update bytes
    outputPosition := st.outputPosition + bytes.length }

/-- One frame of a diff; the end sets the length of the output. -/
def applyDiffFrame (st : DiffState) : DetailPayload → Except String DiffState
  | .diffCopy offset len => .ok (applyDiffCopy st offset len)
  | .diffBytes bytes => .ok (applyDiffBytes st bytes)
  | .diffEnd => .ok { st with output := setLen 0 st.output st.outputPosition }
  | _ => .error "unexpected diff detail frame"

/-- The state in which a diff begins: the output is a clone of the old file, where the
file system can clone, and else empty. -/
def DiffState.begin (source : List UInt8) (cloneBacked : Bool) (plan : List Nat) : DiffState :=
  ⟨source, if cloneBacked then source else [], ⟨[]⟩, 0, cloneBacked, plan⟩

/-! ## What the copy loops do -/

theorem copyBuffer_pos {remaining : Nat} (some : remaining ≠ 0) :
    0 < min remaining copyBufferBytes := by
  unfold copyBufferBytes
  omega

/-- The hashing loop feeds the verifier what it could read, however reads are split. -/
theorem hashFileRange_spec (remaining : Nat) (file : Reader UInt8)
    (verifier : StreamedOutputVerifier) :
    (hashFileRange remaining file verifier).1 = (file.rest.take remaining).length ∧
      (hashFileRange remaining file verifier).2.1 = verifier.update (file.rest.take remaining) := by
  fun_induction hashFileRange remaining file verifier with
  | case1 file verifier => simp
  | case2 remaining file verifier some file' read =>
    have atEnd := (Reader.read_eq_nil_iff (copyBuffer_pos some)).mp (by rw [read])
    simp [atEnd]
  | case3 remaining file verifier some byte bytes file' read got more ih =>
    rw [Reader.take_rest_of_read read (min_le_left _ _)]
    obtain ⟨count, fed⟩ := ih
    rw [List.length_append, ← count, ← verifier.update_update, ← fed]
    exact ⟨rfl, rfl⟩

/-- The copying loop writes and feeds the verifier what it could read. -/
theorem copyAndHash_spec (remaining : Nat) (source : Reader UInt8) (output : List UInt8)
    {pos : Nat} (verifier : StreamedOutputVerifier) (inside : pos ≤ output.length) :
    (copyAndHash remaining source output pos verifier).1 =
        (source.rest.take remaining).length ∧
      (copyAndHash remaining source output pos verifier).2.1 =
        writeAt 0 output pos (source.rest.take remaining) ∧
      (copyAndHash remaining source output pos verifier).2.2.1 =
        verifier.update (source.rest.take remaining) := by
  fun_induction copyAndHash remaining source output pos verifier with
  | case1 source output pos verifier =>
    simp [writeAt_nil inside]
  | case2 remaining source output pos verifier some source' read =>
    have atEnd := (Reader.read_eq_nil_iff (copyBuffer_pos some)).mp (by rw [read])
    simp [atEnd, writeAt_nil inside]
  | case3 remaining source output pos verifier some byte bytes source' read got more ih =>
    rw [Reader.take_rest_of_read read (min_le_left _ _)]
    obtain ⟨count, written, fed⟩ := ih (length_writeAt inside)
    rw [List.length_append, ← count, ← writeAt_writeAt inside, ← written,
      ← verifier.update_update, ← fed]
    exact ⟨rfl, rfl, rfl⟩

/-! ## What frames stand for -/

/-- The output that frames describe, given the old file. -/
def describes (old : List UInt8) : List DetailPayload → List UInt8
  | [] => []
  | .diffCopy offset len :: frames => (old.drop offset).take len ++ describes old frames
  | .diffBytes bytes :: frames => bytes ++ describes old frames
  | _ :: frames => describes old frames

@[simp] theorem describes_append (old : List UInt8) (frames frames' : List DetailPayload) :
    describes old (frames ++ frames') = describes old frames ++ describes old frames' := by
  induction frames with
  | nil => rfl
  | cons frame frames ih => cases frame <;> simp [describes, ih]

/-- Coalescing nominal window lengths describes the same output, also where the last
block is short. -/
theorem describes_coalesce (old : List UInt8) (window : Nat) (pendingCopy : Option (Nat × Nat))
    (ops : List DeltaOp) :
    describes old (coalesce window pendingCopy ops) =
      describes old (flushCopy pendingCopy) ++ decode old window ops := by
  fun_induction coalesce window pendingCopy ops with
  | case1 pendingCopy => simp [describes, decode]
  | case2 start len ops ih =>
    rw [ih]
    simp only [flushCopy, describes, decode, List.append_nil, List.take_add, List.drop_drop,
      List.append_assoc]
  | case3 start len offset ops apart ih =>
    rw [describes_append, ih]
    simp [flushCopy, describes, decode]
  | case4 offset ops ih =>
    rw [ih]
    simp [flushCopy, describes, decode]
  | case5 pendingCopy bytes ops ih =>
    rw [describes_append, describes, ih]
    simp [flushCopy, describes, decode]

/-- The payloads that a diff stream may consist of: copies that start inside the old file
and end at most one window behind it, short literals, and the end. -/
def DetailPayload.Diff (old : List UInt8) (window maxChunkBytes : Nat) : DetailPayload → Prop
  | .diffCopy offset len => offset ≤ old.length ∧ offset + len ≤ old.length + window
  | .diffBytes bytes => bytes.length ≤ maxChunkBytes
  | .diffEnd => True
  | _ => False

theorem coalesce_bounded {old : List UInt8} {window max : Nat}
    {pendingCopy : Option (Nat × Nat)} {ops : List DeltaOp}
    (pending : ∀ payload ∈ flushCopy pendingCopy, payload.Diff old window max)
    (bounded : ∀ op ∈ ops, op.Bounded old max) :
    ∀ payload ∈ coalesce window pendingCopy ops, payload.Diff old window max := by
  fun_induction coalesce window pendingCopy ops with
  | case1 pendingCopy =>
    intro payload mem
    rcases List.mem_append.mp mem with mem | mem
    · exact pending payload mem
    · cases List.mem_singleton.mp mem
      trivial
  | case2 start len ops ih =>
    have inside : start + len ≤ old.length := bounded _ List.mem_cons_self
    obtain ⟨starts, -⟩ := pending _ List.mem_cons_self
    refine ih ?_ fun op mem => bounded op (List.mem_cons_of_mem _ mem)
    intro payload mem
    cases List.mem_singleton.mp mem
    exact ⟨starts, by omega⟩
  | case3 start len offset ops apart ih =>
    have inside : offset ≤ old.length := bounded _ List.mem_cons_self
    intro payload mem
    rcases List.mem_append.mp mem with mem | mem
    · exact pending payload mem
    · refine ih ?_ (fun op mem => bounded op (List.mem_cons_of_mem _ mem)) payload mem
      intro payload mem
      cases List.mem_singleton.mp mem
      exact ⟨inside, by omega⟩
  | case4 offset ops ih =>
    have inside : offset ≤ old.length := bounded _ List.mem_cons_self
    refine ih ?_ fun op mem => bounded op (List.mem_cons_of_mem _ mem)
    intro payload mem
    cases List.mem_singleton.mp mem
    exact ⟨inside, by omega⟩
  | case5 pendingCopy bytes ops ih =>
    intro payload mem
    rcases List.mem_append.mp mem with mem | mem
    · exact pending payload mem
    · rcases List.mem_cons.mp mem with rfl | mem
      · exact bounded _ List.mem_cons_self
      · exact ih (by simp [flushCopy]) (fun op mem => bounded op (List.mem_cons_of_mem _ mem))
          payload mem

/-! ## What the destination ends with -/

/-- The state in which `done` was written: the verifier was fed exactly that, and what
follows in a clone is still the old file. -/
structure DiffState.Written (old : List UInt8) (done : List UInt8) (st : DiffState) : Prop where
  source : st.source = old
  position : st.outputPosition = done.length
  inside : st.outputPosition ≤ st.output.length
  output : st.output.take st.outputPosition = done
  fed : st.verifier.fed = done
  clone : st.cloneBacked = true → st.output.drop st.outputPosition = old.drop st.outputPosition

theorem DiffState.written_begin (old : List UInt8) (cloneBacked : Bool) (plan : List Nat) :
    (DiffState.begin old cloneBacked plan).Written old [] := by
  refine ⟨rfl, rfl, Nat.zero_le _, rfl, rfl, ?_⟩
  intro clone
  simp only [DiffState.begin] at clone
  simp [DiffState.begin, clone]

section Apply

variable {old done : List UInt8} {st : DiffState}

/-- Literal bytes are appended. -/
theorem DiffState.Written.bytes (h : st.Written old done) (bytes : List UInt8) :
    (applyDiffBytes st bytes).Written old (done ++ bytes) where
  source := h.source
  position := by
    rw [List.length_append, ← h.position]
    rfl
  inside := length_writeAt h.inside
  output := (take_writeAt h.inside).trans (by rw [h.output])
  fed := by rw [← h.fed]; rfl
  clone isClone := by
    refine (drop_writeAt h.inside).trans ?_
    rw [← List.drop_drop, h.clone isClone, List.drop_drop]
    rfl

/-- A copy appends the range of the old file, also when it is only hashed because the
clone holds it already. -/
theorem DiffState.Written.copy (h : st.Written old done) (offset len : Nat) :
    (applyDiffCopy st offset len).Written old (done ++ (old.drop offset).take len) := by
  unfold applyDiffCopy
  split
  · next inPlace =>
    obtain ⟨clone, here⟩ : st.cloneBacked = true ∧ offset = st.outputPosition := by
      simpa using inPlace
    obtain ⟨count, fed⟩ := hashFileRange_spec len
      ⟨st.output.drop st.outputPosition, st.plan⟩ st.verifier
    dsimp only at count fed ⊢
    rw [count, fed, here]
    have ahead := h.clone clone
    refine ⟨h.source, ?_, ?_, ?_, ?_, ?_⟩
    · dsimp only
      rw [ahead, List.length_append, ← h.position]
    · have := List.length_take_le len (st.output.drop st.outputPosition)
      have := h.inside
      simp only [List.length_take, List.length_drop]
      omega
    · dsimp only
      rw [List.take_add, h.output, ahead]
      congr 1
      exact List.take_eq_take_iff.mpr (by simp)
    · simp only [StreamedOutputVerifier.update, h.fed, ahead]
    · intro _
      dsimp only
      rw [← List.drop_drop, ahead, List.drop_drop]
  · next elsewhere =>
    obtain ⟨count, output, fed⟩ := copyAndHash_spec len ⟨st.source.drop offset, st.plan⟩
      st.output st.verifier h.inside
    dsimp only at count output fed ⊢
    rw [count, output, fed, h.source]
    obtain ⟨source, position, inside, output, fed, clone⟩ :=
      h.bytes ((old.drop offset).take len)
    exact ⟨rfl, position, inside, output, fed, clone⟩

/-- The payloads before the end of a diff. -/
def DetailPayload.Moves : DetailPayload → Prop
  | .diffCopy _ _ | .diffBytes _ => True
  | _ => False

/-- Every stream is copies and literals, and one end. -/
theorem coalesce_eq_append_end (window : Nat) (pendingCopy : Option (Nat × Nat))
    (ops : List DeltaOp) :
    ∃ body, coalesce window pendingCopy ops = body ++ [.diffEnd] ∧
      ∀ payload ∈ body, payload.Moves := by
  have flushed : ∀ pendingCopy, ∀ payload ∈ flushCopy pendingCopy, payload.Moves := by
    intro pendingCopy payload mem
    cases pendingCopy with
    | none => cases mem
    | some copy => cases List.mem_singleton.mp mem; trivial
  fun_induction coalesce window pendingCopy ops with
  | case1 pendingCopy => exact ⟨flushCopy pendingCopy, rfl, flushed pendingCopy⟩
  | case2 start len ops ih => exact ih
  | case3 start len offset ops apart ih =>
    obtain ⟨body, eq, moves⟩ := ih
    refine ⟨flushCopy (some (start, len)) ++ body, by rw [eq, List.append_assoc], ?_⟩
    intro payload mem
    exact (List.mem_append.mp mem).elim (flushed _ payload) (moves payload)
  | case4 offset ops ih => exact ih
  | case5 pendingCopy bytes ops ih =>
    obtain ⟨body, eq, moves⟩ := ih
    refine ⟨flushCopy pendingCopy ++ .diffBytes bytes :: body, by simp [eq], ?_⟩
    intro payload mem
    rcases List.mem_append.mp mem with mem | mem
    · exact flushed _ payload mem
    · rcases List.mem_cons.mp mem with rfl | mem
      · trivial
      · exact moves payload mem

/-- Applying copies and literals in a row appends what they describe. -/
theorem DiffState.Written.foldlM {body : List DetailPayload} (h : st.Written old done)
    (moves : ∀ payload ∈ body, payload.Moves) :
    ∃ st', body.foldlM applyDiffFrame st = .ok st' ∧
      st'.Written old (done ++ describes old body) := by
  induction body generalizing st done with
  | nil => exact ⟨st, rfl, by simpa [describes] using h⟩
  | cons payload body ih =>
    have rest : ∀ payload ∈ body, payload.Moves :=
      fun later mem => moves later (List.mem_cons_of_mem _ mem)
    have here := moves payload List.mem_cons_self
    cases payload with
    | diffCopy offset len =>
      obtain ⟨st', runs, written⟩ := ih (h.copy offset len) rest
      exact ⟨st', runs, by simpa [describes] using written⟩
    | diffBytes bytes =>
      obtain ⟨st', runs, written⟩ := ih (h.bytes bytes) rest
      exact ⟨st', runs, by simpa [describes] using written⟩
    | _ => cases here

/-- A whole diff stream leaves exactly what it describes in the output, and has fed
exactly that to the verifier. -/
theorem foldlM_coalesce (old : List UInt8) (cloneBacked : Bool) (plan : List Nat) (window : Nat)
    (ops : List DeltaOp) :
    ∃ st, (coalesce window none ops).foldlM applyDiffFrame (.begin old cloneBacked plan) = .ok st ∧
      st.output = decode old window ops ∧ st.verifier.fed = decode old window ops := by
  obtain ⟨body, eq, moves⟩ := coalesce_eq_append_end window none ops
  have described : describes old body = decode old window ops := by
    have whole := describes_coalesce old window none ops
    rw [eq, describes_append] at whole
    simpa [describes, flushCopy] using whole
  obtain ⟨st, runs, written⟩ :=
    (DiffState.written_begin old cloneBacked plan).foldlM moves
  rw [List.nil_append, described] at written
  refine ⟨{ st with output := setLen 0 st.output st.outputPosition }, ?_, ?_, written.fed⟩
  · rw [eq, List.foldlM_append, runs]
    rfl
  · exact (setLen_of_le written.inside).trans written.output

end Apply

end Duet

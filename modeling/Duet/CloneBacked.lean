import Duet.Lib.Fallible
import Duet.Sync.DiffStream
import Mathlib.Algebra.Ring.Nat

/-!
# Clone-backed outputs

Where the file system can clone, a diff is applied to a clone of the old file, and a copy
to its own offset is not made: its bytes are only read back for the verifier. Both ways
refine one machine that appends to the bytes done so far and knows no file at all, so no
frames tell them apart.
-/

namespace Duet

open Lib

/-! ## Frames with their seeks -/

/-- `File::seek` from the start: the position is passed on as an `i64`. -/
def seekTo (pos : Nat) : Except String Unit :=
  if pos < 2 ^ 63 then .ok () else .error "Invalid argument (os error 22)"

/-- `checked_add` on the output position, after the bytes were written. -/
def checkOutputPosition (st : DiffState) : Except String DiffState :=
  if st.outputPosition < 2 ^ 64 then .ok st else .error "diff output position overflow"

/-- The seeks before a copy: one in the output alone where nothing is copied. -/
def seekCopy (st : DiffState) (offset : Nat) : Except String Unit :=
  if st.cloneBacked && offset == st.outputPosition then seekTo st.outputPosition
  else do
    seekTo offset
    seekTo st.outputPosition

/-- One frame of a diff before its end. -/
def applyDiffMove (st : DiffState) : DetailPayload → Except String DiffState
  | .diffCopy offset len => do
    seekCopy st offset
    checkOutputPosition (applyDiffCopy st offset len)
  | .diffBytes bytes => do
    seekTo st.outputPosition
    checkOutputPosition (applyDiffBytes st bytes)
  | _ => .error "unexpected diff detail frame"

/-- What is left of an applied diff: the output, where it ended, and what was hashed. -/
structure AppliedDiff where
  output : List UInt8
  outputPosition : Nat
  fed : List UInt8
deriving DecidableEq

/-- `DiffEnd` sets the length of the output. -/
def endDiff (st : DiffState) : AppliedDiff :=
  ⟨setLen 0 st.output st.outputPosition, st.outputPosition, st.verifier.fed⟩

/-- A whole diff, from its begin to its end. -/
def applyDiff (old : List UInt8) (cloneBacked : Bool) (plan : List Nat)
    (frames : List DetailPayload) : Except String AppliedDiff := do
  let st ← frames.foldlM applyDiffMove (.begin old cloneBacked plan)
  pure (endDiff st)

/-! ## The machine without files -/

/-- Bytes that still have a position after them. -/
def appendBytes (done bytes : List UInt8) : Except String (List UInt8) :=
  if (done ++ bytes).length < 2 ^ 64 then .ok (done ++ bytes)
  else .error "diff output position overflow"

/-- Append what one frame stands for, unless a position is too large. -/
def appendMove (old done : List UInt8) : DetailPayload → Except String (List UInt8)
  | .diffCopy offset len => do
    seekTo offset
    seekTo done.length
    appendBytes done ((old.drop offset).take len)
  | .diffBytes bytes => do
    seekTo done.length
    appendBytes done bytes
  | _ => .error "unexpected diff detail frame"

/-- A step of the two machines: an error of one is that of the other, and else the states
stay related. -/
def Refines (old : List UInt8) (step : Except String DiffState)
    (spec : Except String (List UInt8)) : Prop :=
  match spec with
  | .ok done => ∃ st, step = .ok st ∧ st.Written old done
  | .error e => step = .error e

section Refinement

variable {old done : List UInt8} {st : DiffState}

/-- A seek is the same for both machines. -/
theorem Refines.seek (pos : Nat) {step : Except String DiffState}
    {spec : Except String (List UInt8)} (after : Refines old step spec) :
    Refines old (seekTo pos >>= fun _ => step) (seekTo pos >>= fun _ => spec) := by
  unfold seekTo
  split
  · exact after
  · exact rfl

/-- The position is checked after the bytes are in place. -/
theorem Refines.checked {bytes : List UInt8} (written : st.Written old (done ++ bytes)) :
    Refines old (checkOutputPosition st) (appendBytes done bytes) := by
  unfold checkOutputPosition appendBytes
  rw [written.position]
  split
  · exact ⟨st, rfl, written⟩
  · exact rfl

/-- A copy that stays where it is seeks once where the other seeks twice, to one and the
same position. -/
theorem seekCopy_eq (offset : Nat) :
    seekCopy st offset = (do seekTo offset; seekTo st.outputPosition) := by
  unfold seekCopy
  split
  · next inPlace =>
    have here : offset = st.outputPosition := by
      have both : st.cloneBacked = true ∧ offset = st.outputPosition := by simpa using inPlace
      exact both.2
    rw [here]
    unfold seekTo
    split
    · rfl
    · rfl
  · rfl

/-- One frame refines one step of the machine without files, clone or not. -/
theorem DiffState.Written.refines (written : st.Written old done) (payload : DetailPayload) :
    Refines old (applyDiffMove st payload) (appendMove old done payload) := by
  cases payload with
  | diffCopy offset len =>
    have copied := Refines.checked (written.copy offset len)
    simp only [applyDiffMove, appendMove]
    rw [seekCopy_eq, written.position, bind_assoc]
    exact (copied.seek done.length).seek offset
  | diffBytes bytes =>
    have appended := Refines.checked (written.bytes bytes)
    simp only [applyDiffMove, appendMove]
    rw [written.position]
    exact appended.seek done.length
  | _ => exact rfl

/-- A run of frames refines a run of the machine. -/
theorem DiffState.Written.refines_foldlM (written : st.Written old done)
    (frames : List DetailPayload) :
    Refines old (frames.foldlM applyDiffMove st) (frames.foldlM (appendMove old) done) := by
  induction frames generalizing st done with
  | nil => exact ⟨st, rfl, written⟩
  | cons payload frames ih =>
    have here := written.refines payload
    rw [List.foldlM_cons, List.foldlM_cons]
    cases spec : appendMove old done payload with
    | error e =>
      rw [spec] at here
      rw [show applyDiffMove st payload = .error e from here]
      exact rfl
    | ok done' =>
      rw [spec] at here
      obtain ⟨st', step, written'⟩ := here
      rw [step]
      exact ih written'

/-- What is written is what stays when the length is set. -/
theorem DiffState.Written.endDiff (written : st.Written old done) :
    endDiff st = ⟨done, done.length, done⟩ := by
  unfold Duet.endDiff
  rw [setLen_of_le written.inside, written.output, written.position, written.fed]

/-- A whole diff is a run of the machine. -/
theorem applyDiff_eq (old : List UInt8) (cloneBacked : Bool) (plan : List Nat)
    (frames : List DetailPayload) :
    applyDiff old cloneBacked plan frames =
      (frames.foldlM (appendMove old) []).map fun done => ⟨done, done.length, done⟩ := by
  have refines := (DiffState.written_begin old cloneBacked plan).refines_foldlM frames
  unfold applyDiff
  cases spec : frames.foldlM (appendMove old) [] with
  | error e =>
    rw [spec] at refines
    rw [show frames.foldlM applyDiffMove (.begin old cloneBacked plan) = .error e from refines]
    rfl
  | ok done =>
    rw [spec] at refines
    obtain ⟨st, run, written⟩ := refines
    rw [run]
    exact congrArg Except.ok written.endDiff

/-! ## What the machine appends -/

theorem appendBytes_of_ok {bytes done' : List UInt8} (step : appendBytes done bytes = .ok done') :
    done' = done ++ bytes := by
  unfold appendBytes at step
  split at step
  · cases step
    rfl
  · cases step

theorem appendMove_of_ok {payload : DetailPayload} {done' : List UInt8}
    (step : appendMove old done payload = .ok done') :
    done' = done ++ describes old [payload] := by
  cases payload with
  | diffCopy offset len =>
    obtain ⟨-, -, step⟩ := bind_eq_ok.mp step
    obtain ⟨-, -, step⟩ := bind_eq_ok.mp step
    rw [appendBytes_of_ok step, describes, describes, List.append_nil]
  | diffBytes bytes =>
    obtain ⟨-, -, step⟩ := bind_eq_ok.mp step
    rw [appendBytes_of_ok step, describes, describes, List.append_nil]
  | _ => cases step

/-- A run that is not refused appends what its frames describe. -/
theorem foldlM_appendMove_of_ok {frames : List DetailPayload} {done' : List UInt8}
    (run : frames.foldlM (appendMove old) done = .ok done') :
    done' = done ++ describes old frames := by
  induction frames generalizing done with
  | nil =>
    cases run
    simp [describes]
  | cons payload frames ih =>
    obtain ⟨middle, step, rest⟩ := foldlM_cons_eq_ok.mp run
    rw [ih rest, appendMove_of_ok step, List.append_assoc, ← describes_append]
    rfl

theorem seekTo_eq_ok {pos : Nat} (fits : pos < 2 ^ 63) : seekTo pos = .ok () := if_pos fits

theorem appendBytes_eq_ok {bytes : List UInt8} (fits : (done ++ bytes).length < 2 ^ 63) :
    appendBytes done bytes = .ok (done ++ bytes) :=
  if_pos (lt_trans fits (by omega))

/-- A frame whose offset and output lie within what a file can hold is not refused. -/
theorem appendMove_eq_ok {payload : DetailPayload} (moves : payload.Moves)
    (offsets : ∀ offset len, payload = .diffCopy offset len → offset < 2 ^ 63)
    (fits : (done ++ describes old [payload]).length < 2 ^ 63) :
    appendMove old done payload = .ok (done ++ describes old [payload]) := by
  have starts : done.length < 2 ^ 63 := by
    rw [List.length_append] at fits
    omega
  cases payload with
  | diffCopy offset len =>
    simp only [describes, List.append_nil] at fits ⊢
    simp only [appendMove, seekTo_eq_ok (offsets _ _ rfl), seekTo_eq_ok starts,
      appendBytes_eq_ok fits, ok_bind]
  | diffBytes bytes =>
    simp only [describes, List.append_nil] at fits ⊢
    simp only [appendMove, seekTo_eq_ok starts, appendBytes_eq_ok fits, ok_bind]
  | _ => cases moves

theorem foldlM_appendMove_eq_ok {frames : List DetailPayload}
    (moves : ∀ payload ∈ frames, payload.Moves)
    (offsets : ∀ offset len, .diffCopy offset len ∈ frames → offset < 2 ^ 63)
    (fits : (done ++ describes old frames).length < 2 ^ 63) :
    frames.foldlM (appendMove old) done = .ok (done ++ describes old frames) := by
  induction frames generalizing done with
  | nil => exact congrArg Except.ok (by simp [describes])
  | cons payload frames ih =>
    have here : describes old (payload :: frames) =
        describes old [payload] ++ describes old frames := describes_append old [payload] frames
    rw [here, ← List.append_assoc] at fits ⊢
    have ends : (done ++ describes old [payload]).length < 2 ^ 63 := by
      rw [List.length_append] at fits
      omega
    have step := appendMove_eq_ok (moves _ List.mem_cons_self)
      (fun offset len eq => offsets offset len (eq ▸ List.mem_cons_self)) ends
    rw [List.foldlM_cons, step]
    exact ih (fun later mem => moves later (List.mem_cons_of_mem _ mem))
      (fun offset len mem => offsets offset len (List.mem_cons_of_mem _ mem)) fits

end Refinement

/-! ## The result -/

/-- A diff leaves the same output at the same position and feeds the verifier the same
bytes, or fails with the same error, whether it is applied to a clone of the old file or
to an empty output, however reads are split. It fails for no frames whose offsets and
output a file can hold, and what it leaves is what the frames describe. -/
theorem cloneBacked_eq_materialised (old : List UInt8) (frames : List DetailPayload)
    (moves : ∀ payload ∈ frames, payload.Moves) (plan plan' : List Nat) :
    applyDiff old true plan frames = applyDiff old false plan' frames ∧
      (∀ applied, applyDiff old true plan frames = .ok applied →
        applied = ⟨describes old frames, (describes old frames).length, describes old frames⟩) ∧
      ((∀ offset len, .diffCopy offset len ∈ frames → offset < 2 ^ 63) →
        (describes old frames).length < 2 ^ 63 →
        ∃ applied, applyDiff old true plan frames = .ok applied) := by
  rw [applyDiff_eq, applyDiff_eq]
  refine ⟨rfl, ?_, ?_⟩
  · intro applied run
    cases spec : frames.foldlM (appendMove old) [] with
    | error e =>
      rw [spec] at run
      cases run
    | ok done =>
      rw [spec] at run
      cases run
      rw [show done = describes old frames from foldlM_appendMove_of_ok spec]
  · intro offsets fits
    have run : frames.foldlM (appendMove old) [] = .ok ([] ++ describes old frames) :=
      foldlM_appendMove_eq_ok moves offsets fits
    rw [run]
    exact ⟨_, rfl⟩

/-- A copy in place, one that is moved and runs past the end, and a literal between. -/
theorem cloneBacked_eq_materialised_moved :
    applyDiff [1, 2, 3] true [1] [.diffCopy 0 2, .diffBytes [9], .diffCopy 1 7] =
      applyDiff [1, 2, 3] false [] [.diffCopy 0 2, .diffBytes [9], .diffCopy 1 7] :=
  (cloneBacked_eq_materialised [1, 2, 3] [.diffCopy 0 2, .diffBytes [9], .diffCopy 1 7]
    (by simp [DetailPayload.Moves]) [1] []).1

end Duet

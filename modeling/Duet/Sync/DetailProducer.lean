import Duet.Lib.Source
import Duet.Sync.DetailKind
import Duet.Sync.DiffStream
import Duet.Sync.Validate

/-!
# The detail producer

The sending side turns its actions into frames on demand: the pieces of a file as it is
read, and the frames that a comparing thread sends for a diff. Frames are asked for one at
a time or in batches; one that does not fit into a batch is kept for the next.
-/

namespace Duet.Detail

open Lib Rustsync

/-- Why no frame comes. -/
inductive ProducerError where
  | invalidPath (cause : ValidationError)
  /-- the file cannot be opened or read -/
  | unreadable (path : Path)
  /-- detail diff stream ended without DiffEnd -/
  | endedWithoutDiffEnd
  | diffFailed (message : String)
  /-- missing signature for -/
  | missingSignature (path : Path)
  /-- signature path mismatch: expected, got -/
  | signaturePathMismatch (expected got : Path)
  /-- invalid signature window for -/
  | invalidWindow (path : Path) (message : String)
  /-- unexpected signature for -/
  | unexpectedSignature (path : Path)

/-- The files of the sending side: how one is read and how long it claims to be, and at
which number of bytes left a read fails. -/
structure SourceFiles where
  hashing : Hashing
  opens : Path → Option (Reader UInt8 × Nat)
  readFails : Path → Nat → Bool

/-- A file that is being read, or what the thread of a diff still sends. -/
inductive ProducerState where
  | file (actionIndex : UInt32) (path : Path) (file : Reader UInt8) (remaining : Nat)
  | diff (received : List (Except ProducerError DetailFrame))

structure DetailProducer where
  actions : Actions
  signatures : List (Path × Signature)
  maxChunkBytes : Nat
  actionIndex : Nat
  signatureIndex : Nat
  pending : List DetailFrame
  state : Option ProducerState

def DetailProducer.new (actions : Actions) (signatures : List (Path × Signature))
    (maxChunkBytes : Nat) : DetailProducer :=
  ⟨actions, signatures, max maxChunkBytes 1, 0, 0, [], none⟩

abbrev Producing (α : Type) := Effect ProducerError DetailProducer α

def detailPayloadBytes : DetailPayload → Nat
  | .fileBytes bytes | .diffBytes bytes => bytes.length
  | _ => 0

section Frames

variable (files : SourceFiles)

/-- The path of a file that is served; a path is relative to the base here. -/
def sourcePath (path : Path) : Except ProducerError Path :=
  match validateRelativePath path with
  | .ok () => .ok path
  | .error cause => .error (.invalidPath cause)

def openSource (path : Path) : Except ProducerError (Reader UInt8 × Nat) :=
  match files.opens path with
  | some opened => .ok opened
  | none => .error (.unreadable path)

/-- What the thread of a diff sends before it hangs up: all frames, or an error. -/
def diffFrames (actionIndex : UInt32) (path : Path) (signature : Signature) (maxChunkBytes : Nat) :
    List (Except ProducerError DetailFrame) :=
  match openSource files path with
  | .error cause => [.error cause]
  | .ok (file, _) =>
    match streamDiffFrames files.hashing file actionIndex signature maxChunkBytes with
    | .ok frames => frames.map .ok
    | .error message => [.error (.diffFailed message)]

/-- The next piece of a file, or its end. -/
def nextFileFrame (actionIndex : UInt32) (path : Path) (file : Reader UInt8) (remaining : Nat) :
    Producing (Option DetailFrame) :=
  if remaining = 0 then pure (some ⟨actionIndex, .fileEnd⟩)
  else if files.readFails path remaining then Effect.fail (.unreadable path)
  else do
    let producer ← Effect.read
    match file.read (min remaining producer.maxChunkBytes) with
    | ([], _) => pure (some ⟨actionIndex, .fileEnd⟩)
    | (byte :: bytes, file') =>
      let buf := byte :: bytes
      Effect.write { producer with
        state := some (.file actionIndex path file' (remaining - buf.length)) }
      pure (some ⟨actionIndex, .fileBytes buf⟩)

/-- The next frame of a diff. The last one ends it. -/
def nextDiffFrame : List (Except ProducerError DetailFrame) → Producing (Option DetailFrame)
  | .ok frame :: received =>
    if frame.payload = .diffEnd then pure (some frame)
    else do
      let producer ← Effect.read
      Effect.write { producer with state := some (.diff received) }
      pure (some frame)
  | .error cause :: _ => Effect.fail cause
  | [] => Effect.fail .endedWithoutDiffEnd

/-- The signature that the other side sent for a diff. -/
def expectSignature (producer : DetailProducer) (path : Path) : Except ProducerError Signature :=
  match producer.signatures[producer.signatureIndex]? with
  | none => .error (.missingSignature path)
  | some (signaturePath, signature) =>
    if signaturePath ≠ path then .error (.signaturePathMismatch path signaturePath)
    else match validateSignatureWindow signature.window with
      | .ok () => .ok signature
      | .error message => .error (.invalidWindow signaturePath message)

def beginDetailFrames (actionIndex : UInt32) : SourceDetailKind → Producing (Option DetailFrame)
  | .file path => do
    let path ← Effect.check (sourcePath path)
    let opened ← Effect.check (openSource files path)
    let producer ← Effect.read
    Effect.write { producer with state := some (.file actionIndex path opened.1 opened.2) }
    pure (some ⟨actionIndex, .fileBegin⟩)
  | .diff path => do
    let producer ← Effect.read
    let signature ← Effect.check (expectSignature producer path)
    Effect.write { producer with signatureIndex := producer.signatureIndex + 1 }
    let path ← Effect.check (sourcePath path)
    let producer ← Effect.read
    Effect.write { producer with
      state := some (.diff
        (diffFrames files actionIndex path signature producer.maxChunkBytes)) }
    pure (some ⟨actionIndex, .diffBegin⟩)

/-- The loop over the actions that are left. -/
def nextDetail : Actions → Producing (Option DetailFrame)
  | [] => do
    let producer ← Effect.read
    match producer.signatures[producer.signatureIndex]? with
    | some extra => Effect.fail (.unexpectedSignature extra.1)
    | none => pure none
  | action :: later => do
    let producer ← Effect.read
    Effect.write { producer with actionIndex := producer.actionIndex + 1 }
    match sourceDetailKind action with
    | none => nextDetail later
    | some kind => beginDetailFrames files (UInt32.ofNat producer.actionIndex) kind

def nextFrame : Producing (Option DetailFrame) := fun producer =>
  match producer.pending with
  | frame :: pending => (.ok (some frame), { producer with pending := pending })
  | [] =>
    match producer.state with
    | some (.file actionIndex path file remaining) =>
      nextFileFrame files actionIndex path file remaining { producer with state := none }
    | some (.diff received) => nextDiffFrame received { producer with state := none }
    | none => nextDetail files (producer.actions.drop producer.actionIndex) producer

end Frames

/-! ## The producer as a source -/

section Source

variable {files : SourceFiles} {producer next : DetailProducer}

/-- A step that answers with a frame or fails. -/
def Answers (m : Producing (Option DetailFrame)) : Prop :=
  ∀ producer, m.Ends (fun frame _ => frame.isSome) (fun _ _ => True) producer

theorem answers_nextFileFrame (actionIndex : UInt32) (path : Path) (file : Reader UInt8)
    (remaining : Nat) : Answers (nextFileFrame files actionIndex path file remaining) := by
  intro producer
  unfold nextFileFrame
  split
  · exact rfl
  · split
    · trivial
    · rw [Effect.ends_bind, Effect.ends_read]
      split
      · exact rfl
      · exact rfl

theorem answers_nextDiffFrame (received : List (Except ProducerError DetailFrame)) :
    Answers (nextDiffFrame received) := by
  intro producer
  unfold nextDiffFrame
  split
  · split
    · exact rfl
    · exact rfl
  · trivial
  · trivial

theorem answers_bind {α : Type} {m : Producing α} {f : α → Producing (Option DetailFrame)}
    (rest : ∀ a, Answers (f a)) : Answers (m >>= f) := by
  intro producer
  rw [Effect.ends_bind]
  unfold Effect.Ends
  generalize m producer = run
  rcases run with ⟨e | a, t⟩
  · trivial
  · exact rest a t

theorem answers_beginDetailFrames (actionIndex : UInt32) (kind : SourceDetailKind) :
    Answers (beginDetailFrames files actionIndex kind) := by
  have frame : ∀ payload : DetailPayload,
      Answers (pure (some ⟨actionIndex, payload⟩)) := fun _ _ => rfl
  cases kind with
  | file path =>
    exact answers_bind fun _ => answers_bind fun _ => answers_bind fun _ => answers_bind fun _ =>
      frame _
  | diff path =>
    exact answers_bind fun _ => answers_bind fun _ => answers_bind fun _ => answers_bind fun _ =>
      answers_bind fun _ => answers_bind fun _ => frame _

/-- When no frame is left, all actions are passed. -/
theorem ends_nextDetail (left : Actions) (producer : DetailProducer) :
    (nextDetail files left).Ends
      (fun frame next => frame = none →
        next = { producer with actionIndex := producer.actionIndex + left.length } ∧
          producer.signatures[producer.signatureIndex]? = none)
      (fun _ _ => True) producer := by
  induction left generalizing producer with
  | nil =>
    unfold nextDetail
    rw [Effect.ends_bind, Effect.ends_read]
    cases extra : producer.signatures[producer.signatureIndex]? with
    | some signature => trivial
    | none => exact fun _ => ⟨rfl, rfl⟩
  | cons action later ih =>
    unfold nextDetail
    rw [Effect.ends_bind, Effect.ends_read, Effect.ends_bind, Effect.ends_write]
    cases sourceDetailKind action with
    | none =>
      refine (ih _).mono (fun frame next passed exhausted => ?_) fun _ _ => id
      obtain ⟨eq, noExtra⟩ := passed exhausted
      refine ⟨?_, noExtra⟩
      rw [eq, List.length_cons, Nat.add_right_comm, Nat.add_assoc]
    | some kind =>
      refine (answers_beginDetailFrames _ kind _).mono (fun frame next answered exhausted => ?_)
        fun _ _ => id
      rw [exhausted] at answered
      cases answered

/-- An exhausted producer stays exhausted. -/
theorem nextFrame_stays (exhausted : nextFrame files producer = (.ok none, next)) :
    nextFrame files next = (.ok none, next) := by
  unfold nextFrame at exhausted
  split at exhausted
  · cases exhausted
  · next noPending =>
    split at exhausted
    · have answered := (answers_nextFileFrame _ _ _ _ _).of_ok exhausted
      cases answered
    · have answered := (answers_nextDiffFrame _ _).of_ok exhausted
      cases answered
    · next idle =>
      obtain ⟨rfl, noExtra⟩ := (ends_nextDetail _ producer).of_ok exhausted rfl
      unfold nextFrame
      have passed : producer.actions.drop (producer.actionIndex +
          (producer.actions.drop producer.actionIndex).length) = [] := by
        refine List.drop_eq_nil_of_le ?_
        rw [List.length_drop]
        omega
      simp only [noPending, idle, passed]
      simp only [nextDetail, bind, Effect.bind, Effect.read, noExtra, pure]

/-- The producer is a source; a frame is put back at the front of the pending ones. -/
def frameSource (files : SourceFiles) : Source ProducerError DetailProducer DetailFrame where
  next := nextFrame files
  unread frame producer := { producer with pending := frame :: producer.pending }
  next_unread _ _ := rfl
  stays _ _ := nextFrame_stays

/-- `next_frames`: a batch with at least one frame and one byte of room. -/
def nextFrames (files : SourceFiles) (limits : Nat × Nat) : Producing (List DetailFrame) :=
  (frameSource files).batch (fun frame => detailPayloadBytes frame.payload)
    (max limits.1 1, max limits.2 1)

end Source

end Duet.Detail

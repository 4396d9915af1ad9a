import Duet.FrameAcceptance

/-!
# What the stored outputs hold

A finished output waits in the batch or is in the slot of its action. It holds what the frames of
its action produced, and every action whose group has ended has one.
-/

namespace Duet.Detail

open Lib

section Stored

variable {files : OutputFiles} {hashes : ContentHashes} {applier next : DetailApplier}

/-- A finished output of an action, in the batch or in its slot. -/
def DetailApplier.Stored (applier : DetailApplier) (index : Nat) (prepared : PreparedOutput) :
    Prop :=
  applier.preparedOutputs index = some prepared ∨
    ⟨index, prepared⟩ ∈ applier.outputBatch.pending

theorem DetailApplier.stored_of_outputs (same : next.outputs = applier.outputs) (index : Nat)
    (prepared : PreparedOutput) : next.Stored index prepared ↔ applier.Stored index prepared := by
  obtain ⟨pending, slots⟩ := Prod.mk.inj same
  unfold Stored
  rw [pending, slots]

/-- A step that leaves the finished outputs finished, and adds none. -/
def KeepsStored {α : Type} (m : Applying α) (applier : DetailApplier) : Prop :=
  m.Ends (fun _ next => next.progress = applier.progress ∧
    ∀ index prepared, next.Stored index prepared ↔ applier.Stored index prepared)
    (fun _ _ => True) applier

theorem Quiet.keepsStored {α : Type} {m : Applying α} (quiet : Quiet files m)
    (applier : DetailApplier) : KeepsStored m applier :=
  (quiet applier).mono (fun _ _ same => ⟨same.1, DetailApplier.stored_of_outputs same.2⟩)
    fun _ _ _ => trivial

theorem KeepsStored.bind {α β : Type} {m : Applying α} {f : α → Applying β}
    (first : KeepsStored m applier) (rest : ∀ a next, KeepsStored (f a) next) :
    KeepsStored (m >>= f) applier := by
  unfold KeepsStored
  rw [Effect.ends_bind]
  refine first.mono (fun a next same => ?_) fun _ _ => id
  refine (rest a next).mono (fun _ last same' => ?_) fun _ _ => id
  exact ⟨same'.1.trans same.1, fun index prepared =>
    (same'.2 index prepared).trans (same.2 index prepared)⟩

/-- While slots are filled, the finished outputs are those in slots and those that are left. -/
structure Moving (applier : DetailApplier) (left : List PendingOutput) (now : DetailApplier) :
    Prop where
  progress : now.progress = applier.progress
  pending : now.outputBatch.pending = []
  stored : ∀ index prepared,
    (now.preparedOutputs index = some prepared ∨ ⟨index, prepared⟩ ∈ left) ↔
      applier.Stored index prepared

theorem Moving.of_quiet {left : List PendingOutput} {now : DetailApplier}
    (moving : Moving applier left now) (progress : next.progress = now.progress)
    (outputs : next.outputs = now.outputs) : Moving applier left next := by
  obtain ⟨pending, slots⟩ := Prod.mk.inj outputs
  refine ⟨progress.trans moving.progress, pending.trans moving.pending, ?_⟩
  rw [slots]
  exact moving.stored

/-- An output moves to its slot, which was free. -/
theorem Moving.fillSlot {item : PendingOutput} {left : List PendingOutput} {now : DetailApplier}
    (moving : Moving applier (item :: left) now) :
    (Detail.fillSlot files item).Ends (fun _ after => Moving applier left after)
      (fun _ _ => True) now := by
  unfold Detail.fillSlot
  rw [Effect.ends_bind]
  refine (quiet_outputCall _ now).mono (fun _ called same => ?_) fun _ _ _ => trivial
  obtain ⟨progress, pending, stored⟩ := moving.of_quiet same.1 same.2
  simp only [Effect.ends_bind, Effect.ends_read, Effect.ends_write]
  split
  · trivial
  · next free =>
    have none : called.preparedOutputs item.actionIndex = none := by simpa using free
    refine ⟨progress, pending, fun index prepared => ?_⟩
    rw [← stored, List.mem_cons]
    dsimp only
    by_cases own : index = item.actionIndex
    · subst own
      rw [Function.update_self, none, Option.some.injEq]
      constructor
      · intro found
        rcases found with rfl | mem
        · exact Or.inr (Or.inl rfl)
        · exact Or.inr (Or.inr mem)
      · intro found
        rcases found with taken | same | mem
        · cases taken
        · exact Or.inl (congrArg PendingOutput.prepared same).symm
        · exact Or.inr mem
    · rw [Function.update_of_ne own]
      constructor
      · intro found
        rcases found with taken | mem
        · exact Or.inl taken
        · exact Or.inr (Or.inr mem)
      · intro found
        rcases found with taken | same | mem
        · exact Or.inl taken
        · exact absurd (congrArg PendingOutput.actionIndex same) own
        · exact Or.inr mem

/-- Sealing moves all finished outputs to their slots. -/
theorem ends_sealInto_stored (files : OutputFiles) (applier : DetailApplier) :
    (sealInto files).Ends (fun _ next => next.progress = applier.progress ∧
      next.outputBatch.pending = [] ∧
      ∀ index prepared, next.Stored index prepared ↔ applier.Stored index prepared)
      (fun _ _ => True) applier := by
  unfold sealInto
  rw [Effect.ends_bind, Effect.ends_read]
  dsimp only
  split
  · next empty => exact ⟨rfl, List.isEmpty_iff.mp empty, fun _ _ => Iff.rfl⟩
  · have start : Moving applier applier.outputBatch.pending { applier with
        outputBatch := { applier.outputBatch with pending := [], pendingBytes := 0 } } :=
      ⟨rfl, rfl, fun _ _ => Iff.rfl⟩
    rw [Effect.ends_bind, Effect.ends_write, Effect.ends_bind]
    refine (quiet_forM (fun item => quiet_outputCall _) _ _).mono (fun _ synced same => ?_)
      fun _ _ _ => trivial
    have moving := start.of_quiet same.1 same.2
    rw [Effect.ends_bind]
    refine (quiet_syncMarker synced).mono (fun _ marked same => ?_) fun _ _ _ => trivial
    have moved : (forM applier.outputBatch.pending (Detail.fillSlot files)).Ends
        (fun _ after => Moving applier [] after) (fun _ _ => True) marked :=
      Effect.ends_forM (moving.of_quiet same.1 same.2) fun item rest now _ moving =>
        moving.fillSlot
    refine moved.mono (fun _ done moving => ⟨moving.progress, moving.pending, ?_⟩) fun _ _ => id
    intro index prepared
    rw [← moving.stored]
    unfold DetailApplier.Stored
    rw [moving.pending]

theorem ends_sealOutputs_stored (files : OutputFiles) (applier : DetailApplier) :
    (sealOutputs files).Ends (fun _ next => next.progress = applier.progress ∧
      next.outputBatch.pending = [] ∧
      ∀ index prepared, next.Stored index prepared ↔ applier.Stored index prepared)
      (fun _ _ => True) applier := by
  unfold sealOutputs
  rw [Effect.ends_bind]
  refine (ends_sealInto_stored files applier).mono (fun _ done holds => ?_) fun _ _ => id
  obtain ⟨progress, pending, stored⟩ := holds
  refine (quiet_recheckSpace done).mono (fun _ next same => ?_) fun _ _ _ => trivial
  refine ⟨same.1.trans progress, ?_, fun index prepared => ?_⟩
  · exact (congrArg Prod.fst same.2).trans pending
  · exact (DetailApplier.stored_of_outputs same.2 index prepared).trans (stored index prepared)

theorem keepsStored_flushBeforeOutput (files : OutputFiles) (bytes : Nat)
    (applier : DetailApplier) : KeepsStored (flushBeforeOutput files bytes) applier := by
  unfold KeepsStored flushBeforeOutput
  rw [Effect.ends_bind, Effect.ends_read]
  split
  · refine (ends_sealOutputs_stored files applier).mono (fun _ next holds => ?_) fun _ _ => id
    exact ⟨holds.1, holds.2.2⟩
  · exact ⟨rfl, fun _ _ => Iff.rfl⟩

/-- A prepared output is the one that was given. -/
theorem ends_prepareOutput (files : OutputFiles) (output : TempOutput) (action : Action)
    (entry : DirEntryWithMeta) (applier : DetailApplier) :
    (prepareOutput files output action entry).Ends
      (fun prepared next => prepared.output = output ∧ next.progress = applier.progress ∧
        next.outputs = applier.outputs) (fun _ _ => True) applier := by
  unfold prepareOutput
  rw [Effect.ends_bind]
  refine (quiet_outputCall _ applier).mono (fun _ called same => ?_) fun _ _ _ => trivial
  rw [Effect.ends_bind, Effect.ends_read]
  exact ⟨rfl, same⟩

/-- A finished output is stored with the contents that it has. -/
theorem ends_finishOutput_stored (files : OutputFiles) (hashes : ContentHashes) (index : Nat)
    (action : Action) (output : TempOutput) (verifier : StreamedOutputVerifier)
    (applier : DetailApplier) :
    (finishOutput files hashes index action output verifier).Ends
      (fun _ next => next.progress = (applier.actions, index + 1, none, applier.failed) ∧
        ∃ prepared, prepared.output = output ∧ ∀ other stored, next.Stored other stored ↔
          applier.Stored other stored ∨ (other = index ∧ stored = prepared))
      (fun _ _ => True) applier := by
  unfold finishOutput applierUpdate
  simp only [Effect.ends_bind, Effect.ends_read, Effect.ends_write]
  cases finishedEntry action with
  | error cause => trivial
  | ok entry =>
    simp only [Effect.ends_check_ok, Effect.ends_bind]
    cases verifyContents hashes entry verifier.fed with
    | error mismatch => trivial
    | ok done =>
      simp only [ContentMismatch.wrap, Effect.ends_check_ok, Effect.ends_bind]
      refine (ends_prepareOutput files output action entry _).mono ?_ fun _ _ => id
      intro prepared called made
      obtain ⟨output_eq, progress, outputs⟩ := made
      obtain ⟨actions, -, idle, fresh⟩ := DetailApplier.progress_eq_iff.mp progress
      simp only [Effect.ends_bind, Effect.ends_read, Effect.ends_write]
      have pushed : ∀ other stored, DetailApplier.Stored { called with
            outputBatch := called.outputBatch.push ⟨index, prepared⟩
            actionIndex := index + 1 } other stored ↔
          applier.Stored other stored ∨ (other = index ∧ stored = prepared) := by
        intro other stored
        have before : called.Stored other stored ↔ applier.Stored other stored :=
          DetailApplier.stored_of_outputs outputs other stored
        rw [← before]
        unfold DetailApplier.Stored FilePublicationBatch.push
        simp only [List.mem_append, List.mem_singleton, PendingOutput.mk.injEq, or_assoc]
      split
      · refine (ends_sealOutputs_stored files _).mono (fun _ last holds => ?_) fun _ _ => id
        obtain ⟨progress', -, stored'⟩ := holds
        refine ⟨progress'.trans ?_, prepared, output_eq, fun other stored => ?_⟩
        · simp only [DetailApplier.progress, actions, idle, fresh]
        · exact (stored' other stored).trans (pushed other stored)
      · refine ⟨?_, prepared, output_eq, pushed⟩
        simp only [DetailApplier.progress, actions, idle, fresh]

end Stored

/-! ## What the frames of an action produced -/

section Contents

variable (files : OutputFiles) (actions : Actions)

/-- The old file that the frames of an action may copy from. -/
def oldFor (index : Nat) : List UInt8 :=
  match actions[index]?.map actionOutputEntry with
  | some (.ok entry) => files.contents entry.path
  | _ => []

/-- What the frames of an action produced so far. -/
def producedFor (frames : List DetailFrame) (index : Nat) : List UInt8 :=
  (frames.filter fun frame => frame.actionIndex.toNat = index).flatMap
    fun frame => produces (oldFor files actions index) frame.payload

def IsEnd (payload : DetailPayload) : Prop := ∃ kind, payload = ends kind

end Contents

section Contents

variable {files : OutputFiles} {actions : Actions} {frames : List DetailFrame}
  {frame : DetailFrame} {index : Nat}

theorem producedFor_here (here : frame.actionIndex.toNat = index) :
    producedFor files actions (frames ++ [frame]) index =
      producedFor files actions frames index ++
        produces (oldFor files actions index) frame.payload := by
  simp [producedFor, here]

theorem producedFor_other (other : frame.actionIndex.toNat ≠ index) :
    producedFor files actions (frames ++ [frame]) index = producedFor files actions frames index := by
  simp [producedFor, other]

/-- Nothing is produced for an action that no frame was for. -/
theorem producedFor_none (none : ∀ frame ∈ frames, frame.actionIndex.toNat ≠ index) :
    producedFor files actions frames index = [] := by
  have empty : (frames.filter fun frame => frame.actionIndex.toNat = index) = [] := by
    rw [List.filter_eq_nil_iff]
    intro frame mem
    simpa using none frame mem
  rw [producedFor, empty]
  rfl

end Contents

/-! ## One frame -/

section Frames

variable {files : OutputFiles} {hashes : ContentHashes} {actions : Actions}
  {frames : List DetailFrame} {frame : DetailFrame} {applier next : DetailApplier} {index : Nat}
  {action : Action}

/-- The output in progress holds what its frames produced, and it is the last one. -/
def InProgress (files : OutputFiles) (actions : Actions) (frames : List DetailFrame)
    (applier : DetailApplier) : Prop :=
  match applier.state with
  | none => ∀ frame ∈ frames, frame.actionIndex.toNat < applier.actionIndex
  | some (.file index output _) => index = applier.actionIndex ∧
    (∀ frame ∈ frames, frame.actionIndex.toNat ≤ index) ∧
      output.file = producedFor files actions frames index
  | some (.diff index _ diff) => index = applier.actionIndex ∧
    (∀ frame ∈ frames, frame.actionIndex.toNat ≤ index) ∧
      diff.verifier.fed = producedFor files actions frames index ∧
      diff.Written (oldFor files actions index) diff.verifier.fed

/-- The finished outputs are those of the groups that ended, and hold what these produced. -/
structure Storing (files : OutputFiles) (actions : Actions) (frames : List DetailFrame)
    (applier : DetailApplier) : Prop where
  same : applier.actions = actions
  contents : ∀ index prepared, applier.Stored index prepared →
    prepared.output.file = producedFor files actions frames index ∧ index < applier.actionIndex ∧
      ∃ frame ∈ frames, frame.actionIndex.toNat = index
  ended : ∀ frame ∈ frames, IsEnd frame.payload →
    ∃ prepared, applier.Stored frame.actionIndex.toNat prepared
  inProgress : InProgress files actions frames applier

/-- What a step of a frame has to reach. -/
def Stores (files : OutputFiles) (actions : Actions) (frames : List DetailFrame)
    (m : Applying Unit) (applier : DetailApplier) : Prop :=
  m.Ends (fun _ next => Storing files actions frames next) (fun _ _ => True) applier

theorem stores_fail (error : DetailError) :
    Stores files actions frames (Effect.fail error) applier :=
  trivial

/-- A check either goes on or fails. -/
theorem stores_check {α : Type} {x : Except DetailError α} {f : α → Applying Unit}
    (rest : ∀ a, x = .ok a → Stores files actions frames (f a) applier) :
    Stores files actions frames (Effect.check x >>= f) applier := by
  unfold Stores
  rw [Effect.ends_bind]
  cases x with
  | ok a => exact rest a rfl
  | error cause => trivial

/-- What a step that keeps the finished outputs leaves is as good as what was there. -/
structure Alike (applier next : DetailApplier) : Prop where
  progress : next.progress = applier.progress
  stored : ∀ index prepared, next.Stored index prepared ↔ applier.Stored index prepared

theorem Alike.refl (applier : DetailApplier) : Alike applier applier := ⟨rfl, fun _ _ => Iff.rfl⟩

theorem Alike.trans {last : DetailApplier} (first : Alike applier next) (second : Alike next last) :
    Alike applier last :=
  ⟨second.progress.trans first.progress,
    fun index prepared => (second.stored index prepared).trans (first.stored index prepared)⟩

theorem Stores.bind {α : Type} {m : Applying α} {f : α → Applying Unit}
    (first : KeepsStored m applier)
    (rest : ∀ a next, Alike applier next → Stores files actions frames (f a) next) :
    Stores files actions frames (m >>= f) applier := by
  unfold Stores
  rw [Effect.ends_bind]
  exact first.mono (fun a next same => rest a next ⟨same.1, same.2⟩) fun _ _ => id

/-- A frame of the output in progress, or the begin of one, changes no finished output. -/
theorem Storing.grow (storing : Storing files actions frames applier) (alike : Alike applier next)
    (here : frame.actionIndex.toNat = index) (current : applier.actionIndex = index)
    (piece : ¬ IsEnd frame.payload) (state : ApplyState)
    (inProgress : InProgress files actions (frames ++ [frame])
      { next with state := some state }) :
    Storing files actions (frames ++ [frame]) { next with state := some state } := by
  obtain ⟨actions_eq, current_eq, -, -⟩ := DetailApplier.progress_eq_iff.mp alike.progress
  refine ⟨actions_eq.trans storing.same, ?_, ?_, inProgress⟩
  · intro other prepared stored
    obtain ⟨contents, earlier, old, mem, index_eq⟩ :=
      storing.contents other prepared ((alike.stored other prepared).mp stored)
    have apart : frame.actionIndex.toNat ≠ other := by omega
    refine ⟨?_, ?_, old, List.mem_append_left _ mem, index_eq⟩
    · rw [producedFor_other apart]
      exact contents
    · exact current_eq ▸ earlier
  · intro other mem isEnd
    rcases List.mem_append.mp mem with old | last
    · obtain ⟨prepared, stored⟩ := storing.ended other old isEnd
      exact ⟨prepared, (alike.stored _ prepared).mpr stored⟩
    · rw [List.mem_singleton.mp last] at isEnd
      exact absurd isEnd piece

/-- The end of a group stores its output. -/
theorem Storing.finish (storing : Storing files actions frames applier)
    (here : frame.actionIndex.toNat = index) (current : applier.actionIndex = index)
    (earlier : ∀ frame ∈ frames, frame.actionIndex.toNat ≤ index)
    (nothing : produces (oldFor files actions index) frame.payload = [])
    {output : TempOutput} (contents : output.file = producedFor files actions frames index)
    (verifier : StreamedOutputVerifier) :
    Stores files actions (frames ++ [frame])
      (finishOutput files hashes index action output verifier) applier := by
  refine (ends_finishOutput_stored files hashes index action output verifier applier).mono ?_
    fun _ _ => id
  intro _ next holds
  obtain ⟨progress, prepared, output_eq, stored⟩ := holds
  obtain ⟨actions_eq, current_eq, idle, -⟩ := DetailApplier.progress_eq_iff.mp progress
  refine ⟨actions_eq.trans storing.same, ?_, ?_, ?_⟩
  · intro other found mem
    rcases (stored other found).mp mem with old | ⟨rfl, rfl⟩
    · obtain ⟨same, before, first, inFrames, index_eq⟩ := storing.contents other found old
      have apart : frame.actionIndex.toNat ≠ other := by omega
      refine ⟨?_, by omega, first, List.mem_append_left _ inFrames, index_eq⟩
      rw [producedFor_other apart]
      exact same
    · refine ⟨?_, by omega, frame, List.mem_append_right _ (List.mem_singleton_self _), here⟩
      rw [producedFor_here here, nothing, List.append_nil, output_eq]
      exact contents
  · intro other mem isEnd
    rcases List.mem_append.mp mem with old | last
    · obtain ⟨found, inOld⟩ := storing.ended other old isEnd
      exact ⟨found, (stored _ found).mpr (Or.inl inOld)⟩
    · rw [List.mem_singleton.mp last, here]
      exact ⟨prepared, (stored index prepared).mpr (Or.inr ⟨rfl, rfl⟩)⟩
  · unfold InProgress
    rw [idle]
    intro other mem
    rcases List.mem_append.mp mem with old | last
    · have := earlier other old
      omega
    · rw [List.mem_singleton.mp last]
      omega

theorem not_isEnd_piece (kind : ApplyDetailKind) {payload : DetailPayload}
    (piece : Piece kind payload) : ¬ IsEnd payload := by
  rintro ⟨other, rfl⟩
  cases kind <;> cases other <;> exact piece

theorem not_isEnd_begins (kind : ApplyDetailKind) : ¬ IsEnd (begins kind) := by
  rintro ⟨other, same⟩
  cases kind <;> cases other <;> cases same

theorem Storing.applyFilePayload (storing : Storing files actions frames applier)
    {output : TempOutput} {verifier : StreamedOutputVerifier}
    (state : applier.state = some (.file index output verifier))
    (here : frame.actionIndex.toNat = index) :
    Stores files actions (frames ++ [frame])
      (applyFilePayload files hashes index action output verifier frame.payload) applier := by
  have open_ := storing.inProgress
  unfold InProgress at open_
  rw [state] at open_
  obtain ⟨current, earlier, contents⟩ := open_
  cases payload : frame.payload with
  | fileBytes bytes =>
    have added : produces (oldFor files actions index) frame.payload = bytes := by
      rw [payload]
      rfl
    have piece : ¬ IsEnd frame.payload := by
      rw [payload]
      exact not_isEnd_piece .file trivial
    refine Stores.bind ((quiet_writeCalls _ _).keepsStored _) fun _ next alike => ?_
    refine stores_check fun _ fits => ?_
    unfold Stores applierUpdate
    rw [Effect.ends_bind, Effect.ends_read, Effect.ends_write]
    refine storing.grow alike here current.symm piece _ ?_
    obtain ⟨-, current_eq, -, -⟩ := DetailApplier.progress_eq_iff.mp alike.progress
    refine ⟨current.trans current_eq.symm, ?_, ?_⟩
    · intro other mem
      rcases List.mem_append.mp mem with old | last
      · exact earlier other old
      · rw [List.mem_singleton.mp last, here]
    · rw [producedFor_here here, added, ← contents]
  | fileEnd =>
    have nothing : produces (oldFor files actions index) frame.payload = [] := by
      rw [payload]
      rfl
    exact storing.finish here current.symm earlier nothing contents verifier
  | _ => exact stores_fail _

/-- A copy or a literal of a diff. -/
theorem Storing.moveDiff (storing : Storing files actions frames applier)
    (alike : Alike applier next) {path : Path} {diff : DiffState}
    (state : applier.state = some (.diff index path diff))
    (here : frame.actionIndex.toNat = index) (piece : Piece .diff frame.payload) :
    Stores files actions (frames ++ [frame])
      (do
        let moved ← Effect.check (moveDiff diff frame.payload)
        applierUpdate fun applier => { applier with state := some (.diff index path moved) })
      next := by
  have open_ := storing.inProgress
  unfold InProgress at open_
  rw [state] at open_
  obtain ⟨current, earlier, contents, written⟩ := open_
  refine stores_check fun moved step => ?_
  unfold Stores applierUpdate
  rw [Effect.ends_bind, Effect.ends_read, Effect.ends_write]
  refine storing.grow alike here current.symm (not_isEnd_piece .diff piece) _ ?_
  obtain ⟨-, current_eq, -, -⟩ := DetailApplier.progress_eq_iff.mp alike.progress
  rcases moveDiff_cases written piece with ⟨after, step', written', fed, -⟩ | ⟨e, step', -⟩
  · rw [step'] at step
    cases step
    refine ⟨current.trans current_eq.symm, ?_, ?_, written'⟩
    · intro other mem
      rcases List.mem_append.mp mem with old | last
      · exact earlier other old
      · rw [List.mem_singleton.mp last, here]
    · rw [producedFor_here here, ← contents]
      exact fed
  · rw [step'] at step
    cases step

theorem Storing.applyDiffPayload (storing : Storing files actions frames applier) {path : Path}
    {diff : DiffState} (state : applier.state = some (.diff index path diff))
    (here : frame.actionIndex.toNat = index) :
    Stores files actions (frames ++ [frame])
      (applyDiffPayload files hashes index action path diff frame.payload) applier := by
  cases payload : frame.payload with
  | diffCopy offset len =>
    have piece : Piece .diff frame.payload := by
      rw [payload]
      trivial
    refine Stores.bind ((quiet_copyCalls _ _ _ _).keepsStored _) fun _ next alike => ?_
    rw [← payload]
    exact storing.moveDiff alike state here piece
  | diffBytes bytes =>
    have piece : Piece .diff frame.payload := by
      rw [payload]
      trivial
    refine Stores.bind ((quiet_writeCalls _ _).keepsStored _) fun _ next alike => ?_
    rw [← payload]
    exact storing.moveDiff alike state here piece
  | diffEnd =>
    have open_ := storing.inProgress
    unfold InProgress at open_
    rw [state] at open_
    obtain ⟨current, earlier, contents, written⟩ := open_
    have nothing : produces (oldFor files actions index) frame.payload = [] := by
      rw [payload]
      rfl
    refine Stores.bind ((quiet_outputCall _).keepsStored _) fun _ next alike => ?_
    obtain ⟨actions_eq, current_eq, state_eq, -⟩ :=
      DetailApplier.progress_eq_iff.mp alike.progress
    have storing' : Storing files actions frames next := by
      refine ⟨actions_eq.trans storing.same, ?_, ?_, ?_⟩
      · intro other prepared stored
        rw [current_eq]
        exact storing.contents other prepared ((alike.stored other prepared).mp stored)
      · intro other mem isEnd
        obtain ⟨prepared, stored⟩ := storing.ended other mem isEnd
        exact ⟨prepared, (alike.stored _ prepared).mpr stored⟩
      · have open_ := storing.inProgress
        unfold InProgress at open_ ⊢
        rw [state_eq, current_eq]
        exact open_
    refine storing'.finish here (current_eq.trans current.symm) earlier nothing ?_ _
    rw [← contents]
    exact (setLen_of_le written.inside).trans written.output
  | _ => exact stores_fail _

theorem oldFor_eq {entry : DirEntryWithMeta} (found : actions[index]? = some action)
    (output : actionOutputEntry action = .ok entry) :
    oldFor files actions index = files.contents entry.path := by
  unfold oldFor
  rw [found, Option.map_some, output]

/-- The file of an output is at the path of its entry. -/
theorem path_of_detailFilename {entry : DirEntryWithMeta} {path : Path}
    (output : actionOutputEntry action = .ok entry) (named : detailFilename action = .ok path) :
    path = entry.path := by
  rw [detailFilename_of_output output] at named
  cases valid : validateRelativePath entry.path with
  | ok done =>
    rw [valid] at named
    exact (Except.ok.inj named).symm
  | error cause =>
    rw [valid] at named
    cases named

/-- What an idle applier keeps while it goes on to a later action. -/
theorem Storing.advance (storing : Storing files actions frames applier)
    (idle : applier.state = none) (later : applier.actionIndex ≤ index) :
    Storing files actions frames { applier with actionIndex := index } := by
  refine ⟨storing.same, ?_, storing.ended, ?_⟩
  · intro other prepared stored
    obtain ⟨contents, before, frame⟩ := storing.contents other prepared stored
    exact ⟨contents, Nat.lt_of_lt_of_le before later, frame⟩
  · have open_ := storing.inProgress
    unfold InProgress at open_ ⊢
    rw [idle] at open_
    simp only [idle]
    intro other mem
    exact Nat.lt_of_lt_of_le (open_ other mem) later

/-- No frame was for an action that begins. -/
theorem Storing.none_before (storing : Storing files actions frames applier)
    (idle : applier.state = none) (current : applier.actionIndex = index) :
    (∀ other ∈ frames, other.actionIndex.toNat ≤ index) ∧
      producedFor files actions frames index = [] := by
  have open_ := storing.inProgress
  unfold InProgress at open_
  rw [idle] at open_
  constructor
  · intro other mem
    exact Nat.le_of_lt (current ▸ open_ other mem)
  · refine producedFor_none fun other mem => ?_
    have := open_ other mem
    omega

/-- The state that a begin leaves. -/
theorem Storing.begin_ (storing : Storing files actions frames applier)
    (idle : applier.state = none) (alike : Alike applier next)
    (here : frame.actionIndex.toNat = index) (current : applier.actionIndex = index)
    (kind : ApplyDetailKind) (first : frame.payload = begins kind) (state : ApplyState)
    (started : (∃ path, state = .file index ⟨path, []⟩ ⟨[]⟩) ∨
      ∃ path clone plan, state = .diff index path
        (.begin (oldFor files actions index) clone plan)) :
    Storing files actions (frames ++ [frame]) { next with state := some state } := by
  have piece : ¬ IsEnd frame.payload := by
    rw [first]
    exact not_isEnd_begins kind
  obtain ⟨-, current_eq, -, -⟩ := DetailApplier.progress_eq_iff.mp alike.progress
  obtain ⟨earlier, none⟩ := storing.none_before idle current
  have all : ∀ other ∈ frames ++ [frame], other.actionIndex.toNat ≤ index := by
    intro other mem
    rcases List.mem_append.mp mem with old | last
    · exact earlier other old
    · rw [List.mem_singleton.mp last, here]
  have nothing : producedFor files actions (frames ++ [frame]) index = [] := by
    rw [producedFor_here here, none, first]
    cases kind <;> rfl
  refine storing.grow alike here current piece state ?_
  rcases started with ⟨path, rfl⟩ | ⟨path, clone, plan, rfl⟩
  · exact ⟨(current_eq.trans current).symm, all, nothing.symm⟩
  · exact ⟨(current_eq.trans current).symm, all, nothing.symm, DiffState.written_begin _ _ _⟩

theorem Storing.beginDetail (storing : Storing files actions frames applier)
    (idle : applier.state = none) (found : actions[index]? = some action)
    (here : frame.actionIndex.toNat = index) (current : applier.actionIndex = index) :
    Stores files actions (frames ++ [frame])
      (beginDetail files hashes index action frame.payload) applier := by
  unfold Detail.beginDetail
  split
  · next first detail =>
    unfold beginFileDetail
    refine stores_check fun entry output => ?_
    refine Stores.bind (keepsStored_flushBeforeOutput files _ _) fun _ flushed alike => ?_
    refine stores_check fun path named => ?_
    refine Stores.bind ((quiet_newOutput _).keepsStored _) fun _ created alike' => ?_
    exact storing.begin_ idle (alike.trans alike') here current .file first _
      (Or.inl ⟨path, rfl⟩)
  · next first detail =>
    unfold beginDiffDetail
    refine stores_check fun entry output => ?_
    refine Stores.bind (keepsStored_flushBeforeOutput files _ _) fun _ flushed alike => ?_
    refine stores_check fun path named => ?_
    refine stores_check fun old oldEntry => ?_
    refine Stores.bind ((quiet_outputCall _).keepsStored _) fun _ opened alike' => ?_
    refine stores_check fun _ verified => ?_
    refine Stores.bind ((quiet_newOutput _).keepsStored _) fun _ created alike'' => ?_
    have same : files.contents path = oldFor files actions index := by
      rw [oldFor_eq found output, path_of_detailFilename output named]
    rw [same]
    exact storing.begin_ idle ((alike.trans alike').trans alike'') here current .diff
      first _ (Or.inr ⟨path, _, _, rfl⟩)
  · exact stores_fail _
  · exact stores_fail _
  · exact stores_fail _

/-- A frame that is accepted adds what it produced to the output of its action. -/
theorem Storing.applyFrame (hashes : ContentHashes)
    (storing : Storing files actions frames applier) :
    Stores files actions (frames ++ [frame]) (applyFrame files hashes frame) applier := by
  have inner : Stores files actions (frames ++ [frame])
      (applyFrameInner files hashes frame) applier := by
    unfold Stores applyFrameInner
    rw [Effect.ends_bind, Effect.ends_read]
    dsimp only
    rw [storing.same]
    cases found : actions[frame.actionIndex.toNat]? with
    | none => trivial
    | some action =>
      dsimp only
      unfold applyFrameFor
      cases state : applier.state with
      | none =>
        dsimp only
        split
        · trivial
        · next later =>
          have target : applier.actionIndex + (frame.actionIndex.toNat - applier.actionIndex) =
              frame.actionIndex.toNat := by omega
          unfold advanceToAction
          rw [Effect.ends_bind, Effect.ends_bind, Effect.ends_read]
          refine (ends_advanceActions files hashes _ _ applier).mono ?_ fun _ _ _ => trivial
          intro _ next passed
          rw [passed.1, target]
          exact (storing.advance state (Nat.not_lt.mp later)).beginDetail state found rfl rfl
      | some progress =>
        cases progress with
        | file index output verifier =>
          dsimp only
          split
          · trivial
          · next same =>
            exact storing.applyFilePayload state (not_not.mp same).symm
        | diff index path diff =>
          dsimp only
          split
          · trivial
          · next same =>
            exact storing.applyDiffPayload state (not_not.mp same).symm
  unfold Stores Effect.Ends at inner ⊢
  unfold Detail.applyFrame
  cases applier.failed with
  | some cause => trivial
  | none =>
    dsimp only
    generalize applyFrameInner files hashes frame applier = run at inner ⊢
    rcases run with ⟨cause | done, next⟩
    · trivial
    · exact inner

end Frames

/-! ## A stream -/

theorem storing_new (files : OutputFiles) (actions : Actions) (attemptId : Option String)
    (monitor : Bool) (config : OutputBatchConfig) :
    Storing files actions [] (DetailApplier.new actions attemptId monitor config) := by
  refine ⟨rfl, ?_, ?_, ?_⟩
  · intro index prepared stored
    rcases stored with slot | pending
    · cases slot
    · cases pending
  · intro frame mem
    cases mem
  · intro frame mem
    cases mem

/-- After a stream that is accepted to its end, the slots hold what the groups produced. -/
theorem ends_accept_stored (files : OutputFiles) (hashes : ContentHashes) (actions : Actions)
    {done frames : List DetailFrame} {applier : DetailApplier}
    (storing : Storing files actions done applier) :
    (accept (applyFrame files hashes) (finishOutputs files) frames).Ends
      (fun _ next => (∀ index prepared, next.preparedOutputs index = some prepared →
          prepared.output.file = producedFor files actions (done ++ frames) index ∧
            ∃ frame ∈ done ++ frames, frame.actionIndex.toNat = index) ∧
        ∀ frame ∈ done ++ frames, IsEnd frame.payload →
          ∃ prepared, next.preparedOutputs frame.actionIndex.toNat = some prepared)
      (fun _ _ => True) applier := by
  induction frames generalizing done applier with
  | nil =>
    rw [List.append_nil]
    change (finishOutputs files).Ends _ _ applier
    unfold finishOutputs
    rw [Effect.ends_bind, Effect.ends_read]
    split
    · trivial
    · split
      · trivial
      · unfold advanceToAction
        rw [Effect.ends_bind, Effect.ends_bind, Effect.ends_read]
        refine (ends_advanceActions files hashes _ _ applier).mono ?_ fun _ _ _ => trivial
        intro _ passed eq
        refine (ends_sealOutputs_stored files passed).mono ?_ fun _ _ => id
        intro _ last holds
        obtain ⟨-, pending, stored⟩ := holds
        have same : ∀ index prepared, last.preparedOutputs index = some prepared ↔
            applier.Stored index prepared := by
          intro index prepared
          rw [eq.1] at stored
          refine Iff.trans ?_ (stored index prepared)
          unfold DetailApplier.Stored
          rw [pending]
          simp
        constructor
        · intro index prepared slot
          obtain ⟨contents, -, frame⟩ := storing.contents index prepared ((same _ _).mp slot)
          exact ⟨contents, frame⟩
        · intro frame mem isEnd
          obtain ⟨prepared, stored'⟩ := storing.ended frame mem isEnd
          exact ⟨prepared, (same _ _).mpr stored'⟩
  | cons frame frames ih =>
    rw [ends_accept_cons]
    refine (storing.applyFrame hashes).mono (fun _ next after => ?_) fun _ _ => id
    have rest := ih after
    rw [List.append_assoc] at rest
    exact rest

end Duet.Detail

import Duet.Sync.DetailApplier

/-!
# Outputs that wait to be sealed

Sealing fills the slot of every pending output, and refuses one whose slot is taken. It
never is: pending outputs belong to different actions behind the current one, and slots
are filled only there.
-/

namespace Duet.Detail

open Lib

section Quiet

variable {files : OutputFiles} {α β : Type}

/-- The operating system refuses nothing. -/
def OutputFiles.Granting (files : OutputFiles) : Prop := ∀ n call, files.refuses n call = false

/-- What of the applier decides which frames may come. -/
def DetailApplier.progress (applier : DetailApplier) :
    Actions × Nat × Option ApplyState × Option DetailError :=
  (applier.actions, applier.actionIndex, applier.state, applier.failed)

theorem DetailApplier.progress_eq_iff {applier : DetailApplier} {actions : Actions} {index : Nat}
    {state : Option ApplyState} {failed : Option DetailError} :
    applier.progress = (actions, index, state, failed) ↔
      applier.actions = actions ∧ applier.actionIndex = index ∧ applier.state = state ∧
        applier.failed = failed := by
  simp [progress]

/-- The finished outputs. -/
def DetailApplier.outputs (applier : DetailApplier) :
    List PendingOutput × (Nat → Option PreparedOutput) :=
  (applier.outputBatch.pending, applier.preparedOutputs)

/-- A step that makes calls and nothing else that frames depend on, and that fails only when
a call is refused. -/
def Quiet (files : OutputFiles) (m : Applying α) : Prop :=
  ∀ applier, m.Ends
    (fun _ next => next.progress = applier.progress ∧ next.outputs = applier.outputs)
    (fun _ _ => ¬ files.Granting) applier

theorem quiet_pure (a : α) : Quiet files (pure a : Applying α) := fun _ => ⟨rfl, rfl⟩

theorem quiet_read : Quiet files (Effect.read : Applying DetailApplier) := fun _ => ⟨rfl, rfl⟩

theorem Quiet.bind {m : Applying α} {f : α → Applying β} (first : Quiet files m)
    (rest : ∀ a, Quiet files (f a)) : Quiet files (m >>= f) := by
  intro applier
  rw [Effect.ends_bind]
  refine (first applier).mono (fun a next same => ?_) fun _ _ => id
  refine (rest a next).mono (fun _ last same' => ?_) fun _ _ => id
  exact ⟨same'.1.trans same.1, same'.2.trans same.2⟩

theorem quiet_outputCall (call : OutputCall) : Quiet files (outputCall files call) := by
  intro applier
  unfold outputCall
  simp only [Effect.ends_bind, Effect.ends_read, Effect.ends_write]
  split
  · next refused =>
    intro granting
    rw [granting] at refused
    cases refused
  · exact ⟨rfl, rfl⟩

/-- A call that is made in some states only. -/
theorem quiet_ifCall (chosen : DetailApplier → Bool) (call : OutputCall) :
    Quiet files (do
      let applier ← Effect.read
      if chosen applier then outputCall files call else pure ()) := by
  refine quiet_read.bind fun applier => ?_
  split
  · exact quiet_outputCall call
  · exact quiet_pure ()

theorem quiet_checkSpace (path : Path) (bytes : Nat) : Quiet files (checkSpace files path bytes) :=
  quiet_ifCall _ _

theorem quiet_recheckSpace : Quiet files (recheckSpace files) := quiet_ifCall _ _

theorem quiet_syncMarker : Quiet files (syncMarker files) := quiet_ifCall _ _

theorem quiet_ensureStaging : Quiet files (ensureStaging files) := by
  refine quiet_read.bind fun applier => ?_
  split
  · exact quiet_pure ()
  · refine (quiet_outputCall _).bind fun _ => (quiet_outputCall _).bind fun _ => ?_
    exact fun _ => ⟨rfl, rfl⟩

theorem quiet_newOutput (path : Path) : Quiet files (newOutput files path) :=
  (quiet_checkSpace path 0).bind fun _ => quiet_ensureStaging.bind fun _ =>
    (quiet_outputCall _).bind fun _ => quiet_ifCall _ _

theorem quiet_writeCalls (path : Path) (bytes : Nat) : Quiet files (writeCalls files path bytes) :=
  (quiet_checkSpace path bytes).bind fun _ => quiet_outputCall _

theorem quiet_copyCalls (path : Path) (diff : DiffState) (offset len : Nat) :
    Quiet files (copyCalls files path diff offset len) := by
  unfold copyCalls
  split
  · exact quiet_outputCall _
  · exact quiet_writeCalls path len

theorem quiet_prepareOutput (output : TempOutput) (action : Action) (entry : DirEntryWithMeta) :
    Quiet files (prepareOutput files output action entry) :=
  (quiet_outputCall _).bind fun _ => quiet_read.bind fun _ => quiet_pure _

theorem quiet_forM {f : α → Applying PUnit} (each : ∀ a, Quiet files (f a)) (l : List α) :
    Quiet files (l.forM f) := by
  induction l with
  | nil => exact quiet_pure ()
  | cons a l ih => exact (each a).bind fun _ => ih

end Quiet

section Sealable

variable {files : OutputFiles} {applier next : DetailApplier}

/-- The pending outputs can fill their slots, before and after the current action. -/
structure DetailApplier.Sealable (applier : DetailApplier) : Prop where
  distinct : (applier.outputBatch.pending.map PendingOutput.actionIndex).Nodup
  behind : ∀ item ∈ applier.outputBatch.pending, item.actionIndex < applier.actionIndex
  free : ∀ item ∈ applier.outputBatch.pending, applier.preparedOutputs item.actionIndex = none
  ahead : ∀ i, applier.actionIndex ≤ i → applier.preparedOutputs i = none

theorem DetailApplier.sealable_new (actions : Actions) (attemptId : Option String)
    (monitor : Bool) (config : OutputBatchConfig) :
    (DetailApplier.new actions attemptId monitor config).Sealable where
  distinct := List.nodup_nil
  behind _ mem := absurd mem List.not_mem_nil
  free _ mem := absurd mem List.not_mem_nil
  ahead _ _ := rfl

/-- Going on to a later action keeps the outputs sealable. -/
theorem DetailApplier.Sealable.advance (sealable : applier.Sealable)
    (outputs : next.outputs = applier.outputs) (later : applier.actionIndex ≤ next.actionIndex) :
    next.Sealable := by
  obtain ⟨pending, slots⟩ := Prod.mk.inj outputs
  refine ⟨?_, ?_, ?_, ?_⟩
  · rw [pending]
    exact sealable.distinct
  · rw [pending]
    exact fun item mem => (sealable.behind item mem).trans_le later
  · rw [pending, slots]
    exact sealable.free
  · rw [slots]
    exact fun i ahead => sealable.ahead i (later.trans ahead)

/-- A quiet step keeps the outputs sealable. -/
theorem Quiet.keeps {α : Type} {m : Applying α} (quiet : Quiet files m)
    (sealable : applier.Sealable) :
    m.Ends (fun _ next => next.progress = applier.progress ∧ next.Sealable)
      (fun _ _ => ¬ files.Granting) applier := by
  refine (quiet applier).mono (fun _ next same => ⟨same.1, ?_⟩) fun _ _ => id
  exact sealable.advance same.2 (congrArg (fun p => p.2.1) same.1).ge

/-- The output of the current action joins the batch. -/
theorem DetailApplier.Sealable.push (sealable : applier.Sealable) (prepared : PreparedOutput) :
    DetailApplier.Sealable { applier with
      outputBatch := applier.outputBatch.push ⟨applier.actionIndex, prepared⟩
      actionIndex := applier.actionIndex + 1 } where
  distinct := by
    unfold FilePublicationBatch.push
    rw [List.map_append, List.nodup_append]
    refine ⟨sealable.distinct, List.nodup_singleton _, ?_⟩
    intro i inside j last
    obtain ⟨item, mem, rfl⟩ := List.mem_map.mp inside
    have current : j = applier.actionIndex := by simpa using last
    have := sealable.behind item mem
    omega
  behind item mem := by
    rcases List.mem_append.mp mem with mem | mem
    · exact (sealable.behind item mem).trans (Nat.lt_succ_self _)
    · obtain rfl := List.mem_singleton.mp mem
      exact Nat.lt_succ_self _
  free item mem := by
    rcases List.mem_append.mp mem with mem | mem
    · exact sealable.free item mem
    · obtain rfl := List.mem_singleton.mp mem
      exact sealable.ahead _ le_rfl
  ahead i later := sealable.ahead i ((Nat.le_succ _).trans later)

/-- What holds while slots are filled: the outputs left are those of different actions
behind the current one, whose slots are free. -/
structure Filling (applier : DetailApplier) (left : List PendingOutput) (now : DetailApplier) :
    Prop where
  progress : now.progress = applier.progress
  pending : now.outputBatch.pending = []
  distinct : (left.map PendingOutput.actionIndex).Nodup
  behind : ∀ item ∈ left, item.actionIndex < applier.actionIndex
  free : ∀ item ∈ left, now.preparedOutputs item.actionIndex = none
  ahead : ∀ i, applier.actionIndex ≤ i → now.preparedOutputs i = none

theorem Filling.of_quiet {left : List PendingOutput} {now : DetailApplier}
    (filling : Filling applier left now) (progress : next.progress = now.progress)
    (outputs : next.outputs = now.outputs) : Filling applier left next := by
  obtain ⟨pending, slots⟩ := Prod.mk.inj outputs
  refine ⟨progress.trans filling.progress, pending.trans filling.pending, filling.distinct,
    filling.behind, ?_, ?_⟩
  · rw [slots]
    exact filling.free
  · rw [slots]
    exact filling.ahead

theorem Filling.fillSlot {item : PendingOutput} {left : List PendingOutput} {now : DetailApplier}
    (filling : Filling applier (item :: left) now) :
    (Detail.fillSlot files item).Ends (fun _ after => Filling applier left after)
      (fun _ _ => ¬ files.Granting) now := by
  unfold Detail.fillSlot
  rw [Effect.ends_bind]
  refine (quiet_outputCall _ now).mono (fun _ called same => ?_) fun _ _ => id
  obtain ⟨progress, pending, distinct, behind, free, ahead⟩ :=
    filling.of_quiet same.1 same.2
  obtain ⟨notLater, distinct⟩ := List.nodup_cons.mp distinct
  simp only [Effect.ends_bind, Effect.ends_read, Effect.ends_write,
    free item List.mem_cons_self, Option.isSome_none]
  refine ⟨progress, pending, distinct, fun other mem => behind other (.tail _ mem), ?_, ?_⟩
  · intro other mem
    have apart : other.actionIndex ≠ item.actionIndex := by
      intro same
      exact notLater (same ▸ List.mem_map_of_mem mem)
    exact (Function.update_of_ne apart _ _).trans (free other (.tail _ mem))
  · intro i later
    have apart : i ≠ item.actionIndex := by
      have := behind item List.mem_cons_self
      omega
    exact (Function.update_of_ne apart _ _).trans (ahead i later)

/-- When all slots are filled, nothing is pending. -/
theorem Filling.sealable {now : DetailApplier} (filling : Filling applier [] now) :
    now.Sealable := by
  obtain ⟨-, index, -⟩ := Prod.mk.inj filling.progress |>.imp_right Prod.mk.inj
  refine ⟨?_, ?_, ?_, ?_⟩
  · rw [filling.pending]
    exact List.nodup_nil
  · rw [filling.pending]
    exact fun _ mem => absurd mem List.not_mem_nil
  · rw [filling.pending]
    exact fun _ mem => absurd mem List.not_mem_nil
  · exact fun i later => filling.ahead i (index ▸ later)

/-- Sealing fails only when a call is refused; no slot is ever taken. -/
theorem DetailApplier.Sealable.ends_sealInto (sealable : applier.Sealable) :
    (sealInto files).Ends (fun _ next => next.progress = applier.progress ∧ next.Sealable)
      (fun _ _ => ¬ files.Granting) applier := by
  unfold sealInto
  rw [Effect.ends_bind, Effect.ends_read]
  dsimp only
  split
  · exact ⟨rfl, sealable⟩
  · have start : Filling applier applier.outputBatch.pending { applier with
        outputBatch := { applier.outputBatch with pending := [], pendingBytes := 0 } } :=
      ⟨rfl, rfl, sealable.distinct, sealable.behind, sealable.free, sealable.ahead⟩
    rw [Effect.ends_bind, Effect.ends_write, Effect.ends_bind]
    refine (quiet_forM (fun item => quiet_outputCall _) _ _).mono (fun _ synced same => ?_)
      fun _ _ => id
    have filling := start.of_quiet same.1 same.2
    rw [Effect.ends_bind]
    refine (quiet_syncMarker synced).mono (fun _ marked same => ?_) fun _ _ => id
    have filled := Effect.ends_forM (E := fun _ _ => ¬ files.Granting)
      (filling.of_quiet same.1 same.2) fun item rest now _ filling => filling.fillSlot
    exact filled.mono (fun _ done filling => ⟨filling.progress, filling.sealable⟩) fun _ _ => id

theorem DetailApplier.Sealable.ends_sealOutputs (sealable : applier.Sealable) :
    (sealOutputs files).Ends (fun _ next => next.progress = applier.progress ∧ next.Sealable)
      (fun _ _ => ¬ files.Granting) applier := by
  unfold sealOutputs
  rw [Effect.ends_bind]
  refine sealable.ends_sealInto.mono (fun _ done holds => ?_) fun _ _ => id
  obtain ⟨progress, sealed⟩ := holds
  refine (quiet_recheckSpace.keeps sealed).mono (fun _ next holds => ?_) fun _ _ => id
  exact ⟨holds.1.trans progress, holds.2⟩

theorem DetailApplier.Sealable.ends_flushBeforeOutput (sealable : applier.Sealable)
    (bytes : Nat) :
    (flushBeforeOutput files bytes).Ends
      (fun _ next => next.progress = applier.progress ∧ next.Sealable)
      (fun _ _ => ¬ files.Granting) applier := by
  unfold flushBeforeOutput
  rw [Effect.ends_bind, Effect.ends_read]
  split
  · exact sealable.ends_sealOutputs
  · exact ⟨rfl, sealable⟩

end Sealable

end Duet.Detail

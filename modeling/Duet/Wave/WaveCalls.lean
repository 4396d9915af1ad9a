import Duet.Wave.ClientCalls

/-!
# Whole waves

From its beginning to its end a wave goes through the stages of both sides together: it is
committed only when both sides are prepared and validated, and its markers are removed only when
both snapshots are saved. What is left after it is a new checkpoint of both sides.
-/

namespace Duet

open Lib Marker

/-- The two sides of a checkpoint belong together: they are as at the start, or snapshots of
one wave that describe their trees. -/
inductive Agrees (p : Profile) (start : World) :
    Option HostFile × TargetTree → Option HostFile × TargetTree → Prop where
  | start : Agrees p start (start.here.files p.localState, start.here.tree)
      (start.there.files p.remoteState, start.there.tree)
  | saved (wave : Nat) (hereEntries thereEntries : Entries)
      (hereFormat thereFormat : SnapshotFormat) :
      Agrees p start (some (.snapshot hereEntries hereFormat), .settled wave hereEntries)
        (some (.snapshot thereEntries thereFormat), .settled wave thereEntries)

/-- A checkpoint belongs together, and a wave that commits has been begun. -/
def WaveStage.Valid (p : Profile) (start : World) (begun : List (Nat × String)) : WaveStage → Prop
  | .before here there => Agrees p start here there
  | .committing wave attemptId | .saved wave attemptId => (wave, attemptId) ∈ begun

/-- Both hosts stay as they are. -/
def frozen (here there : Host) : Sides :=
  ⟨(· = here), (· = there), AnyPhase, anyPhase_steady, anyPhase_lasting⟩

/-- The stages that synchronizations from a start go through. A run that finds a marker leaves
both hosts as it found them. -/
inductive wavePolicy (p : Profile) (start : World) : Policy where
  | stage {begun : List (Nat × String)} {stage : WaveStage} (valid : stage.Valid p start begun) :
      wavePolicy p start begun (stage.sides p)
  | frozen {begun : List (Nat × String)} {stage : WaveStage} {here there : Host}
      (valid : stage.Valid p start begun) (ofHere : (stage.sides p).here here)
      (ofThere : (stage.sides p).there there) : wavePolicy p start begun (frozen here there)

/-- Some stage is reached, and stays whatever the server does. -/
def SomeStage (policy : Policy) (w : World) : Prop := ∃ sides, Safe policy sides w

section Waves

variable {p : Profile} {start : World} {here there : Option HostFile × TargetTree}
  {wave : Nat} {attemptId : String} {begun : List (Nat × String)} {w : World}
  {H I : Host → Prop} {K : DuetServerImpl → Host → Prop} {phases : InterruptPhase → Prop}

theorem before_allowed (agrees : Agrees p start here there) (begun : List (Nat × String)) :
    wavePolicy p start begun ((WaveStage.before here there).sides p) :=
  .stage agrees

/-- With a server that is not busy the other host does not change any more. -/
theorem Holds.pin (holds : Holds H I K Unserved phases begun w) (free : w.server.Free) :
    I w.there ∧ Holds H (· = w.there) K Unserved phases begun w := by
  refine ⟨holds.server.host, holds.here, ?_, holds.phase, holds.begun⟩
  have known := holds.server
  cases state : w.server with
  | idle server =>
    rw [state] at known
    exact ⟨rfl, known.2⟩
  | gone => exact rfl
  | replied result server =>
    rw [state] at known
    exact known.2.elim
  | serving | orphan =>
    rw [state] at free
    cases free

theorem Stopped.some (agrees : Agrees p start here there) (holds : Stopped p here there begun w) :
    SomeStage (wavePolicy p start) w :=
  ⟨_, Holds.safe holds (inStage_before (before_allowed agrees) (fun _ known => known)
    fun _ known => known)⟩

/-! ### Validation -/

/-- Both sides are prepared and validated. -/
def Validated (p : Profile) (here there : Option HostFile × TargetTree) (wave : Nat)
    (attemptId : String) (begun : List (Nat × String)) (w : World) : Prop :=
  Holds
    (fun h => h.Prepared p.localState here.1 here.2 wave attemptId ∧ wave ∈ h.validated)
    (fun h => h.Prepared p.remoteState there.1 there.2 wave attemptId ∧ wave ∈ h.validated)
    (fun server _ => server.Prepared p.remoteState attemptId) Unserved EarlyPhase begun w

theorem validateBoth_call (agrees : Agrees p start here there) {prepared : PreparedApply}
    (of : prepared.inner.Of p attemptId)
    (holds : PreparedBoth p here there wave attemptId begun w) :
    (clientContract (wavePolicy p start)).wp (validateBoth prepared attemptId).run
      (Outcome (fun _ w' => Validated p here there wave attemptId begun w')
        (Stopped p here there begun)) w := by
  have allowed := before_allowed agrees
  refine wp_then (wp_join (E := Stopped p here there begun)
    (A := fun _ h => h.Prepared p.remoteState there.1 there.2 wave attemptId ∧ wave ∈ h.validated)
    (B := fun _ server _ => server.Prepared p.remoteState attemptId)
    (D := fun server _ => server.Prepared p.remoteState attemptId) earlyPhase_steady
    (inStage_before allowed (fun _ known => known.toUntouched) fun _ known => known.toUntouched)
    (fun _ known => known) (fun _ known => known) holds (fun server h known idle => ?_)
    fun h known => validateCommit_prepared prepared known) fun results w₁ outcome => ?_
  · refine Handler.wp_reply (Contract.wp_mono (validateStagedApply_call idle known)
      fun out h' kept => ?_)
    obtain ⟨still, same, validated⟩ := kept
    rcases out with ⟨error | value, server'⟩
    · exact same ▸ idle
    · exact ⟨⟨still, validated rfl⟩, same ▸ idle⟩
  · obtain ⟨mine, theirs⟩ := results
    have canAbort : CanAbort p here there attemptId begun w₁ := by
      cases theirs with
      | ok reply =>
        exact Holds.weaken outcome (fun _ known => known.1.toUntouched)
          (fun _ known => known.1.toUntouched) (fun _ _ _ idle => .prepared idle) fun _ early => early
      | error error =>
        exact Holds.weaken outcome (fun _ known => known.1.toUntouched)
          (fun _ known => known.toUntouched) (fun _ _ _ idle => .prepared idle) fun _ early => early
    have aborts : ∀ error : Report, (clientContract (wavePolicy p start)).wp
        (abortAndThrow (α := Unit) prepared.abort attemptId error).run
        (Outcome (fun _ w' => Validated p here there wave attemptId begun w')
          (Stopped p here there begun)) w₁ := fun error =>
      wp_outcome (abortAndThrow_call allowed of.abort canAbort) (fun _ _ known => known)
        fun _ failed => failed.stopped
    cases mine with
    | error error => exact aborts error
    | ok _ =>
      cases theirs with
      | error error => exact aborts error
      | ok reply =>
        exact Holds.weaken outcome (fun _ known => ⟨known.1, known.2.2 rfl⟩) (fun _ known => known)
          (fun _ _ _ idle => idle) fun _ early => early

/-! ### Commit -/

theorem committing_inStage (start : World) (member : (wave, attemptId) ∈ begun)
    (ofHere : ∀ h, H h → h.Committing p.localState wave attemptId)
    (ofThere : ∀ h, I h → h.Committing p.remoteState wave attemptId) :
    InStage (wavePolicy p start) ((WaveStage.committing wave attemptId).sides p) H I CommitPhase
      begun :=
  ⟨ofHere, ofThere, fun _ committed => committed.late,
    .stage (show (WaveStage.committing wave attemptId).Valid p start begun from member)⟩

theorem saved_inStage (start : World) (member : (wave, attemptId) ∈ begun)
    (ofHere : ∀ h, H h → h.Saved p.localState wave attemptId)
    (ofThere : ∀ h, I h → h.Saved p.remoteState wave attemptId) :
    InStage (wavePolicy p start) ((WaveStage.saved wave attemptId).sides p) H I CommitPhase begun :=
  ⟨ofHere, ofThere, fun _ committed => committed.late,
    .stage (show (WaveStage.saved wave attemptId).Valid p start begun from member)⟩

/-- One side at the end of its wave. -/
structure Host.Done (h : Host) (statePath : StatePath) (wave : Nat) (attemptId : String) : Prop
    extends h.Saved statePath wave attemptId where
  unmarked : h.files (applyAttemptPath statePath) = none
  aside : h.quarantined = []

/-- Both sides are at the end of their wave. -/
structure WaveDone (p : Profile) (wave : Nat) (attemptId : String) (begun : List (Nat × String))
    (w : World) : Prop where
  here : w.here.Done p.localState wave attemptId
  there : w.there.Done p.remoteState wave attemptId
  holds : Holds (· = w.here) (· = w.there) (fun server _ => server.Calm p.remoteState) Unserved
    CommitPhase begun w

/-- The commit of both sides. -/
theorem commitJoin_call (member : (wave, attemptId) ∈ begun) (prepared : PreparedApply)
    {failed : World → Prop}
    (holds : Holds (·.Committing p.localState wave attemptId)
      (·.Committing p.remoteState wave attemptId)
      (fun server _ => server.Prepared p.remoteState attemptId) Unserved CommitPhase begun w) :
    (clientContract (wavePolicy p start)).wp
      (join prepared.commitProfiled (.commitStagedApply attemptId)).run
      (Outcome (fun results w' => SomeStage (wavePolicy p start) w' ∧
        ∀ entries reply, results = (.ok entries, .ok reply) →
          Holds (·.Committed p.localState wave attemptId entries)
            (·.Committing p.remoteState wave attemptId)
            (fun server h => ∃ entries, server.Committed p.remoteState attemptId entries false ∧
              h.Committed p.remoteState wave attemptId entries) Unserved CommitPhase begun w')
        failed) w := by
  have inStage := committing_inStage start member
    (fun _ (known : Host.Committing _ p.localState wave attemptId) => known)
    fun _ (known : Host.Committing _ p.remoteState wave attemptId) => known
  refine wp_outcome (wp_join (E := failed)
    (A := fun _ => (·.Committing p.remoteState wave attemptId))
    (B := fun _ server h => ∃ entries, server.Committed p.remoteState attemptId entries false ∧
      h.Committed p.remoteState wave attemptId entries)
    (D := fun _ _ => True) commitPhase_steady inStage (fun _ known => known)
    (fun _ known => known) holds (fun server h known idle => ?_)
    fun h known => commitProfiled_committing prepared known) (fun results w₁ outcome => ?_)
    fun _ failed => failed
  · refine Handler.wp_reply (Contract.wp_mono (commitStagedApplyInner_call idle known)
      fun out h' kept => ?_)
    rcases out with ⟨error | value, server'⟩
    · trivial
    · exact ⟨kept.1, kept.2 rfl⟩
  · obtain ⟨mine, theirs⟩ := results
    constructor
    · cases theirs with
      | ok reply => exact ⟨_, Holds.safe outcome (inStage.mono (fun _ known => known.1) fun _ known => known)⟩
      | error error => exact ⟨_, Holds.safe outcome (inStage.mono (fun _ known => known.1) fun _ known => known)⟩
    · intro entries reply same
      cases same
      exact Holds.weaken outcome (fun _ known => known.2.2 entries rfl) (fun _ known => known)
        (fun _ _ _ idle => idle) fun _ committed => committed

/-- The state saves of both sides. -/
theorem saveJoin_call (member : (wave, attemptId) ∈ begun) (strong : Bool) {entries : Entries}
    {failed : World → Prop}
    (holds : Holds (·.Committed p.localState wave attemptId entries)
      (·.Committing p.remoteState wave attemptId)
      (fun server h => ∃ entries, server.Committed p.remoteState attemptId entries false ∧
        h.Committed p.remoteState wave attemptId entries) Unserved CommitPhase begun w) :
    (clientContract (wavePolicy p start)).wp
      (join (saveEntriesAs p.localState entries (snapshotFormat strong))
        (.saveStagedStatePending attemptId strong)).run
      (Outcome (fun results w' => SomeStage (wavePolicy p start) w' ∧
        ∀ value reply, results = (.ok value, .ok reply) →
          Holds (fun h => h.Saved p.localState wave attemptId ∧ h.quarantined = [])
            (fun h => h.Saved p.remoteState wave attemptId ∧ h.quarantined = [])
            (fun server _ => ∃ entries, server.Committed p.remoteState attemptId entries true)
            Unserved CommitPhase begun w')
        failed) w := by
  have inStage := committing_inStage start member
    (fun _ (known : Host.Committed _ p.localState wave attemptId entries) => known.toCommitting)
    fun _ (known : Host.Committing _ p.remoteState wave attemptId) => known
  refine wp_outcome (wp_join (E := failed)
    (A := fun _ h => h.Committing p.remoteState wave attemptId ∧
      h.Saved p.remoteState wave attemptId)
    (B := fun _ server _ => ∃ entries, server.Committed p.remoteState attemptId entries true)
    (D := fun _ _ => True) commitPhase_steady inStage (fun _ known => known)
    (fun _ known => known) holds (fun server h known idle => ?_)
    fun h known => saveEntriesAs_committed (snapshotFormat strong) known) (fun results w₁ outcome => ?_)
    fun _ failed => failed
  · obtain ⟨theirs, committed, ready⟩ := idle
    refine Handler.wp_reply (Contract.keeping_mono
      (saveStagedStatePendingInner_call strong committed ready) (fun _ kept => kept.toCommitting)
      fun out h' kept => ?_)
    rcases out with ⟨error | value, server'⟩
    · trivial
    · exact ⟨⟨kept.1.toCommitting, (kept.2 rfl).2⟩, theirs, (kept.2 rfl).1⟩
  · obtain ⟨mine, theirs⟩ := results
    constructor
    · cases theirs with
      | ok reply =>
        exact ⟨_, Holds.safe outcome (inStage.mono (fun _ known => known.1) fun _ known => known.1)⟩
      | error error =>
        exact ⟨_, Holds.safe outcome (inStage.mono (fun _ known => known.1) fun _ known => known)⟩
    · intro value reply same
      cases same
      exact Holds.weaken outcome (fun _ known => ⟨known.2.2 rfl, known.1.aside⟩)
        (fun _ known => ⟨known.2, known.1.aside⟩) (fun _ _ _ idle => idle)
        fun _ committed => committed

/-- The markers of a wave that is saved on both sides are removed. -/
theorem completeBoth_call (member : (wave, attemptId) ∈ begun) {entries : Entries}
    (holds : Holds (fun h => h.Saved p.localState wave attemptId ∧ h.quarantined = [])
      (fun h => h.Saved p.remoteState wave attemptId ∧ h.quarantined = [])
      (fun server _ => ∃ entries, server.Committed p.remoteState attemptId entries true)
      Unserved CommitPhase begun w) :
    (clientContract (wavePolicy p start)).wp (show ClientM Entries from do
        let _ ← remote (.completeStagedApply attemptId)
        Duet.here (finishStagedApplyAttempt p.localState attemptId)
        return entries).run
      (Outcome (fun _ w' => WaveDone p wave attemptId begun w')
        (SomeStage (wavePolicy p start))) w := by
  have inStage := saved_inStage start member
    (fun h (known : h.Saved p.localState wave attemptId ∧ h.quarantined = []) => known.1)
    fun _ (known : Host.Saved _ p.remoteState wave attemptId) => known
  refine wp_then (wp_outcome (wp_remote_free
    (A := fun _ h => h.Done p.remoteState wave attemptId)
    (B := fun _ server _ => server.Calm p.remoteState) (D := fun _ _ => True)
    commitPhase_steady inStage (fun _ known => known.1) holds fun server h known idle => ?_)
    (fun _ _ after => after) fun _ failed => ⟨_, failed.safe inStage⟩) fun reply w₁ after => ?_
  · obtain ⟨theirs, committed⟩ := idle
    refine Handler.wp_reply (Contract.wp_mono
      (completeStagedApplyInner_call committed known.1 known.2) fun out h' kept => ?_)
    rcases out with ⟨error | value, server'⟩
    · trivial
    · obtain ⟨saved, done⟩ := kept
      obtain ⟨calm, unmarked, aside⟩ := done rfl
      exact ⟨⟨saved, unmarked, aside⟩, calm⟩
  · obtain ⟨done, pinned⟩ := after.1.pin after.2
    have inStage₁ := saved_inStage start member
      (fun _ (known : Host.Saved _ p.localState wave attemptId) => known)
      fun h (same : h = w₁.there) => same ▸ done.toSaved
    refine Contract.wp_run_bind.mpr (Contract.wp_mono (wp_here commitPhase_steady inStage₁
      (fun _ known => known.1) pinned fun h known => finishStagedApplyAttempt_saved known.1 known.2)
      fun result w₂ finished => ?_)
    cases result with
    | error error => exact ⟨_, finished.safe (inStage₁.mono (fun _ known => known.1) fun _ known => known)⟩
    | ok _ =>
      obtain ⟨unmarked, aside⟩ := finished.here.2.2 rfl
      have there : w₂.there = w₁.there := finished.server.host
      refine ⟨⟨finished.here.1, unmarked, aside⟩, there ▸ done, ?_⟩
      exact { finished with
        here := rfl
        server := there ▸ finished.server }

theorem commitBoth_call (member : (wave, attemptId) ∈ begun) (plan : RunPlan)
    (prepared : PreparedApply)
    (holds : Holds (·.Committing p.localState wave attemptId)
      (·.Committing p.remoteState wave attemptId)
      (fun server _ => server.Prepared p.remoteState attemptId) Unserved CommitPhase begun w) :
    (clientContract (wavePolicy p start)).wp (commitBoth p.context plan prepared attemptId).run
      (Outcome (fun _ w' => WaveDone p wave attemptId begun w')
        (SomeStage (wavePolicy p start))) w := by
  refine wp_then (commitJoin_call member prepared holds) fun results w₁ committed => ?_
  obtain ⟨stage, both⟩ := committed
  obtain ⟨mine, theirs⟩ := results
  refine wp_then (R := fun entries w' => Holds (·.Committed p.localState wave attemptId entries)
    (·.Committing p.remoteState wave attemptId)
    (fun server h => ∃ entries, server.Committed p.remoteState attemptId entries false ∧
      h.Committed p.remoteState wave attemptId entries) Unserved CommitPhase begun w') ?_
    fun entries w₂ after => ?_
  · cases mine with
    | ok entries =>
      cases theirs with
      | ok reply => exact both entries reply rfl
      | error error => exact stage
    | error error =>
      cases theirs with
      | ok reply => exact stage
      | error error => exact stage
  · have inStage := committing_inStage start member
      (fun _ (known : Host.Committed _ p.localState wave attemptId entries) => known.toCommitting)
      fun _ (known : Host.Committing _ p.remoteState wave attemptId) => known
    refine Contract.wp_run_bind.mpr (Contract.wp_mono (wp_here commitPhase_steady inStage
      (fun _ known => known) after fun h known => markStateSave_committed known)
      fun result w₃ marked => ?_)
    cases result with
    | error error => exact ⟨_, marked.safe (inStage.mono (fun _ known => known.1) fun _ known => known)⟩
    | ok _ =>
      refine wp_then (saveJoin_call member plan.strong (marked.weaken (fun _ known => known.1)
        (fun _ known => known) (fun _ _ _ idle => idle) fun _ committed => committed))
        fun results w₄ saved => ?_
      obtain ⟨stage, both⟩ := saved
      obtain ⟨mine, theirs⟩ := results
      cases mine with
      | error error => exact stage
      | ok value =>
        cases theirs with
        | error error => exact stage
        | ok reply => exact completeBoth_call member (both value reply rfl)

end Waves

end Duet
